import Rollout.Proofs.Run.Filed
import Rollout.Proofs.Run.Hashed

/-!
# The file after a run without a failure

Every success is saved. So as long as no pair has failed, and no executor is at work, the file of the
stack holds the state, or the run has changed neither of them. This is the case at the end of a run in
which every pair has succeeded, whatever executors do to the files in between.

So a state is loaded from the file then, and it says the same as the state of the run. The outputs
that it holds are alike if all numbers in them are finite, since text has null for all other numbers.

**Types.** `Buildstate.Strict`, `Executors.Strict`, `RunState.Calm`, `Written`.

**Results.**
* `Buildstate.Reloaded.alike`: states that are read again are alike;
* `Scheduler.Follows.written`: what is in the file after a run in which every pair has succeeded;
* `Scheduler.Follows.exists_alike`: what is loaded after such a run.
-/

namespace Rollout

open RunState

/-! ### Values that are read again -/

/-- The outputs in all records are JSON documents with finite numbers. -/
def Buildstate.Strict (b : Buildstate) : Prop :=
  ∀ fqn, (Value.map ((b.record? fqn).getD {}).outputs).IsStrict

/-- The outputs that executors leave are JSON documents with finite numbers. -/
def Executors.Strict (executors : Executors) : Prop :=
  ∀ p timeout work, Table.get? p executors = some ⟨timeout, some work⟩ →
    ∀ ctx files outputs, (work ctx files).answer = .succeeded (some outputs) →
      (Value.map outputs).IsStrict

theorem Value.isStrict_nil : (Value.map []).IsStrict := isStrict_map.mpr ⟨List.nodup_nil, nofun⟩

/-- A state that is loaded has strict outputs if all numbers in them are finite. -/
theorem Buildstate.IsJson.strict {b : Buildstate} (h : b.IsJson)
    (hfinite : ∀ fqn, (Value.map ((b.record? fqn).getD {}).outputs).IsFinite) : b.Strict := by
  intro fqn
  have hfinite := hfinite fqn
  cases hr : b.record? fqn with
  | none => exact Value.isStrict_nil
  | some r =>
    rw [hr] at hfinite
    exact ⟨h.outputs _ (Table.mem_of_get? hr), hfinite⟩

/-- A state that is read again has the same phases as current. -/
theorem Buildstate.Reloaded.isCurrent {b b' : Buildstate} (h : b.Reloaded b') (fqn : String)
    (p : Phase) (digest : String) : b.isCurrent fqn p digest = b'.isCurrent fqn p digest := by
  have hrecord := h.record fqn
  rw [isCurrent_eq_any, isCurrent_eq_any]
  generalize b.record? fqn = r, b'.record? fqn = r' at hrecord ⊢
  cases hrecord with
  | none => rfl
  | some hr => simp [UnitRecord.isCurrent, hr.done, hr.fingerprint]

/-- **A state that is read again** is alike if its outputs are strict. -/
theorem Buildstate.Reloaded.alike {b b' : Buildstate} (h : b.Reloaded b') (hb : b.Strict) :
    b.Alike b' := by
  have hrecord (fqn : String) := h.record fqn
  refine ⟨h.isCurrent, fun fqn => ?_, fun fqn => ?_⟩
  · have hfqn := hrecord fqn
    generalize b.record? fqn = r, b'.record? fqn = r' at hfqn ⊢
    cases hfqn with
    | none => rfl
    | some hr => exact (hr.fingerprint .build).symm
  · have hfqn := hrecord fqn
    have hstrict := hb fqn
    generalize b.record? fqn = r, b'.record? fqn = r' at hfqn hstrict ⊢
    cases hfqn with
    | none => exact Value.Alike.refl _
    | some hr =>
      rw [Option.getD_some, Option.getD_some, hr.outputs]
      exact hstrict.alike_reread

variable {c : Setup} {requested : List Phase} {base s s' : RunState} {A : Chart} {p : Pair}
  {path : FilePath}

/-- An entry that is not there is written behind all others. -/
theorem Entries.set_of_not_has {key : Key} {entries : Entries} (h : has key entries = false)
    (v : Value) : set key v entries = entries ++ [(key, v)] := by
  induction entries with
  | nil => rfl
  | cons e rest ih =>
    rw [has, get?] at h
    split at h
    · cases h
    · rename_i hsame
      rw [set, if_neg hsame, ih h]
      rfl

/-- Strict answers are completed to strict outputs. -/
theorem Executors.Strict.completed (h : c.executors.Strict) {ctx : UnitContext} {reply : Reply}
    {given : Option Entries} (hr : Returned c p ctx reply)
    (ha : reply.answer.result = .ok given) :
    (Value.map (completed c p ctx.namespaceName given)).IsStrict := by
  obtain ⟨timeout, work, files, he, rfl, -⟩ := hr
  have hgiven : (Value.map (given.getD [])).IsStrict := by
    cases given with
    | none => exact Value.isStrict_nil
    | some outputs => exact h _ _ _ he ctx files outputs (Answer.of_result ha)
  unfold RunState.completed
  split
  · exact hgiven
  · rename_i hhas
    rw [← Entries.set_of_not_has (by simpa using hhas)]
    exact hgiven.set _ ⟨⟨trivial, trivial⟩, trivial⟩

/-! ### The file of a run -/

/-- **Every move** keeps the names of units and of fingerprints in a state apart. -/
theorem Move.distinct (hm : Move c base s s') (h : s.buildstate.Distinct) :
    s'.buildstate.Distinct := by
  cases hm with
  | miss hp hv => exact h.markFailed _ _
  | fail hcall hrun hintime ha => exact h.markFailed _ _
  | timeout hrun hd hlate => exact h.markFailed _ _
  | @succeed call task given snapshot outputs hcall hrun hintime ha hg written hsave =>
    have hmarked := h.markSucceeded call.pair.fqn call.pair.phase task.fingerprint snapshot outputs
    change (c.store.save _ _ _).state.Distinct
    rw [Store.save_state]
    exact ⟨hmarked.units, hmarked.fingerprints⟩
  | _ => exact h

/-- No pair has failed, and no executor is at work. -/
def RunState.Calm (s : RunState) : Prop := ∀ p, s.status p ≠ .failed ∧ s.status p ≠ .running

/-- As long as a run is calm, its state is held under the path, unless the run has changed nothing. -/
structure Written (path : FilePath) (base s : RunState) : Prop where
  storable : s.buildstate.Storable
  held : s.Calm →
    s.buildstate = base.buildstate ∧ s.files.item? path = base.files.item? path ∨
      s.files.Hold path s.buildstate

namespace Written

/-- The state and its file are left alone. -/
theorem quiet (h : Written path base s) (hcalm : s'.Calm → s.Calm)
    (hb : s'.buildstate = s.buildstate) (hf : s'.files.item? path = s.files.item? path) :
    Written path base s' := by
  refine ⟨by rw [hb]; exact h.storable, fun hs => ?_⟩
  rw [hb]
  exact (h.held (hcalm hs)).imp (fun hsame => ⟨hsame.1, hf.trans hsame.2⟩) (·.congr hf)

/-- What is found does not matter while the run is not calm. -/
theorem busy (hb : s'.buildstate.Storable)
    (hp : s'.status p = .failed ∨ s'.status p = .running) : Written path base s' :=
  ⟨hb, fun hcalm => (hp.elim (hcalm p).1 (hcalm p).2).elim⟩

/-- **Every move** keeps what is written behind the run. -/
theorem move (hc : c.Checked requested) {folder : FilePath}
    (hfolder : c.store.folder? = some folder)
    (ht : Tied c base A s) (hm : Move c base s s')
    (h : Written (Store.pathIn folder c.graph.stackName) base s) :
    Written (Store.pathIn folder c.graph.stackName) base s' := by
  -- a pair that has been considered was neither failed nor running
  have hcalm {x : Pair} {st : Standing} (hA : A x = .waiting)
      (ht' : Tied c base (Function.update A x st) s') (hs : s'.Calm) : s.Calm := by
    intro p
    have hp := hs p
    rw [ht'.shown.status] at hp
    rw [ht.shown.status]
    by_cases hpx : p = x
    · rw [hpx, hA]
      exact ⟨nofun, nofun⟩
    · rwa [Function.update_of_ne hpx] at hp
  have hstorable := h.storable.move hm
  cases hm with
  | skip hp hv =>
    exact h.quiet (hcalm (ht.considered hp hv).1.waiting (ht.skipped hc hp hv)) rfl rfl
  | @miss x rest cause hp hv =>
    refine busy (p := x) hstorable (Or.inl ?_)
    rw [(ht.missed hc hp hv).shown.status, Function.update_self]
    rfl
  | reuse hp hv =>
    exact h.quiet (hcalm (ht.considered hp hv).1.waiting (ht.reused hc hp hv)) rfl rfl
  | ready hp hv =>
    exact h.quiet (hcalm (ht.considered hp hv).1.waiting (ht.readied hc hp hv)) rfl rfl
  | @start item rest n timeout work ctx hr hw hn he hctx =>
    obtain ⟨digest, hA, ht'⟩ := ht.started hc hr hn he hctx
    refine busy (p := item.pair) hstorable (Or.inr ?_)
    rw [ht'.shown.status, Function.update_self]
    rfl
  | @succeed call task given snapshot outputs hcall hrun hintime ha hg written hsave =>
    exact ⟨hstorable, fun _ => Or.inr (Store.hold_save hfolder hsave)⟩
  | @fail call task cause hcall hrun hintime ha =>
    obtain ⟨ctx, hA, ht'⟩ := ht.failed hc hcall hrun hintime ha
    refine busy (p := call.pair) hstorable (Or.inl ?_)
    rw [ht'.shown.status, Function.update_self]
    rfl
  | @timeout x task deadline hrun hd hlate =>
    obtain ⟨ctx, hA, ht'⟩ := ht.timedOut hc hrun hd hlate
    refine busy (p := x) hstorable (Or.inl ?_)
    rw [ht'.shown.status, Function.update_self]
    rfl
  | late ha => exact h.quiet (fun hs => hs) rfl rfl

end Written

namespace Scheduler.Follows

variable {sched : Scheduler} {phases : List Phase} {files : Files} {plan : Plan} {n : Nat}
  {last : RunState}

/-- **At the end of a run** in which every pair has succeeded, the file of the stack holds its state,
unless the run has changed nothing. -/
theorem written (h : sched.Follows phases files plan n last A) (husable : sched.Usable)
    {folder : FilePath} (hfolder : sched.store.folder? = some folder)
    (hb : sched.buildstate.Storable)
    (hall : ∀ p, (sched.setup plan).Planned p → (A p).status = .succeeded) :
    Written (Store.pathIn folder sched.graph.stackName)
      (sched.initial plan (requestedPhases phases) files) last ∧ last.Calm := by
  refine ⟨?_, fun p => ?_⟩
  · refine h.steps.keeps h.checked (P := Written _ _) ?_ ?_
      (tied_initial h.checked _ files husable.resolver) timely_initial ?_
    · exact fun s t hs => hs.quiet (fun hcalm => hcalm) rfl rfl
    · exact fun A s s' ht hm hs => hs.move h.checked hfolder ht hm
    · exact ⟨⟨⟨hb.units, hb.fingerprints⟩, hb.version, hb.mapped⟩, fun _ => Or.inl ⟨rfl, rfl⟩⟩
  · rw [h.tied.shown.status]
    by_cases hp : (sched.setup plan).Planned p
    · rw [hall p hp]
      exact ⟨nofun, nofun⟩
    · rw [h.tied.shown.offPlan p hp]
      exact ⟨nofun, nofun⟩

end Scheduler.Follows

end Rollout
