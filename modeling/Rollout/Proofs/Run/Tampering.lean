import Rollout.Proofs.Run.Confluence
import Rollout.Proofs.Run.Deadlines
import Rollout.Proofs.Run.Evaluation

/-!
# Executors that tamper with their contexts

What an executor leaves of the inputs and values of its context is looked at in one place only: when
a deployment succeeds, it is kept as the snapshot of the unit. No verdict, no fingerprint and no
later context depends on a snapshot. So two runs whose executors give the same answers after the
same time go on in step, and in the end their build states differ in the snapshots, and there only
as far as the executors left different contexts behind.

The files of the two runs may differ, since the snapshots are written into them. Therefore a save
may fail in one of the runs alone.

**Types.** `Executors.Agree`, `Buildstate.Like`, `RunState.Mirrors`, `Parallel`, `RunResult.Like`.

**Results.**
* `RunState.Mirrors.onward`, `RunState.Mirrors.run`: runs with agreeing executors go on in step;
* `Scheduler.snapshot_of_deployed`: the snapshot of a deployed unit is what its executor left;
* `tampering_confined`: tampering reaches the snapshots and nothing else.
-/

namespace Rollout

open RunState

/-- What a call leaves of the inputs and values of its context. -/
def Reply.left (r : Reply) : Value := .object [("inputs", r.inputs), ("values", r.values)]

/-- Two executors of a phase have the same limit and give the same answers after the same time,
whatever the files are. What they leave of their contexts and of the files may differ; for
deployments, what they leave of a context is related. -/
structure Executor.Agrees (same : Value → Value → Prop) (p : Phase) (e e' : Executor) : Prop where
  timeout : e.timeout = e'.timeout
  runs : e.run.isNone = e'.run.isNone
  replies : ∀ work ∈ e.run, ∀ work' ∈ e'.run, ∀ ctx files files',
    (work ctx files).answer = (work' ctx files').answer ∧
      (work ctx files).seconds = (work' ctx files').seconds ∧
      (p = .deploy → same (work ctx files).left (work' ctx files').left)

/-- The executors of every phase agree. -/
def Executors.Agree (same : Value → Value → Prop) (executors executors' : Executors) : Prop :=
  ∀ p, Option.Rel (Executor.Agrees same p) (Table.get? p executors) (Table.get? p executors')

/-- The setup with other executors. -/
def Setup.equip (c : Setup) (executors : Executors) : Setup := { c with executors := executors }

/-! ### Tables with related values -/

/-- Two tables have the same keys in the same order, and related values. -/
def Table.Rel {κ α : Type} (R : α → α → Prop) (t t' : Table κ α) : Prop :=
  List.Forall₂ (fun e e' => e.1 = e'.1 ∧ R e.2 e'.2) t t'

namespace Table.Rel

variable {κ α : Type} [DecidableEq κ] {R : α → α → Prop} {t t' : Table κ α}

theorem get? (h : Table.Rel R t t') (key : κ) :
    Option.Rel R (Table.get? key t) (Table.get? key t') := by
  induction h with
  | nil => exact .none
  | @cons e e' rest rest' he _ ih =>
    obtain ⟨hkey, hvalue⟩ := he
    rw [Table.get?, Table.get?, ← hkey]
    by_cases hk : e.1 = key
    · rw [if_pos hk, if_pos hk]
      exact .some hvalue
    · rw [if_neg hk, if_neg hk]
      exact ih

theorem set (h : Table.Rel R t t') (key : κ) {value value' : α} (hv : R value value') :
    Table.Rel R (Table.set key value t) (Table.set key value' t') := by
  induction h with
  | nil => exact .cons ⟨rfl, hv⟩ .nil
  | @cons e e' rest rest' he hrest ih =>
    obtain ⟨hkey, hvalue⟩ := he
    rw [Table.set, Table.set, ← hkey]
    by_cases hk : e.1 = key
    · rw [if_pos hk, if_pos hk]
      exact .cons ⟨rfl, hv⟩ hrest
    · rw [if_neg hk, if_neg hk]
      exact .cons ⟨rfl, hvalue⟩ ih

end Table.Rel

/-! ### States of knowledge that differ in their snapshots -/

variable {same : Value → Value → Prop}

/-- Two records differ in their snapshots only, and these are related. -/
inductive UnitRecord.Like (same : Value → Value → Prop) : UnitRecord → UnitRecord → Prop
  | intro (r : UnitRecord) {snapshot : Option Value} (h : Option.Rel same r.snapshot snapshot) :
      Like same r { r with snapshot := snapshot }

/-- Two states know the same about a stack but for the snapshots, which are related. -/
inductive Buildstate.Like (same : Value → Value → Prop) : Buildstate → Buildstate → Prop
  | intro (b : Buildstate) {units : Table String UnitRecord}
      (h : Table.Rel (UnitRecord.Like same) b.units units) : Like same b { b with units := units }

namespace UnitRecord.Like

theorem refl (hrefl : ∀ v, same v v) (r : UnitRecord) : r.Like same r := by
  refine .intro r ?_
  cases r.snapshot with
  | none => exact .none
  | some v => exact .some (hrefl v)

/-- After the success of a phase records are alike if the snapshots that it brings are. -/
theorem succeed {r r' : UnitRecord} (h : r.Like same r') (p : Phase) (digest : String)
    {snapshot snapshot' : Option Value} (hs : Option.Rel same snapshot snapshot')
    (outputs : Option Entries) :
    (r.succeed p digest snapshot outputs).Like same (r'.succeed p digest snapshot' outputs) := by
  cases h with
  | @intro old hr =>
    have hsnapshot : Option.Rel same (snapshot.orElse fun _ => r.snapshot)
        (snapshot'.orElse fun _ => old) := by
      cases hs with
      | none => exact hr
      | some hv => exact .some hv
    cases p <;> exact .intro _ hsnapshot

theorem fail {r r' : UnitRecord} (h : r.Like same r') (p : Phase) :
    (r.fail p).Like same (r'.fail p) := by
  cases h with
  | intro hr => cases p <;> exact .intro _ hr

end UnitRecord.Like

namespace Buildstate.Like

variable {b b' : Buildstate}

theorem refl (hrefl : ∀ v, same v v) (b : Buildstate) : b.Like same b :=
  .intro b (List.forall₂_same.mpr fun _ _ => ⟨rfl, UnitRecord.Like.refl hrefl _⟩)

/-- States with equal snapshots are equal. -/
theorem eq (h : b.Like Eq b') : b = b' := by
  have hsnapshot {v v' : Option Value} (hv : Option.Rel Eq v v') : v = v' := by
    cases hv with
    | none => rfl
    | some heq => rw [heq]
  have hrecord {r r' : UnitRecord} (hr : r.Like Eq r') : r = r' := by
    cases hr with
    | intro hv => rw [← hsnapshot hv]
  cases h with
  | @intro units hunits =>
    have hentry : List.Forall₂ Eq b.units units :=
      hunits.imp fun e e' he => Prod.ext he.1 (hrecord he.2)
    rw [List.forall₂_eq_eq_eq] at hentry
    rw [← hentry]

theorem record? (h : b.Like same b') (fqn : String) :
    Option.Rel (UnitRecord.Like same) (b.record? fqn) (b'.record? fqn) := by
  cases h with
  | intro hunits => exact hunits.get? fqn

theorem isCurrent (h : b.Like same b') (fqn : String) (p : Phase) (digest : String) :
    b.isCurrent fqn p digest = b'.isCurrent fqn p digest := by
  have hr := h.record? fqn
  rw [Buildstate.isCurrent, Buildstate.isCurrent]
  generalize b.record? fqn = r at hr
  generalize b'.record? fqn = r' at hr
  cases hr with
  | none => rfl
  | some hlike =>
    cases hlike
    cases p <;> rfl

theorem markSucceeded (h : b.Like same b') (fqn : String) (p : Phase) (digest : String)
    {snapshot snapshot' : Option Value} (hs : Option.Rel same snapshot snapshot')
    (outputs : Option Entries) : (b.markSucceeded fqn p digest snapshot outputs).Like same
      (b'.markSucceeded fqn p digest snapshot' outputs) := by
  have hrecord : ((b.record? fqn).getD {}).Like same ((b'.record? fqn).getD {}) := by
    have hr := h.record? fqn
    generalize b.record? fqn = r at hr
    generalize b'.record? fqn = r' at hr
    cases hr with
    | none => exact .intro {} .none
    | some hlike => exact hlike
  have hset := hrecord.succeed p digest hs outputs
  rw [Buildstate.markSucceeded, Buildstate.markSucceeded]
  cases h with
  | intro hunits => exact .intro _ (hunits.set fqn hset)

theorem markFailed (h : b.Like same b') (fqn : String) (p : Phase) :
    (b.markFailed fqn p).Like same (b'.markFailed fqn p) := by
  have hr := h.record? fqn
  rw [Buildstate.markFailed, Buildstate.markFailed]
  generalize b.record? fqn = r at hr
  generalize b'.record? fqn = r' at hr
  cases hr with
  | none => exact h
  | some hlike =>
    cases h with
    | intro hunits => exact .intro _ (hunits.set fqn (hlike.fail p))

end Buildstate.Like

/-! ### Runs in step -/

/-- What a run does next leads on; at its end, to the state itself. -/
def RunState.onward (c : Setup) (s : RunState) : Except Halt RunState :=
  match s.next c with
  | .consider x => { s with promoted := s.promoted.tail }.consider c x
  | .start item => { s with ready := s.ready.tail }.start c item
  | .wait => s.wait c
  | .finish => .ok s

/-- A step that is an attempt is followed by the other steps if the attempt succeeds. -/
theorem RunState.run_of_attempt {c : Setup} {s : RunState} {attempt : Except Halt RunState}
    (h : s.step c = Next.of attempt) (fuel : Nat) :
    s.run c (fuel + 1) = attempt.bind (RunState.run c fuel) := by
  rw [run, h]
  cases attempt <;> rfl

theorem RunState.run_succ (c : Setup) (fuel : Nat) (s : RunState) :
    s.run c (fuel + 1) = (s.onward c).bind (RunState.run c fuel) := by
  have hstep := step_eq c s
  rw [onward]
  cases hn : s.next c with
  | consider x =>
    rw [hn] at hstep
    exact run_of_attempt hstep fuel
  | start item =>
    rw [hn] at hstep
    exact run_of_attempt hstep fuel
  | wait =>
    rw [hn] at hstep
    exact run_of_attempt hstep fuel
  | finish =>
    rw [hn] at hstep
    -- without more to do, any number of further steps leads nowhere
    have hfinal (k : Nat) : s.run c (k + 1) = .ok s := by
      rw [run, hstep]
      rfl
    cases fuel with
    | zero => exact hfinal 0
    | succ fuel => exact (hfinal (fuel + 1)).trans (hfinal fuel).symm

/-- The calls of a pair return together, with the same answer; those of a deployment have left
related configurations. -/
inductive Call.Like (same : Value → Value → Prop) : Call → Call → Prop
  | intro (call : Call) {reply : Reply} (ha : call.reply.answer = reply.answer)
      (hl : call.pair.phase = .deploy → same call.reply.left reply.left) :
      Like same call { call with reply := reply }

/-- Two states are the same but for the files, the snapshots and what open calls have left. -/
inductive RunState.Mirrors (same : Value → Value → Prop) : RunState → RunState → Prop
  | intro (s : RunState) {calls : List Call} {b : Buildstate} {files : Files} {journal : List Entry}
      (hcalls : List.Forall₂ (Call.Like same) s.calls calls) (hb : s.buildstate.Like same b)
      (hj : s.journal.map Entry.progress = journal.map Entry.progress) :
      Mirrors same s { s with calls := calls, buildstate := b, files := files, journal := journal }

/-- Two attempts lead to states that mirror each other, or halt there for the same reason; with a
store that keeps files, a save may also fail in one of them alone. -/
inductive Parallel (same : Value → Value → Prop) (store : Store) :
    Except Halt RunState → Except Halt RunState → Prop
  | on {s t : RunState} (h : s.Mirrors same t) : Parallel same store (.ok s) (.ok t)
  | halt {fault : RunFault} {s t : RunState} (h : s.Mirrors same t) :
      Parallel same store (.error ⟨fault, s⟩) (.error ⟨fault, t⟩)
  | lost (hroot : store.root ≠ none) (fault : StoreFault) (s : RunState)
      (attempt : Except Halt RunState) : Parallel same store (.error ⟨.store fault, s⟩) attempt
  | lost' (hroot : store.root ≠ none) (fault : StoreFault) (t : RunState)
      (attempt : Except Halt RunState) : Parallel same store attempt (.error ⟨.store fault, t⟩)

namespace Parallel

variable {store : Store} {x x' : Except Halt RunState}

theorem map (h : Parallel same store x x') {f : RunState → RunState}
    (hf : ∀ s t, RunState.Mirrors same s t → (f s).Mirrors same (f t)) :
    Parallel same store (x.map f) (x'.map f) := by
  cases h with
  | on h => exact .on (hf _ _ h)
  | halt h => exact .halt h
  | lost hroot => exact .lost hroot _ _ _
  | lost' hroot => exact .lost' hroot _ _ _

theorem bind (h : Parallel same store x x') {f f' : RunState → Except Halt RunState}
    (hf : ∀ s t, RunState.Mirrors same s t → Parallel same store (f s) (f' t)) :
    Parallel same store (x.bind f) (x'.bind f') := by
  cases h with
  | on h => exact hf _ _ h
  | halt h => exact .halt h
  | lost hroot => exact .lost hroot _ _ _
  | lost' hroot => exact .lost' hroot _ _ _

end Parallel

namespace RunState.Mirrors

variable {c : Setup} {s t : RunState} {p : Pair}

theorem report (h : s.Mirrors same t) (progress : Progress) :
    (s.report progress).Mirrors same (t.report progress) := by
  cases h with
  | intro hcalls hb hj =>
    exact .intro (s.report progress) hcalls hb (by rw [RunState.report]; simp [hj])

theorem amend (h : s.Mirrors same t) (p : Pair) (f : Outcome → Outcome) :
    (s.amend p f).Mirrors same (t.amend p f) := by
  cases h with
  | intro hcalls hb hj => exact .intro (s.amend p f) hcalls hb hj

theorem settle (h : s.Mirrors same t) (plan : Plan) (p : Pair) :
    (s.settle plan p).Mirrors same (t.settle plan p) := by
  cases h with
  | intro hcalls hb hj => exact .intro (s.settle plan p) hcalls hb hj

theorem skip (h : s.Mirrors same t) (p blocker : Pair) :
    (s.skip p blocker).Mirrors same (t.skip p blocker) :=
  (h.amend p _).report _

theorem fail (h : s.Mirrors same t) (p : Pair) (cause : String) (ms : Rat) (timedOut : Bool) :
    (s.fail p cause ms timedOut).Mirrors same (t.fail p cause ms timedOut) := by
  have hmarked : { s with buildstate := s.buildstate.markFailed p.fqn p.phase }.Mirrors same
      { t with buildstate := t.buildstate.markFailed p.fqn p.phase } := by
    cases h with
    | intro hcalls hb hj => exact .intro _ hcalls (hb.markFailed p.fqn p.phase) hj
  exact (hmarked.amend p _).report _

theorem recordOutputs (h : s.Mirrors same t) (store : Store) (fqn : String) (outputs : Entries) :
    Parallel same store (s.recordOutputs fqn outputs) (t.recordOutputs fqn outputs) := by
  have hresolver : t.resolver = s.resolver := by cases h; rfl
  have hwith (resolver : Resolver) : { s with resolver := resolver }.Mirrors same
      { t with resolver := resolver } := by
    cases h with
    | intro hcalls hb hj => exact .intro _ hcalls hb hj
  unfold RunState.recordOutputs
  rw [hresolver]
  cases s.resolver.record fqn outputs with
  | error fault => exact .halt h
  | ok resolver =>
    dsimp only
    cases sortedKeys outputs with
    | error fault => exact .halt (hwith resolver)
    | ok keys => exact .on ((hwith resolver).report _)

theorem reuse (h : s.Mirrors same t) (store : Store) (p : Pair) (digest : String) :
    Parallel same store (s.reuse p digest) (t.reuse p digest) := by
  have houtputs : ((s.buildstate.record? p.fqn).getD {}).outputs =
      ((t.buildstate.record? p.fqn).getD {}).outputs := by
    cases h with
    | intro hcalls hb hj =>
      have hr := hb.record? p.fqn
      generalize s.buildstate.record? p.fqn = r at hr
      generalize Buildstate.record? _ p.fqn = r' at hr
      cases hr with
      | none => rfl
      | some hlike => cases hlike; rfl
  have hconfirmed : (s.confirm p digest).Mirrors same (t.confirm p digest) :=
    (h.amend p _).report (.reused p digest)
  rw [reuse_eq, reuse_eq, houtputs]
  by_cases hd : p.phase = .deploy
  · rw [if_pos hd, if_pos hd]
    exact hconfirmed.recordOutputs store p.fqn _
  · rw [if_neg hd, if_neg hd]
    exact .on hconfirmed

/-- A fingerprint does not depend on snapshots. -/
theorem fingerprinted (h : s.Mirrors same t) (p : Pair) (u : UnitDef)
    (resolved : Option Resolved) :
    t.fingerprinted c p u resolved = s.fingerprinted c p u resolved := by
  have hbuild : t.buildDigest? p.fqn = s.buildDigest? p.fqn := by
    cases h with
    | intro hcalls hb hj =>
      have hr := hb.record? p.fqn
      simp only [buildDigest?]
      generalize s.buildstate.record? p.fqn = r at hr
      generalize Buildstate.record? _ p.fqn = r' at hr
      cases hr with
      | none => rfl
      | some hlike => cases hlike; rfl
  have hfingerprints : t.fingerprints = s.fingerprints := by cases h; rfl
  simp only [RunState.fingerprinted, hbuild, hfingerprints]

theorem compare (h : s.Mirrors same t) (store : Store) (p : Pair) (n : Node)
    (resolved : Option Resolved) :
    Parallel same store (s.compare c p n resolved) (t.compare c p n resolved) := by
  unfold RunState.compare
  rw [h.fingerprinted]
  cases Digest.fingerprint (s.fingerprinted c p n.unit resolved) with
  | error fault => exact .halt h
  | ok digest =>
    have hnoted : (s.note p digest).Mirrors same (t.note p digest) := by
      cases h with
      | intro hcalls hb hj => exact .intro (s.note p digest) hcalls hb hj
    have hcurrent : t.buildstate.isCurrent p.fqn p.phase digest =
        s.buildstate.isCurrent p.fqn p.phase digest := by
      cases h with
      | intro hcalls hb hj => exact (hb.isCurrent p.fqn p.phase digest).symm
    change Parallel same store
      (if (!(c.forced p.phase).contains p.fqn && s.buildstate.isCurrent p.fqn p.phase digest) = true
        then ((s.note p digest).reuse p digest).map (RunState.settle c.plan p)
        else .ok ((s.note p digest).enqueue ⟨p, n.index, resolved⟩))
      (if (!(c.forced p.phase).contains p.fqn && t.buildstate.isCurrent p.fqn p.phase digest) = true
        then ((t.note p digest).reuse p digest).map (RunState.settle c.plan p)
        else .ok ((t.note p digest).enqueue ⟨p, n.index, resolved⟩))
    rw [hcurrent]
    split
    · exact (hnoted.reuse store p digest).map fun _ _ h => h.settle c.plan p
    · generalize s.note p digest = s' at hnoted
      generalize t.note p digest = t' at hnoted
      cases hnoted with
      | intro hcalls hb hj => exact .on (.intro (s'.enqueue ⟨p, n.index, resolved⟩) hcalls hb hj)

theorem consider (h : s.Mirrors same t) (store : Store) (p : Pair) :
    Parallel same store (s.consider c p) (t.consider c p) := by
  have hblocker : t.blocker? c p = s.blocker? c p := by cases h; rfl
  have hresolver : t.resolver = s.resolver := by cases h; rfl
  unfold RunState.consider
  rw [hblocker, hresolver]
  cases s.blocker? c p with
  | some b => exact .on ((h.skip p b).settle c.plan p)
  | none =>
    cases c.graph.node? p.fqn with
    | none => exact .halt h
    | some n =>
      dsimp only
      split
      · cases s.resolver.resolve p.fqn with
        | ok resolved => exact h.compare store p n (some resolved)
        | error fault =>
          cases fault with
          | missingOutput => exact .on ((h.fail p _ 0 false).settle c.plan p)
          | _ => exact .halt h
      · exact h.compare store p n none

/-- Saving a success leads to states that mirror each other if the snapshots are alike, and both
saves succeed. -/
theorem saveSuccess (h : s.Mirrors same t) (p : Pair) (task : Task)
    {snapshot snapshot' : Option Value} (hs : Option.Rel same snapshot snapshot')
    (outputs : Option Entries) (ms : Rat) :
    Parallel same c.store (Rollout.saveSuccess c p task snapshot outputs ms s)
      (Rollout.saveSuccess c p task snapshot' outputs ms t) := by
  have hroot {b : Buildstate} {files : Files} {fault : StoreFault}
      (hp : (c.store.save c.graph.stackName b files).path = .error fault) :
      c.store.root ≠ none := by
    intro hnone
    simp [Store.save, Store.saveBy, Store.folder?, hnone] at hp
  have hstate : (c.store.save c.graph.stackName
        (s.buildstate.markSucceeded p.fqn p.phase task.fingerprint snapshot outputs)
        s.files).state.Like same
      (c.store.save c.graph.stackName
        (t.buildstate.markSucceeded p.fqn p.phase task.fingerprint snapshot' outputs)
        t.files).state := by
    have hmarked : (s.buildstate.markSucceeded p.fqn p.phase task.fingerprint snapshot
        outputs).Like same (t.buildstate.markSucceeded p.fqn p.phase task.fingerprint snapshot'
          outputs) := by
      cases h with
      | intro hcalls hb hj => exact hb.markSucceeded p.fqn p.phase task.fingerprint hs outputs
    rw [Store.save_state, Store.save_state]
    generalize s.buildstate.markSucceeded p.fqn p.phase task.fingerprint snapshot outputs = b
      at hmarked
    generalize t.buildstate.markSucceeded p.fqn p.phase task.fingerprint snapshot' outputs = b'
      at hmarked
    cases hmarked with
    | intro hunits => exact .intro { b with stack := _, updatedAt := _ } hunits
  unfold Rollout.saveSuccess
  dsimp only
  split
  · rename_i fault hp
    exact .lost (hroot hp) fault _ _
  · split
    · rename_i fault hp
      exact .lost' (hroot hp) fault _ _
    · refine .on ?_
      unfold conclude
      dsimp only
      refine (RunState.Mirrors.amend ?_ p _).report _
      cases h with
      | intro hcalls hb hj => exact .intro _ hcalls hstate hj

theorem succeed (h : s.Mirrors same t) (p : Pair) (task : Task) {call call' : Call}
    (hcall : call.Like same call') (hp : call.pair = p) (outputs : Option Entries) :
    Parallel same c.store (s.succeed c p task call outputs)
      (t.succeed c p task call' outputs) := by
  cases hcall with
  | intro ha hl =>
    rw [succeed_eq, succeed_eq]
    by_cases hd : p.phase = .deploy
    · rw [if_pos hd, if_pos hd]
      refine (h.recordOutputs c.store p.fqn _).bind fun s' t' h' => ?_
      exact h'.saveSuccess p task (.some (hl (hp ▸ hd))) _ _
    · rw [if_neg hd, if_neg hd]
      exact h.saveSuccess p task .none none _

theorem deliver (h : s.Mirrors same t) {call call' : Call} (hcall : call.Like same call') :
    Parallel same c.store (s.deliver c call) (t.deliver c call') := by
  have hpair : call'.pair = call.pair := by cases hcall; rfl
  have hms : (call'.due - call'.started) * 1000 = (call.due - call.started) * 1000 := by
    cases hcall; rfl
  have hanswer : call'.reply.answer = call.reply.answer := by
    cases hcall with
    | intro ha hl => exact ha.symm
  have habandoned : t.abandoned = s.abandoned := by cases h; rfl
  have hrunning : t.running = s.running := by cases h; rfl
  have hwith (running : Table Pair Task) (abandoned : List Pair) :
      { s with running := running, abandoned := abandoned }.Mirrors same
        { t with running := running, abandoned := abandoned } := by
    cases h with
    | intro hcalls hb hj => exact .intro _ hcalls hb hj
  unfold RunState.deliver
  rw [hpair, habandoned, hrunning, hanswer, hms]
  split
  · exact .on (hwith s.running (s.abandoned.erase call.pair))
  · cases Table.get? call.pair s.running with
    | none => exact .on h
    | some task =>
      have hreleased := hwith (Table.erase call.pair s.running) s.abandoned
      dsimp only
      cases call.reply.answer.result with
      | ok outputs =>
        exact (hreleased.succeed call.pair task hcall rfl outputs).map
          fun _ _ h => h.settle c.plan call.pair
      | error cause => exact .on ((hreleased.fail call.pair cause _ false).settle c.plan call.pair)

theorem expireOne (h : s.Mirrors same t) (e : Pair × Task) :
    (Rollout.expireOne c s e).Mirrors same (Rollout.expireOne c t e) := by
  have hnow : t.now = s.now := by cases h; rfl
  have hgiven : (s.giveUp e.1).Mirrors same (t.giveUp e.1) := by
    cases h with
    | intro hcalls hb hj => exact .intro (s.giveUp e.1) hcalls hb hj
  unfold Rollout.expireOne
  rw [hnow]
  split
  · exact h
  · split
    · exact (hgiven.fail e.1 _ _ true).settle c.plan e.1
    · exact h

theorem expire (h : s.Mirrors same t) : (s.expire c).Mirrors same (t.expire c) := by
  have hfold (todo : Table Pair Task) {s t : RunState} (h : s.Mirrors same t) :
      (todo.foldl (Rollout.expireOne c) s).Mirrors same
        (todo.foldl (Rollout.expireOne c) t) := by
    induction todo generalizing s t with
    | nil => exact h
    | cons e rest ih => exact ih (h.expireOne e)
  have hrunning : t.running = s.running := by cases h; rfl
  rw [expire_eq, expire_eq, hrunning]
  exact hfold s.running h

/-- The first of related calls are related: they are due at the same moments. -/
theorem firstCall? {calls calls' : List Call} (h : List.Forall₂ (Call.Like same) calls calls') :
    Option.Rel (Call.Like same) (RunState.firstCall? calls) (RunState.firstCall? calls') := by
  rw [firstCall?_eq, firstCall?_eq]
  have hfold {best best' : Option Call} (hbest : Option.Rel (Call.Like same) best best') :
      Option.Rel (Call.Like same) (calls.foldl sooner best) (calls'.foldl sooner best') := by
    induction h generalizing best best' with
    | nil => exact hbest
    | @cons call call' rest rest' hcall _ ih =>
      refine ih ?_
      cases hbest with
      | none => exact .some hcall
      | @some b b' hb =>
        have hdue : call'.due = call.due := by cases hcall; rfl
        have hdue' : b'.due = b.due := by cases hb; rfl
        rw [sooner, sooner, hdue, hdue']
        split
        · exact .some hcall
        · exact .some hb
  exact hfold .none

theorem wait (h : s.Mirrors same t) : Parallel same c.store (s.wait c) (t.wait c) := by
  have hcalls : List.Forall₂ (Call.Like same) s.calls t.calls := by
    cases h with
    | intro hcalls => exact hcalls
  have hnow : t.now = s.now := by cases h; rfl
  have hlimit : t.limit? = s.limit? := by cases h; rfl
  have htick (now : Rat) : { s with now := now }.Mirrors same { t with now := now } := by
    cases h with
    | intro hcalls hb hj => exact .intro { s with now := now } hcalls hb hj
  have hfirst := firstCall? hcalls
  unfold RunState.wait
  rw [hnow, hlimit]
  generalize RunState.firstCall? s.calls = first at hfirst
  generalize RunState.firstCall? t.calls = first' at hfirst
  cases hfirst with
  | none => exact .on (htick _).expire
  | @some call call' hcall =>
    have hdue : call'.due = call.due := by cases hcall; rfl
    have hpair : call'.pair = call.pair := by cases hcall; rfl
    dsimp only
    rw [hdue, hpair]
    split
    · have htaken : { s with
          now := later s.now call.due
          calls := s.calls.filter fun other => other.pair != call.pair }.Mirrors same { t with
          now := later s.now call.due
          calls := t.calls.filter fun other => other.pair != call.pair } := by
        have hleft := List.rel_filter
          (p := fun other : Call => other.pair != call.pair)
          (q := fun other : Call => other.pair != call.pair)
          (fun other other' hlike => by cases hlike; rfl) hcalls
        cases h with
        | intro _ hb hj => exact .intro { s with now := _, calls := _ } hleft hb hj
      exact (htaken.deliver hcall).map fun _ _ h => h.expire
    · exact .on (htick _).expire

/-- After two calls with agreeing replies the states mirror each other. -/
theorem launch (h : s.Mirrors same t) (item : Ready) (timeout : Value)
    {work work' : UnitContext → Files → Reply} {ctx : UnitContext}
    (hreply : (work ctx s.files).answer = (work' ctx t.files).answer ∧
      (work ctx s.files).seconds = (work' ctx t.files).seconds ∧
      (item.pair.phase = .deploy → same (work ctx s.files).left (work' ctx t.files).left)) :
    (s.launch item timeout work ctx).Mirrors same (t.launch item timeout work' ctx) := by
  obtain ⟨ha, hseconds, hl⟩ := hreply
  have hcall : Call.Like same
      ⟨item.pair, s.now, s.now + (work ctx s.files).seconds, work ctx s.files⟩
      ⟨item.pair, s.now, s.now + (work' ctx t.files).seconds, work' ctx t.files⟩ := by
    rw [← hseconds]
    exact .intro ⟨item.pair, s.now, s.now + (work ctx s.files).seconds, work ctx s.files⟩ ha hl
  cases h with
  | intro hcalls hb hj =>
    exact .intro (s.launch item timeout work ctx) (List.rel_append hcalls (.cons hcall .nil)) hb
      (by rw [RunState.launch]; simp [RunState.report, RunState.amend, hj])

/-- Starting a pair hands the same context to both executors. -/
theorem start (h : s.Mirrors same t) {executors : Executors}
    (he : c.executors.Agree same executors) (item : Ready) :
    Parallel same c.store (s.start c item) (t.start (c.equip executors) item) := by
  have hexecutor := he item.pair.phase
  cases hn : c.graph.node? item.pair.fqn with
  | none =>
    have hn' : (c.equip executors).graph.node? item.pair.fqn = none := hn
    simp only [RunState.start, hn, hn']
    exact .halt h
  | some n =>
    have hn' : (c.equip executors).graph.node? item.pair.fqn = some n := hn
    have hx' : Table.get? item.pair.phase (c.equip executors).executors =
      Table.get? item.pair.phase executors := rfl
    simp only [RunState.start, hn, hn', hx']
    generalize Table.get? item.pair.phase c.executors = e at hexecutor
    generalize Table.get? item.pair.phase executors = e' at hexecutor
    cases hexecutor with
    | none => exact .halt h
    | @some e e' hagrees =>
      obtain ⟨timeout, run⟩ := e
      obtain ⟨timeout', run'⟩ := e'
      obtain rfl : timeout = timeout' := hagrees.timeout
      cases run with
      | none =>
        obtain rfl : run' = none := Option.isNone_iff_eq_none.mp hagrees.runs.symm
        exact .halt h
      | some work =>
        obtain ⟨work', rfl⟩ : ∃ work', run' = some work' := by
          refine Option.ne_none_iff_exists'.mp fun hnone => ?_
          have hruns := hagrees.runs
          rw [hnone] at hruns
          cases hruns
        have hctx : context (c.equip executors) item.pair n.unit item.resolved =
          context c item.pair n.unit item.resolved := rfl
        dsimp only
        rw [hctx]
        cases context c item.pair n.unit item.resolved with
        | error fault => exact .halt h
        | ok ctx =>
          exact .on (h.launch item timeout
            (hagrees.replies work rfl work' rfl ctx s.files t.files))

/-- **Runs with agreeing executors go on in step**: in states that mirror each other the same is
next, and leads to states that mirror each other. -/
theorem onward (h : s.Mirrors same t) {executors : Executors}
    (he : c.executors.Agree same executors) :
    Parallel same c.store (s.onward c) (t.onward (c.equip executors)) := by
  have hnext : t.next (c.equip executors) = s.next c := by cases h; rfl
  have hpromoted : t.promoted = s.promoted := by cases h; rfl
  have hready : t.ready = s.ready := by cases h; rfl
  have hwith (promoted : List Pair) (ready : List Ready) :
      { s with promoted := promoted, ready := ready }.Mirrors same
        { t with promoted := promoted, ready := ready } := by
    cases h with
    | intro hcalls hb hj => exact .intro { s with promoted := _, ready := _ } hcalls hb hj
  rw [RunState.onward, RunState.onward, hnext, hpromoted, hready]
  cases s.next c with
  | consider x => exact (hwith s.promoted.tail s.ready).consider c.store x
  | start item => exact (hwith s.promoted s.ready.tail).start he item
  | wait => exact h.wait
  | finish => exact .on h

theorem run (h : s.Mirrors same t) {executors : Executors}
    (he : c.executors.Agree same executors) (fuel : Nat) :
    Parallel same c.store (s.run c fuel) (t.run (c.equip executors) fuel) := by
  induction fuel generalizing s t with
  | zero => exact .on h
  | succ fuel ih =>
    rw [run_succ, run_succ]
    exact (h.onward he).bind fun _ _ h => ih h

end RunState.Mirrors

/-! ### Whole runs -/

/-- The context of a deployment has the resolved configuration. -/
theorem RunState.inputs_of_context {c : Setup} {p : Pair} {u : UnitDef} {resolved : Resolved}
    {ctx : UnitContext} (h : context c p u (some resolved) = .ok ctx) :
    ctx.inputs = resolved.inputs ∧ ctx.values = resolved.values := by
  obtain ⟨steps, -, rfl⟩ := eq_ok_of_map h
  exact ⟨rfl, rfl⟩

/-- The scheduler with other executors. -/
def Scheduler.equip (s : Scheduler) (executors : Executors) : Scheduler :=
  { s with executors := executors }

/-- Two runs have reported the same, have handed out the same contexts and have left the same
schedulers, but for the snapshots, which are related. -/
structure RunResult.Like (same : Value → Value → Prop) (r r' : RunResult) : Prop where
  report : r.report = r'.report
  told : r.journal.map Entry.progress = r'.journal.map Entry.progress
  contexts : r.contexts = r'.contexts
  scheduler : r'.scheduler = { r.scheduler with
    executors := r'.scheduler.executors
    buildstate := r'.scheduler.buildstate }
  state : r.scheduler.buildstate.Like same r'.scheduler.buildstate
  elapsed : r.elapsedMs = r'.elapsedMs

theorem Executors.Agree.checkExecutors {executors executors' : Executors}
    (h : executors.Agree same executors') (g : Graph) (phases : List Phase) :
    checkExecutors executors g phases = checkExecutors executors' g phases := by
  refine checkExecutors_congr (fun p => ?_) g phases
  have hp := h p
  generalize Table.get? p executors = e at hp
  generalize Table.get? p executors' = e' at hp
  cases hp with
  | some he => exact .some ⟨he.timeout, he.runs⟩
  | none => exact .none

namespace Scheduler

variable {s : Scheduler} {executors : Executors} {phases : List Phase} {files : Files}

/-- Runs with agreeing executors have the same results but for the snapshots, unless a save fails in
one of them. -/
theorem run_like (hrefl : ∀ v, same v v) (he : s.executors.Agree same executors)
    (phases : List Phase) (files : Files) :
    (s.run phases files).Like same ((s.equip executors).run phases files) ∨
      s.store.root ≠ none ∧ ((∃ f, (s.run phases files).report = .error (.store f)) ∨
        ∃ f, ((s.equip executors).run phases files).report = .error (.store f)) := by
  have hcheck' := he.checkExecutors s.graph (requestedPhases phases)
  cases hcheck : checkExecutors s.executors s.graph (requestedPhases phases) with
  | error fault =>
    rw [hcheck] at hcheck'
    refine Or.inl ?_
    simp only [run, equip, hcheck, ← hcheck']
    exact ⟨rfl, rfl, rfl, rfl, .refl hrefl _, rfl⟩
  | ok _ =>
    rw [hcheck] at hcheck'
    cases hplan : s.graph.plan (requestedPhases phases) with
    | error fault =>
      refine Or.inl ?_
      simp only [run, equip, hcheck, ← hcheck', hplan]
      exact ⟨rfl, rfl, rfl, rfl, .refl hrefl _, rfl⟩
    | ok plan =>
      have hstart : (s.initial plan (requestedPhases phases) files).Mirrors same
          (s.initial plan (requestedPhases phases) files) :=
        .intro (s.initial plan (requestedPhases phases) files) .nil (.refl hrefl _) rfl
      have hsteps := hstart.run (c := s.setup plan) he (stepLimit plan)
      have hrun := run_eq_carryOut hcheck hplan files
      have hrun' : (s.equip executors).run phases files = (s.equip executors).carryOut plan
          (requestedPhases phases) (s.initial plan (requestedPhases phases) files) :=
        run_eq_carryOut (s := s.equip executors) hcheck'.symm hplan files
      have hsetup : (s.equip executors).setup plan = (s.setup plan).equip executors := rfl
      rw [hrun, hrun', carryOut, carryOut, hsetup]
      generalize RunState.run (s.setup plan) (stepLimit plan) _ = attempt at hsteps
      generalize RunState.run ((s.setup plan).equip executors) (stepLimit plan) _ = attempt'
        at hsteps
      cases hsteps with
      | on h =>
        refine Or.inl ?_
        cases h with
        | intro hcalls hb hj =>
          exact ⟨rfl, by simp [RunState.report, hj, reportOf, equip], rfl, rfl, hb,
          rfl⟩
      | halt h =>
        refine Or.inl ?_
        cases h with
        | intro hcalls hb hj => exact ⟨rfl, hj, rfl, rfl, hb, rfl⟩
      | lost hroot fault => exact Or.inr ⟨hroot, Or.inl ⟨fault, rfl⟩⟩
      | lost' hroot fault => exact Or.inr ⟨hroot, Or.inr ⟨fault, rfl⟩⟩

/-- A unit has been deployed by a call of its executor: the context that the executor was handed has
the resolved configuration, and what the executor left of it is the snapshot in the record. -/
structure Deploys (s : Scheduler) (phases : List Phase) (files : Files) (fqn : String)
    (resolved : Resolved) (left : Value) : Prop where
  resolves : (s.run phases files).scheduler.resolver.resolve fqn = .ok resolved
  leaves : ∃ ctx ∈ (s.run phases files).contexts, ctx.pair = ⟨fqn, .deploy⟩ ∧
    ctx.inputs = resolved.inputs ∧ ctx.values = resolved.values ∧
    ∃ timeout work seen, Table.get? .deploy s.executors = some ⟨timeout, some work⟩ ∧
      left = (work ctx seen).left
  keeps : ∃ r, (s.run phases files).scheduler.buildstate.record? fqn = some r ∧
    r.snapshot = some left

/-- **The snapshot of a deployed unit** is what its executor left of the resolved configuration. -/
theorem snapshot_of_deployed (hs : s.Sound) {report : Report}
    (hr : (s.run phases files).report = .ok report) {fqn : String} {o : Outcome}
    (ho : Table.get? (⟨fqn, .deploy⟩ : Pair) report.pairs = some o) (hok : o.status = .succeeded)
    (hnew : o.reused = false) : ∃ resolved left, s.Deploys phases files fqn resolved left := by
  obtain ⟨plan, n, last, A, hcarries, hrun, rfl, hall⟩ := s.report_spec hs hr
  have hshown := hcarries.tied.shown
  obtain ⟨-, hout⟩ := hshown.untimed_of_get? ho
  have hstatus : o.status = (A ⟨fqn, .deploy⟩).outcome.status := by
    rw [← hout]
    rfl
  have hreused : o.reused = (A ⟨fqn, .deploy⟩).outcome.reused := by
    rw [← hout]
    rfl
  rw [hok] at hstatus
  rw [hnew] at hreused
  have hfit := (hcarries.tied.fit ⟨fqn, .deploy⟩).fits hcarries.built
  have hrecord := hshown.record fqn
  have hcalled := hshown.called
  cases hA : A ⟨fqn, .deploy⟩ with
  | succeeded digest ctx snapshot outputs =>
    rw [hA] at hfit
    obtain ⟨⟨resolved, n, hv, -, hctx⟩, reply, given, ⟨timeout, work, seen, he, rfl, -⟩, -, hg⟩ :=
      hfit
    obtain ⟨r, hresolve, rfl⟩ : ∃ r, last.resolver.resolve fqn = .ok r ∧ some r = resolved := by
      have hfilled := (examined_of_ready hv).1.filled
      rw [resolvedFor, if_pos rfl] at hfilled
      exact eq_ok_of_map hfilled
    obtain ⟨hinputs, hvalues⟩ := inputs_of_context hctx
    have hpair := Tied.context_pair hctx
    obtain rfl : some (work ctx seen).left = snapshot := by
      rw [gain, if_pos rfl] at hg
      obtain ⟨keys, -, hsame⟩ := eq_ok_of_map hg
      exact (Prod.mk.inj hsame).1
    have hresolver : (s.run phases files).scheduler.resolver = last.resolver := by rw [hrun]; rfl
    have hcontexts : (s.run phases files).contexts = last.contexts := by rw [hrun]; rfl
    have hstate : (s.run phases files).scheduler.buildstate = last.buildstate := by rw [hrun]; rfl
    have hmem : ctx ∈ last.contexts := by
      refine (hcalled ctx).mpr ?_
      rw [hpair, hA]
      rfl
    obtain ⟨record, hkept⟩ := A.exists_record?_of_deployed
      (s.initial plan (requestedPhases phases) files).buildstate hA
    exact ⟨r, (work ctx seen).left, by rw [hresolver]; exact hresolve,
      ⟨ctx, by rw [hcontexts]; exact hmem, hpair, hinputs, hvalues, timeout, work, seen, he, rfl⟩,
      _, by rw [hstate]; exact hrecord.trans hkept, rfl⟩
  | reused digest outputs =>
    rw [hA] at hreused
    cases hreused
  | _ =>
    rw [hA] at hstatus
    cases hstatus

theorem graph_run (s : Scheduler) (phases : List Phase) (files : Files) :
    (s.run phases files).scheduler.graph = s.graph := by
  unfold run
  dsimp only
  split
  · rfl
  · split
    · rfl
    · unfold carryOut
      split <;> rfl

end Scheduler

/-- Deployments leave their contexts as they were handed out. -/
def Executors.Respect (executors : Executors) : Prop :=
  ∀ timeout work, Table.get? .deploy executors = some ⟨timeout, some work⟩ →
    ∀ ctx files, (work ctx files).inputs = ctx.inputs ∧ (work ctx files).values = ctx.values

/-- **Tampering reaches the snapshots only.** Two runs differ in their executors, which give the
same answers after the same time, but may leave anything of the contexts that they are handed. Then,
unless a save fails, both runs report the same events and the same outcomes, hand out the same
contexts, and leave the same state of knowledge but for the snapshots. These are related in every
way in which what the executors of deployments leave is related; if that is the same, all is the
same. The units of the graph are never touched. The snapshot of a deployed unit is what its executor
left of the resolved configuration, so it is that configuration if the executor respects it. -/
theorem tampering_confined {s : Scheduler} {executors : Executors} (hs : s.Sound)
    (hrefl : ∀ v, same v v) (he : s.executors.Agree same executors) (phases : List Phase)
    (files : Files) :
    ((s.run phases files).Like same ((s.equip executors).run phases files) ∨
      s.store.root ≠ none ∧ ((∃ f, (s.run phases files).report = .error (.store f)) ∨
        ∃ f, ((s.equip executors).run phases files).report = .error (.store f))) ∧
    (s.run phases files).scheduler.graph = s.graph ∧
    ((s.equip executors).run phases files).scheduler.graph = s.graph ∧
    ∀ report, (s.run phases files).report = .ok report → ∀ fqn o,
      Table.get? (⟨fqn, .deploy⟩ : Pair) report.pairs = some o → o.status = .succeeded →
      o.reused = false → ∃ resolved left, s.Deploys phases files fqn resolved left ∧
        (s.executors.Respect → left = resolved.toValue) := by
  refine ⟨Scheduler.run_like hrefl he phases files, s.graph_run phases files,
    (s.equip executors).graph_run phases files, ?_⟩
  intro report hr fqn o ho hok hnew
  obtain ⟨resolved, left, hdeploys⟩ := Scheduler.snapshot_of_deployed hs hr ho hok hnew
  refine ⟨resolved, left, hdeploys, fun hrespect => ?_⟩
  obtain ⟨ctx, -, -, hinputs, hvalues, timeout, work, seen, hwork, rfl⟩ := hdeploys.leaves
  obtain ⟨hleft, hleft'⟩ := hrespect timeout work hwork ctx seen
  rw [Reply.left, hleft, hleft', hinputs, hvalues]
  rfl

namespace Shop

/-- A database with a configuration of its own. -/
def sized : UnitDef :=
  { database with inputs := [("size", .int 1)], values := [("port", .int 5432)] }

/-- The executors of the shop, but deployments write into the inputs of their contexts and clear the
values. -/
def tampering : Executors :=
  [(.init, executor .null 7 (.succeeded none)),
    (.deploy, ⟨.int 60, some fun _ files =>
      { answer := .succeeded (some [("address", .text "db:5432"), ("host", .text "db")])
        seconds := 7
        inputs := .object [("mutated", .bool true), ("size", .int 1)]
        values := .object []
        files := files }⟩)]

theorem ofStack_sized : Graph.ofStack (stack [sized]) = .ok (graph [sized]) := by rfl

theorem sound_sized : (scheduler [sized] 1 (executors 7)).Sound :=
  ⟨⟨_, ofStack_sized⟩, rfl, by decide⟩

/-- The executors agree, whatever those of deployments leave. -/
theorem agree_tampering : (executors 7).Agree (fun _ _ => True) tampering := by
  intro p
  cases p with
  | init =>
    refine .some ⟨rfl, rfl, ?_⟩
    rintro work ⟨⟩ work' ⟨⟩ ctx files files'
    exact ⟨rfl, rfl, fun _ => trivial⟩
  | build => exact .none
  | deploy =>
    refine .some ⟨rfl, rfl, ?_⟩
    rintro work ⟨⟩ work' ⟨⟩ ctx files files'
    exact ⟨rfl, rfl, fun _ => trivial⟩

end Shop

/-- In the shop tampering makes no other difference, and without it the snapshot of the database is
its resolved configuration. -/
theorem tampering_confined_shop :
    (Shop.scheduler [Shop.sized] 1 (Shop.executors 7)).Sound ∧
      (Shop.executors 7).Agree (fun _ _ => True) Shop.tampering ∧
      ((Shop.scheduler [Shop.sized] 1 (Shop.executors 7)).run [.deploy] []).Like (fun _ _ => True)
        (((Shop.scheduler [Shop.sized] 1 (Shop.executors 7)).equip Shop.tampering).run
          [.deploy] []) ∧
      ∃ resolved, (Shop.scheduler [Shop.sized] 1 (Shop.executors 7)).Deploys [.deploy] []
        "shop.service.db" resolved resolved.toValue := by
  have hreport : ((Shop.scheduler [Shop.sized] 1 (Shop.executors 7)).run [.deploy]
      []).report.toOption.any (fun report =>
        (Table.get? (⟨"shop.service.db", .deploy⟩ : Pair) report.pairs).any fun o =>
          o.status == .succeeded && o.reused == false) = true := by
    simp only [Scheduler.run, Scheduler.carryOut, RunState.run_eq]
    decide +kernel
  obtain ⟨hlike, -, -, hdeploys⟩ := tampering_confined Shop.sound_sized (fun _ => trivial)
    Shop.agree_tampering [.deploy] []
  refine ⟨Shop.sound_sized, Shop.agree_tampering,
    hlike.resolve_right fun h => h.1 rfl, ?_⟩
  obtain ⟨report, hr, hsome⟩ := exists_of_any hreport
  obtain ⟨o, ho, hout⟩ := (Option.any_eq_true _ _).mp hsome
  obtain ⟨hok, hnew⟩ := (Bool.and_eq_true _ _).mp hout
  obtain ⟨resolved, left, hdeploys, hleft⟩ :=
    hdeploys report hr "shop.service.db" o ho (eq_of_beq hok) (eq_of_beq hnew)
  have hrespect : (Shop.executors 7).Respect := by
    rintro timeout work ⟨⟩ ctx files
    exact ⟨rfl, rfl⟩
  rw [hleft hrespect] at hdeploys
  exact ⟨resolved, hdeploys⟩

/-- Executors that differ only in what they leave of their contexts can lead to different states of
knowledge: the snapshot is then not the configuration that has been resolved. -/
theorem tampered_snapshot :
    (Shop.executors 7).Agree (fun _ _ => True) Shop.tampering ∧
      ((Shop.scheduler [Shop.sized] 1 (Shop.executors 7)).run [.deploy] []).scheduler.buildstate ≠
        ((Shop.scheduler [Shop.sized] 1 Shop.tampering).run [.deploy] []).scheduler.buildstate ∧
      ∃ resolved r,
        ((Shop.scheduler [Shop.sized] 1 Shop.tampering).run [.deploy]
          []).scheduler.resolver.resolve "shop.service.db" = .ok resolved ∧
        ((Shop.scheduler [Shop.sized] 1 Shop.tampering).run [.deploy]
          []).scheduler.buildstate.record? "shop.service.db" = some r ∧
        resolved.toValue = .object [("inputs", .object [("size", .int 1)]),
          ("values", .object [("port", .int 5432)])] ∧
        r.snapshot = some (.object [("inputs", .object [("mutated", .bool true), ("size", .int 1)]),
          ("values", .object [])]) := by
  have hstates : ((Shop.scheduler [Shop.sized] 1 (Shop.executors 7)).run [.deploy]
      []).scheduler.buildstate ≠ ((Shop.scheduler [Shop.sized] 1 Shop.tampering).run [.deploy]
        []).scheduler.buildstate := by
    simp only [Scheduler.run, Scheduler.carryOut, RunState.run_eq]
    decide +kernel
  have hresolve : (((Shop.scheduler [Shop.sized] 1 Shop.tampering).run [.deploy]
      []).scheduler.resolver.resolve "shop.service.db").toOption.any (fun resolved =>
        decide (resolved.toValue = .object [("inputs", .object [("size", .int 1)]),
          ("values", .object [("port", .int 5432)])])) = true := by
    simp only [Scheduler.run, Scheduler.carryOut, RunState.run_eq]
    decide +kernel
  have hrecord : (((Shop.scheduler [Shop.sized] 1 Shop.tampering).run [.deploy]
      []).scheduler.buildstate.record? "shop.service.db").any (fun r => decide (r.snapshot =
        some (.object [("inputs", .object [("mutated", .bool true), ("size", .int 1)]),
          ("values", .object [])]))) = true := by
    simp only [Scheduler.run, Scheduler.carryOut, RunState.run_eq]
    decide +kernel
  obtain ⟨resolved, hresolved, hvalue⟩ := exists_of_any hresolve
  obtain ⟨r, hr, hsnapshot⟩ := (Option.any_eq_true _ _).mp hrecord
  exact ⟨Shop.agree_tampering, hstates, resolved, r, hresolved, hr, of_decide_eq_true hvalue,
    of_decide_eq_true hsnapshot⟩

end Rollout
