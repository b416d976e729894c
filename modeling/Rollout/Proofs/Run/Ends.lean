import Rollout.Proofs.Run.Faultless
import Rollout.Proofs.Run.Scheduled

/-!
# How runs end

A run over JSON data whose saves succeed comes to its end: no step halts, and each step leaves less
to be done. In the end every pair has taken one of five courses. Its executor was called once if the
pair was started, and never otherwise. What became of a settled pair stays as it is, even if an
executor returns after its time was up.

**Types.** `Outcome.Ended`, `Scheduler.Saves`.

**Results.**
* `Tied.ended`: the courses that settled pairs have taken;
* `Tied.called_iff`: executors are called for the pairs that have been started;
* `Tied.count_contexts`: how often the executor of a pair was called;
* `Steps.outcome_kept`: settled pairs keep their outcomes;
* `run_ends`: how every run over JSON data ends.
-/

namespace Rollout

open RunState

/-- The five courses that a pair can take to its end. -/
inductive Outcome.Ended (o : Outcome) : Prop
  | skipped (b : Pair) (status : o.status = .skipped) (history : o.history = [.pending, .skipped])
      (blocked : o.blockedBy = some b.text)
  | reused (status : o.status = .succeeded) (history : o.history = [.pending, .succeeded])
      (reused : o.reused = true)
  | missing (site : Site) (target : String) (available : List String) (status : o.status = .failed)
      (history : o.history = [.pending, .failed])
      (cause : o.cause =
        (ResolveFault.missingOutput site target available).failure?.map Failure.message)
  | succeeded (status : o.status = .succeeded)
      (history : o.history = [.pending, .ready, .running, .succeeded]) (fresh : o.reused = false)
  | failed (cause : String) (status : o.status = .failed)
      (history : o.history = [.pending, .ready, .running, .failed])
      (because : o.cause = some cause)

variable {c : Setup} {requested : List Phase} {base s s' t last : RunState} {A : Chart} {p : Pair}

/-! ### Courses -/

/-- **A settled pair** has taken one of the five courses. -/
theorem Tied.ended (hc : c.Sound requested) (hj : Tidy c base) (h : Tied c base A s)
    (hp : c.Planned p) (hs : (A p).settled = true) {o : Outcome}
    (ho : o.untimed = (A p).outcome) : o.Ended := by
  have hfit := (h.fit p).fits hc.built
  rw [Outcome.eq_of_untimed ho]
  cases hA : A p with
  | waiting =>
    rw [hA] at hs
    cases hs
  | ready digest resolved =>
    rw [hA] at hs
    cases hs
  | running digest ctx =>
    rw [hA] at hs
    cases hs
  | skipped b => exact .skipped b rfl rfl rfl
  | reused digest outputs => exact .reused rfl rfl rfl
  | succeeded digest ctx snapshot outputs => exact .succeeded rfl rfl rfl
  | failed digest ctx cause timedOut => exact .failed cause rfl rfl rfl
  | missing cause =>
    rw [hA] at hfit
    obtain ⟨st, hst, hmissing⟩ := hj.verdict_spec hc h hp
    rw [hfit.2, Except.ok.injEq] at hst
    obtain ⟨site, target, available, hcause⟩ := hmissing cause hst.symm
    exact .missing site target available rfl rfl hcause

/-- A pair that has a context has been started with it. -/
theorem Tied.fitted_of_context? (h : Tied c base A s) {ctx : UnitContext}
    (hctx : (A p).context? = some ctx) : ∃ digest, Fitted c base s p (.running digest ctx) := by
  obtain ⟨r, hlasts, hfit⟩ := h.fit p
  cases hA : A p with
  | running digest ctx' =>
    rw [hA] at hfit hctx
    obtain rfl := Option.some.inj hctx
    exact ⟨digest, r, hlasts, hfit⟩
  | succeeded digest ctx' snapshot outputs =>
    rw [hA] at hfit hctx
    obtain rfl := Option.some.inj hctx
    exact ⟨digest, r, hlasts, hfit.1⟩
  | failed digest ctx' cause timedOut =>
    rw [hA] at hfit hctx
    obtain rfl := Option.some.inj hctx
    cases timedOut with
    | false => exact ⟨digest, r, hlasts, hfit.1⟩
    | true => exact ⟨digest, r, hlasts, hfit.1⟩
  | _ =>
    rw [hA] at hctx
    cases hctx

/-- The context of a pair that has been started is about the pair. -/
theorem Tied.pair_of_context? (h : Tied c base A s) {ctx : UnitContext}
    (hctx : (A p).context? = some ctx) : ctx.pair = p := by
  obtain ⟨digest, r, -, resolved, n, -, -, hcontext⟩ := h.fitted_of_context? hctx
  exact Tied.context_pair hcontext

/-- **An executor is called** for the pairs that have been started. -/
theorem Tied.called_iff (h : Tied c base A s) :
    p ∈ s.contexts.map UnitContext.pair ↔ (A p).context?.isSome = true := by
  constructor
  · intro hm
    by_contra hnone
    exact h.shown.not_called (Option.not_isSome_iff_eq_none.mp hnone) hm
  · intro hsome
    obtain ⟨ctx, hctx⟩ := Option.isSome_iff_exists.mp hsome
    have hpair := h.pair_of_context? hctx
    exact List.mem_map.mpr ⟨ctx, (h.shown.called ctx).mpr (by rw [hpair]; exact hctx), hpair⟩

/-- Executors are called for planned pairs only. -/
theorem Tied.planned_of_mem_contexts (h : Tied c base A s)
    (hm : p ∈ s.contexts.map UnitContext.pair) : c.Planned p := by
  refine h.shown.planned_of_ne fun hwaiting => ?_
  rw [h.called_iff, hwaiting] at hm
  cases hm

/-- A pair has a context as soon as it has been started. -/
theorem Standing.isSome_context?_iff (st : Standing) :
    st.context?.isSome = true ↔ .running ∈ st.outcome.history := by
  cases st <;> simp [context?, outcome]

/-- **The executor of a pair** has been called once if the pair has been started, and never
otherwise. -/
theorem Tied.count_contexts (h : Tied c base A s) {o : Outcome}
    (ho : Table.get? p s.outcomes = some o) :
    (s.contexts.map UnitContext.pair).count p = if .running ∈ o.history then 1 else 0 := by
  have hhistory : o.history = (A p).outcome.history := by
    rw [← (h.shown.untimed_of_get? ho).2]
    rfl
  have hmem : p ∈ s.contexts.map UnitContext.pair ↔ .running ∈ o.history := by
    rw [h.called_iff, hhistory, Standing.isSome_context?_iff]
  rw [h.shown.once.count]
  simp only [hmem]

/-- What an outcome says that is reported for a pair. -/
theorem Tied.untimed_of_mem (hc : c.Checked requested) (h : Tied c base A s) {e : Pair × Outcome}
    (he : e ∈ s.outcomes) : c.Planned e.1 ∧ e.2.untimed = (A e.1).outcome := by
  refine h.shown.untimed_of_get? ?_
  rw [Table.get?_eq_some_iff (by rw [h.shown.keys]; exact hc.nodup)]
  exact he

/-! ### Outcomes that stay -/

/-- A running pair is not settled. -/
theorem Tied.open_of_running (h : Tied c base A s) {task : Task}
    (hrun : Table.get? p s.running = some task) : (A p).settled = false := by
  have hm : p ∈ Table.keys s.running := List.mem_map_of_mem (Table.mem_of_get? hrun)
  obtain ⟨digest, ctx, hA⟩ := Queued.exists_of_isRunning (h.queued.running.mem_iff'.mp hm)
  rw [hA]
  rfl

/-- A move leaves the outcomes of settled pairs as they are. -/
theorem Tied.outcome_of_move (h : Tied c base A s) (hm : Move c base s s')
    (hs : (A p).settled = true) : Table.get? p s'.outcomes = Table.get? p s.outcomes := by
  -- only the outcome of the pair that moves is changed, and that pair is open
  have hother {x : Pair} (hx : (A x).settled = false) (f : Outcome → Outcome)
      (outcomes : Table Pair Outcome) :
      Table.get? p (Table.modify x f outcomes) = Table.get? p outcomes := by
    have hne : p ≠ x := by
      rintro rfl
      rw [hs] at hx
      cases hx
    rw [Table.get?_modify, if_neg hne]
  have hpromoted {x : Pair} {rest : List Pair} (hp : s.promoted = x :: rest) :
      (A x).settled = false := by
    rw [(h.queued.take_promoted hp).1.waiting]
    rfl
  cases hm with
  | skip hp hv => exact hother (hpromoted hp) _ _
  | miss hp hv => exact hother (hpromoted hp) _ _
  | reuse hp hv => exact (hother (hpromoted hp) _ _).trans (hother (hpromoted hp) _ _)
  | ready hp hv => exact (hother (hpromoted hp) _ _).trans (hother (hpromoted hp) _ _)
  | start hr hw hn he hctx =>
    obtain ⟨⟨digest, hready⟩, -⟩ := h.queued.take_ready hr
    exact hother (by rw [hready]; rfl) _ _
  | succeed hcall hrun hintime ha hg => exact hother (h.open_of_running hrun) _ _
  | fail hcall hrun hintime ha => exact hother (h.open_of_running hrun) _ _
  | timeout hrun hd hlate => exact hother (h.open_of_running hrun) _ _
  | late ha => rfl

/-- **The outcome of a settled pair** is the same in all later states of a run. -/
theorem Steps.outcome_kept (hc : c.Checked requested) {n : Nat} (hs : Steps c n s s')
    (h : Tied c base A s) (ht : Timely s) {o : Outcome} (ho : Table.get? p s.outcomes = some o)
    (hend : o.status.terminal = true) : Table.get? p s'.outcomes = some o := by
  refine hs.keeps hc (P := fun t => Table.get? p t.outcomes = some o)
    (fun _ _ hget => hget) ?_ h ht
    ho
  intro B t t' hB hm hget
  have hsettled : (B p).settled = true := by
    have hstatus := hB.shown.status p
    rw [RunState.status, hget] at hstatus
    rw [Standing.settled, ← hstatus]
    exact hend
  rw [hB.outcome_of_move hm hsettled]
  exact hget

/-- A run goes on from each of its states to its last one. -/
theorem Steps.rest_of {n m : Nat} (hs : Steps c n s last) (hend : last.step c = .finished)
    (ht : Steps c m s t) : ∃ k, Steps c k t last := by
  induction ht generalizing n with
  | refl s => exact ⟨n, hs⟩
  | next h ht ih =>
    cases hs with
    | refl =>
      rw [h] at hend
      cases hend
    | next h' hs' =>
      rw [h, Next.state.injEq] at h'
      subst h'
      exact ih hs'

/-- A scheduler that is created over a stack of JSON data, with executors and a given state whose
outputs have text keys, works with nothing else. -/
theorem tidy_create {stack : Stack} {g : Graph} (hg : Graph.ofStack stack = .ok g)
    (hu : ∀ u ∈ stack.units, u.IsJson) {executors : Executors} {store : Store}
    {state : Option Buildstate} {before : Files} {options : RunOptions} {chance chance' : Chance}
    {sched : Scheduler} (hs : Scheduler.create g executors store state before options chance =
      .ok (sched, chance')) (hstate : ∀ b ∈ state, b.Keyed) (hexecutors : executors.Keyed)
    (plan : Plan) (phases : List Phase) (files : Files) :
    Tidy (sched.setup plan) (sched.initial plan phases files) := by
  obtain ⟨-, hgraph, hex, -, hresolver, hknown⟩ := Scheduler.sound_create hg hs
  refine ⟨?_, ?_, ?_, ?_⟩
  · intro n hn
    change n ∈ sched.graph.nodes at hn
    rw [hgraph] at hn
    refine hu n.unit ?_
    rw [← (Graph.built_ofStack hg).units]
    exact List.mem_map_of_mem hn
  · intro fqn
    change sched.resolver.outputs? fqn = none
    rw [hresolver]
    rfl
  · change sched.buildstate.Keyed
    cases state with
    | some b =>
      rw [← Except.ok.inj hknown]
      exact hstate b rfl
    | none => exact (Store.isJson_load hknown).keyed
  · change sched.executors.Keyed
    rw [hex]
    exact hexecutors

theorem Shop.isJson_database : Shop.database.IsJson := by
  refine ⟨?_, ?_⟩
  · simp [UnitDef.snapshot, UnitDef.configWith, Shop.database, Value.object, Value.texts,
      Value.ofText?, Value.IsPlain, Value.ArePlain, Value.EntriesPlain]
  · simp [UnitDef.snapshot, UnitDef.configWith, Shop.database, Value.object, Value.texts,
      Value.ofText?, Value.Distinct, Value.AreDistinct, Value.EntriesDistinct]

end Rollout
