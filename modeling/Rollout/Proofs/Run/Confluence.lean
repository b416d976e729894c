import Rollout.Proofs.Run.Scheduled

/-!
# Runs that differ in their schedules

How many workers there are and how long executors take decides about the order in which pairs are
considered, started and completed, but about nothing else. The reason is that what becomes of a pair
is decided behind it: from the bottom up, the charts behind two runs with the same answers agree on
all pairs that are settled in both.

**Types.** `Executors.Alike`, `Executors.Prompt`, `Twins`, `Report.untimed`.

**Results.**
* `Twins.agree`: pairs that are settled in two runs stand in the same way;
* `Twins.not_blamed`: a run halts only where the other one does, but for the store;
* `schedule_independent`: runs with the same answers have the same results.
-/

namespace Rollout

open RunState

/-- Two executors have the same limit and give the same answers, whatever the files are and however
long they take. -/
structure Executor.Alike (e e' : Executor) : Prop where
  timeout : e.timeout = e'.timeout
  runs : e.run.isNone = e'.run.isNone
  replies : ∀ work ∈ e.run, ∀ work' ∈ e'.run, ∀ ctx files files',
    (work ctx files).answer = (work' ctx files').answer ∧
      (work ctx files).inputs = (work' ctx files').inputs ∧
      (work ctx files).values = (work' ctx files').values

/-- The executors of every phase are alike. -/
def Executors.Alike (executors executors' : Executors) : Prop :=
  ∀ p, Option.Rel Executor.Alike (Table.get? p executors) (Table.get? p executors')

/-- All calls return before their time is up. -/
def Executors.Prompt (executors : Executors) : Prop :=
  ∀ p timeout work, Table.get? p executors = some ⟨timeout, some work⟩ →
    ∀ ctx files, ∀ t ∈ timeoutSeconds timeout, (work ctx files).seconds < t

/-- The scheduler with other executors and another number of workers. -/
def Scheduler.staff (s : Scheduler) (executors : Executors) (workers : Nat) (shown : Value) :
    Scheduler :=
  { s with executors := executors, maxWorkers := workers, shownWorkers := shown }

/-- Two schedulers differ only in their workers, and in how long their executors take, which is
always less than the limit. -/
structure Twins (s t : Scheduler) : Prop where
  sound : s.Sound
  sound' : t.Sound
  staffed : ∃ executors workers shown, t = s.staff executors workers shown
  alike : s.executors.Alike t.executors
  prompt : s.executors.Prompt
  prompt' : t.executors.Prompt

theorem Executor.Alike.symm {e e' : Executor} (h : e.Alike e') : e'.Alike e := by
  refine ⟨h.timeout.symm, h.runs.symm, ?_⟩
  intro work' hw' work hw ctx files' files
  obtain ⟨ha, hi, hv⟩ := h.replies work hw work' hw' ctx files files'
  exact ⟨ha.symm, hi.symm, hv.symm⟩

theorem Executors.Alike.symm {executors executors' : Executors}
    (h : executors.Alike executors') : executors'.Alike executors := by
  intro p
  have hp := h p
  generalize Table.get? p executors = e at hp
  generalize Table.get? p executors' = e' at hp
  cases hp with
  | some he => exact .some he.symm
  | none => exact .none

/-- Whether executors pass the check depends on their limits, and on whether they can run. -/
theorem checkExecutors_congr {executors executors' : Executors}
    (h : ∀ p, Option.Rel (fun e e' => e.timeout = e'.timeout ∧ e.run.isNone = e'.run.isNone)
      (Table.get? p executors) (Table.get? p executors')) (g : Graph) (phases : List Phase) :
    checkExecutors executors g phases = checkExecutors executors' g phases := by
  have hone (p : Phase) : checkExecutor executors g p = checkExecutor executors' g p := by
    have hp := h p
    unfold checkExecutor
    generalize Table.get? p executors = e at hp
    generalize Table.get? p executors' = e' at hp
    cases hp with
    | some he => simp only [he.1, he.2]
    | none => rfl
  induction phases with
  | nil => rfl
  | cons p rest ih => rw [checkExecutors, checkExecutors, hone, ih]

/-- Executors that are alike pass the same checks. -/
theorem Executors.Alike.checkExecutors {executors executors' : Executors}
    (h : executors.Alike executors') (g : Graph) (phases : List Phase) :
    checkExecutors executors g phases = checkExecutors executors' g phases := by
  refine checkExecutors_congr (fun p => ?_) g phases
  have hp := h p
  generalize Table.get? p executors = e at hp
  generalize Table.get? p executors' = e' at hp
  cases hp with
  | some he => exact .some ⟨he.timeout, he.runs⟩
  | none => exact .none

theorem Twins.symm {s t : Scheduler} (h : Twins s t) : Twins t s := by
  obtain ⟨executors, workers, shown, rfl⟩ := h.staffed
  exact ⟨h.sound', h.sound, ⟨s.executors, s.maxWorkers, s.shownWorkers, rfl⟩, h.alike.symm,
    h.prompt', h.prompt⟩

/-! ### What is decided about a pair -/

section Decided

variable {c : Setup} {base last : RunState} {p : Pair} {st : Standing}

/-- How a settled pair has come to stand as it does: by the verdict on it, or by its executor. -/
inductive Decided (c : Setup) (base last : RunState) (p : Pair) : Standing → Prop
  | verdict {st : Standing} (hs : st.settled = true) (hv : verdict c base last p = .ok st) :
      Decided c base last p st
  | succeeded {digest : String} {ctx : UnitContext} {reply : Reply} {given : Option Entries}
      {snapshot : Option Value} {outputs : Option Entries} (hb : Begun c base last p digest ctx)
      (hr : Returned c p ctx reply) (ha : reply.answer.result = .ok given)
      (hg : gain c base p ctx.namespaceName reply given = .ok (snapshot, outputs)) :
      Decided c base last p (.succeeded digest ctx snapshot outputs)
  | failed {digest : String} {ctx : UnitContext} {reply : Reply} {cause : String}
      (hb : Begun c base last p digest ctx) (hr : Returned c p ctx reply)
      (ha : reply.answer.result = .error cause) :
      Decided c base last p (.failed digest ctx cause false)

theorem not_overran (h : c.executors.Prompt) {ctx : UnitContext} {limit : Rat} :
    ¬Overran c p ctx limit := by
  rintro ⟨timeout, work, files, he, hlimit, hle⟩
  exact absurd hle (not_le_of_gt (h p.phase timeout work he ctx files limit hlimit))

/-- With executors that return in time, a settled pair is decided by its verdict or by an answer. -/
theorem decided_of_fits (h : c.executors.Prompt) (hf : Fits c base last p st)
    (hs : st.settled = true) : Decided c base last p st := by
  cases st with
  | waiting => cases hs
  | ready digest resolved => cases hs
  | running digest ctx => cases hs
  | skipped b => exact .verdict hs hf.2
  | missing cause => exact .verdict hs hf.2
  | reused digest outputs => exact .verdict hs hf.2
  | succeeded digest ctx snapshot outputs =>
    obtain ⟨hb, reply, given, hr, ha, hg⟩ := hf
    exact .succeeded hb hr ha hg
  | failed digest ctx cause timedOut =>
    cases timedOut with
    | false =>
      obtain ⟨hb, reply, hr, ha⟩ := hf
      exact .failed hb hr ha
    | true =>
      obtain ⟨-, limit, hover, -⟩ := hf
      exact absurd hover (not_overran h)

/-- A pair that has been started is not settled by its verdict. -/
theorem RunState.Begun.not_verdict {digest : String} {ctx : UnitContext}
    (h : Begun c base last p digest ctx) (hs : st.settled = true) :
    RunState.verdict c base last p ≠ .ok st := by
  obtain ⟨resolved, n, hv, -⟩ := h
  intro hst
  rw [hv, Except.ok.injEq] at hst
  rw [← hst] at hs
  cases hs

/-- A pair is started in one way only. -/
theorem RunState.Begun.unique {digest digest' : String} {ctx ctx' : UnitContext}
    (h : Begun c base last p digest ctx) (h' : Begun c base last p digest' ctx') :
    digest = digest' ∧ ctx = ctx' := by
  obtain ⟨resolved, n, hv, hn, hctx⟩ := h
  obtain ⟨resolved', n', hv', hn', hctx'⟩ := h'
  rw [hv, Except.ok.injEq, Standing.ready.injEq] at hv'
  obtain ⟨rfl, rfl⟩ := hv'
  rw [hn, Option.some.injEq] at hn'
  subst hn'
  rw [hctx, Except.ok.injEq] at hctx'
  exact ⟨rfl, hctx'⟩

/-- What has been decided was not refused. -/
theorem Decided.verdict_ok (h : Decided c base last p st) :
    ∃ st', RunState.verdict c base last p = .ok st' := by
  cases h with
  | verdict hs hv => exact ⟨_, hv⟩
  | succeeded hb =>
    obtain ⟨resolved, n, hv, -⟩ := hb
    exact ⟨_, hv⟩
  | failed hb =>
    obtain ⟨resolved, n, hv, -⟩ := hb
    exact ⟨_, hv⟩

/-- A pair whose verdict was to be started has been started. -/
theorem Decided.begun_of_ready (h : Decided c base last p st) {digest : String}
    {resolved : Option Resolved}
    (hv : RunState.verdict c base last p = .ok (.ready digest resolved)) :
    ∃ digest ctx, Begun c base last p digest ctx := by
  cases h with
  | verdict hs hv' =>
    rw [hv, Except.ok.injEq] at hv'
    rw [← hv'] at hs
    cases hs
  | succeeded hb => exact ⟨_, _, hb⟩
  | failed hb => exact ⟨_, _, hb⟩

/-- Everything behind a pair that can be considered is settled. -/
theorem Open.settled_of_behind {A : Chart} (h : Open c A p) (ht : Tied c base A last) {q : Pair}
    (hb : c.Behind q p) : (A q).settled = true := by
  cases hb with
  | single hw => exact h.settled q hw
  | @tail w _ hb hw =>
    refine ht.fit.settled_of_behind ht.shown hb ?_
    intro heq
    have := h.settled w hw
    rw [heq] at this
    cases this

end Decided

/-! ### Two runs -/

namespace Twins

variable {s t : Scheduler} {plan : Plan} {phases requested : List Phase} {files : Files}
  {last last' : RunState} {A A' : Chart} {p : Pair}

/-- Two executors of one phase that are handed the same context give the same answer. -/
theorem same_reply (h : Twins s t) {ctx : UnitContext} {reply reply' : Reply}
    (hr : Returned (s.setup plan) p ctx reply) (hr' : Returned (t.setup plan) p ctx reply') :
    reply.answer = reply'.answer ∧ reply.inputs = reply'.inputs ∧ reply.values = reply'.values := by
  obtain ⟨timeout, work, f, he, rfl, -⟩ := hr
  obtain ⟨timeout', work', f', he', rfl, -⟩ := hr'
  have hp := h.alike p.phase
  change Table.get? p.phase s.executors = _ at he
  change Table.get? p.phase t.executors = _ at he'
  rw [he, he'] at hp
  cases hp with
  | some halike => exact halike.replies work rfl work' rfl ctx f f'

/-- What pairs are compared with does not depend on executors and workers. -/
theorem verdict_eq (h : Twins s t) (state : RunState) :
    verdict (t.setup plan) (t.initial plan requested files) state p =
      verdict (s.setup plan) (s.initial plan requested files) state p := by
  obtain ⟨executors, workers, shown, rfl⟩ := h.staffed
  rfl

theorem begun_iff (h : Twins s t) {state : RunState} {digest : String} {ctx : UnitContext} :
    Begun (t.setup plan) (t.initial plan requested files) state p digest ctx ↔
      Begun (s.setup plan) (s.initial plan requested files) state p digest ctx := by
  obtain ⟨executors, workers, shown, rfl⟩ := h.staffed
  rfl

/-- A successful call leaves the same in both runs. -/
theorem gain_eq (h : Twins s t) {namespaceName : String} {reply reply' : Reply}
    (hi : reply.inputs = reply'.inputs) (hv : reply.values = reply'.values)
    (given : Option Entries) :
    gain (t.setup plan) (t.initial plan requested files) p namespaceName reply' given =
      gain (s.setup plan) (s.initial plan requested files) p namespaceName reply given := by
  obtain ⟨executors, workers, shown, rfl⟩ := h.staffed
  unfold gain
  rw [hi, hv]
  rfl

/-- What is decided about a pair is the same in both runs, once the pair reads the same. -/
theorem decided_unique (h : Twins s t) {state : RunState} {st st' : Standing}
    (hd : Decided (s.setup plan) (s.initial plan requested files) state p st)
    (hd' : Decided (t.setup plan) (t.initial plan requested files) state p st') : st = st' := by
  cases hd with
  | verdict hs hv =>
    cases hd' with
    | verdict hs' hv' =>
      rw [h.verdict_eq, hv] at hv'
      exact Except.ok.inj hv'
    | succeeded hb' => exact absurd hv ((h.begun_iff.mp hb').not_verdict hs)
    | failed hb' => exact absurd hv ((h.begun_iff.mp hb').not_verdict hs)
  | succeeded hb hr ha hg =>
    cases hd' with
    | verdict hs' hv' =>
      rw [h.verdict_eq] at hv'
      exact absurd hv' (hb.not_verdict hs')
    | succeeded hb' hr' ha' hg' =>
      obtain ⟨rfl, rfl⟩ := hb.unique (h.begun_iff.mp hb')
      obtain ⟨hanswer, hi, hv⟩ := h.same_reply hr hr'
      rw [hanswer, ha', Except.ok.injEq] at ha
      subst ha
      rw [h.gain_eq hi hv, hg, Except.ok.injEq, Prod.mk.injEq] at hg'
      obtain ⟨rfl, rfl⟩ := hg'
      rfl
    | failed hb' hr' ha' =>
      obtain ⟨rfl, rfl⟩ := hb.unique (h.begun_iff.mp hb')
      rw [(h.same_reply hr hr').1, ha'] at ha
      cases ha
  | failed hb hr ha =>
    cases hd' with
    | verdict hs' hv' =>
      rw [h.verdict_eq] at hv'
      exact absurd hv' (hb.not_verdict hs')
    | succeeded hb' hr' ha' hg' =>
      obtain ⟨rfl, rfl⟩ := hb.unique (h.begun_iff.mp hb')
      rw [(h.same_reply hr hr').1, ha'] at ha
      cases ha
    | failed hb' hr' ha' =>
      obtain ⟨rfl, rfl⟩ := hb.unique (h.begun_iff.mp hb')
      rw [(h.same_reply hr hr').1, ha', Except.error.injEq] at ha
      rw [ha]

/-! ### Agreement -/

/-- Both runs have the same pairs and the same beginning, so a state of one of them shows its chart
in the other one, too. -/
theorem shown_iff (h : Twins s t) :
    Shown (t.setup plan) (t.initial plan requested files) A' last' ↔
      Shown (s.setup plan) (s.initial plan requested files) A' last' := by
  obtain ⟨executors, workers, shown, rfl⟩ := h.staffed
  constructor <;>
  · intro hs
    exact ⟨hs.offPlan, hs.keys, hs.outcome, hs.fingerprint, hs.graph, hs.outputs, hs.record,
      hs.version, hs.release, hs.stack, hs.once, hs.called⟩

/-- A pair reads the same in two runs whose charts agree behind it. -/
theorem sameReads (h : Twins s t) (hc : (s.setup plan).Sound requested)
    (hA : Tied (s.setup plan) (s.initial plan requested files) A last)
    (hA' : Tied (t.setup plan) (t.initial plan requested files) A' last')
    (hp : (s.setup plan).Planned p)
    (hbehind : ∀ q, (s.setup plan).Behind q p → A q = A' q) :
    SameReads (s.setup plan) p last last' :=
  sameReads_of_agree hc hA.shown (h.shown_iff.mp hA'.shown) hp hbehind

/-- **Pairs that are settled in two runs** stand in the same way. -/
theorem agree (h : Twins s t) (hc : (s.setup plan).Sound requested)
    (hA : Tied (s.setup plan) (s.initial plan requested files) A last)
    (hA' : Tied (t.setup plan) (t.initial plan requested files) A' last')
    (hp : (A p).settled = true) (hp' : (A' p).settled = true) : A p = A' p := by
  induction p using hc.wellFounded.transGen.induction with
  | _ p ih =>
    have hne : A p ≠ .waiting := by
      intro heq
      rw [heq] at hp
      cases hp
    have hne' : A' p ≠ .waiting := by
      intro heq
      rw [heq] at hp'
      cases hp'
    have hbehind (q : Pair) (hb : (s.setup plan).Behind q p) : A q = A' q :=
      ih q hb (hA.fit.settled_of_behind hA.shown hb hne)
        (hA'.fit.settled_of_behind hA'.shown hb hne')
    have hsame := h.sameReads hc hA hA' (hA.shown.planned_of_ne hne) hbehind
    have hd := decided_of_fits h.prompt (fits_congr hsame ((hA.fit p).fits hc.built)) hp
    have hd' := decided_of_fits h.prompt' ((hA'.fit p).fits h.sound'.exists_built) hp'
    exact h.decided_unique hd hd'

/-- When all that stands behind a pair in a run is settled, the pair reads there what has decided
about it in a run that has ended. -/
theorem decided_at (h : Twins s t) (hc : (s.setup plan).Sound requested)
    (hA : Tied (s.setup plan) (s.initial plan requested files) A last)
    (hall : ∀ q, (s.setup plan).Planned q → (A q).settled = true)
    (hA' : Tied (t.setup plan) (t.initial plan requested files) A' last')
    (hp : (s.setup plan).Planned p)
    (hsettled : ∀ q, (s.setup plan).Behind q p → (A' q).settled = true) :
    Decided (s.setup plan) (s.initial plan requested files) last' p (A p) := by
  have hbehind (q : Pair) (hb : (s.setup plan).Behind q p) : A q = A' q :=
    h.agree hc hA hA' (hall q (hc.behind_planned hb)) (hsettled q hb)
  have hsame := h.sameReads hc hA hA' hp hbehind
  exact decided_of_fits h.prompt (fits_congr hsame ((hA.fit p).fits hc.built)) (hall p hp)

theorem graph_eq (h : Twins s t) : t.graph = s.graph := by
  obtain ⟨executors, workers, shown, rfl⟩ := h.staffed
  rfl

theorem context_eq (h : Twins s t) (u : UnitDef) (resolved : Option Resolved) :
    context (t.setup plan) p u resolved = context (s.setup plan) p u resolved := by
  obtain ⟨executors, workers, shown, rfl⟩ := h.staffed
  rfl

/-- **A run halts only where the other one does**: if one run has ended, nothing but the store can
be to blame for a halt of the other one. -/
theorem not_blamed (h : Twins s t) (hc : (s.setup plan).Sound requested)
    (hA : Tied (s.setup plan) (s.initial plan requested files) A last)
    (hall : ∀ q, (s.setup plan).Planned q → (A q).settled = true)
    (hA' : Tied (t.setup plan) (t.initial plan requested files) A' last') {fault : RunFault}
    (hb : Blame (t.setup plan) (t.initial plan requested files) last' fault) :
    ∃ f, fault = .store f := by
  cases hb with
  | save => exact ⟨_, rfl⟩
  | @verdict x rest fault hp hv =>
    exfalso
    obtain ⟨ho, -⟩ := hA'.queued.take_promoted hp
    have hd := h.decided_at hc hA hall hA' ho.planned fun q hq => ho.settled_of_behind hA' hq
    rw [h.verdict_eq] at hv
    obtain ⟨st, hst⟩ := hd.verdict_ok
    rw [hv] at hst
    cases hst
  | @context item rest n fault hr hn hctx =>
    exfalso
    obtain ⟨⟨digest, hready⟩, -⟩ := hA'.queued.take_ready hr
    have hne : A' item.pair ≠ .waiting := by simp [hready]
    have hfit := (hA'.fit item.pair).fits h.sound'.exists_built
    rw [hready] at hfit
    have hv := hfit.2
    rw [h.verdict_eq] at hv
    have hd := h.decided_at hc hA hall hA' (hA'.shown.planned_of_ne hne)
      fun q hq => hA'.fit.settled_of_behind hA'.shown hq hne
    obtain ⟨digest', ctx, resolved, n', hv', hn', hctx'⟩ := hd.begun_of_ready hv
    rw [hv, Except.ok.injEq, Standing.ready.injEq] at hv'
    obtain ⟨-, rfl⟩ := hv'
    change t.graph.node? item.pair.fqn = some n at hn
    rw [h.graph_eq] at hn
    obtain rfl : n' = n := Option.some.inj (hn'.symm.trans hn)
    rw [h.context_eq, hctx'] at hctx
    cases hctx
  | @gain call task given fault hcall hrun hintime ha hg =>
    exfalso
    obtain ⟨ctx, hrunning, hns, hreturned⟩ :=
      Tied.returned_of_underway (hA'.queued.underway call hcall task hrun) hintime
    have hne : A' call.pair ≠ .waiting := by simp [hrunning]
    have hfit := (hA'.fit call.pair).fits h.sound'.exists_built
    rw [hrunning] at hfit
    have hb := h.begun_iff.mp hfit
    have hd := h.decided_at hc hA hall hA' (hA'.shown.planned_of_ne hne)
      fun q hq => hA'.fit.settled_of_behind hA'.shown hq hne
    generalize A call.pair = st at hd
    cases hd with
    | verdict hs hv => exact hb.not_verdict hs hv
    | succeeded hb' hr' ha' hg' =>
      obtain ⟨rfl, rfl⟩ := hb.unique hb'
      obtain ⟨hanswer, hi, hv⟩ := h.same_reply hr' hreturned
      rw [hanswer, ha, Except.ok.injEq] at ha'
      subst ha'
      rw [hns, h.gain_eq hi hv, hg'] at hg
      cases hg
    | failed hb' hr' ha' =>
      obtain ⟨rfl, rfl⟩ := hb.unique hb'
      rw [(h.same_reply hr' hreturned).1, ha] at ha'
      cases ha'

theorem plan_eq (h : Twins s t) {plan' : Plan} (hp : s.graph.plan requested = .ok plan)
    (hp' : t.graph.plan requested = .ok plan') : plan = plan' := by
  rw [h.graph_eq] at hp'
  exact Except.ok.inj (hp.symm.trans hp')

/-- **If one run reports**, the other one does, unless its store fails. -/
theorem reports (h : Twins s t) {report : Report}
    (hr : (s.run phases files).report = .ok report) :
    (∃ report', (t.run phases files).report = .ok report') ∨
      ∃ f, (t.run phases files).report = .error (.store f) := by
  obtain ⟨plan, n, last, A, hcarries, -, -, hall⟩ := s.report_spec h.sound hr
  rcases t.run_spec h.sound' phases files with ⟨fault, hcheck, -⟩ |
    ⟨-, plan', n', last', A', hcarries', ⟨hrun', -⟩ | ⟨halt, hrun', time, hb, -⟩⟩
  · -- the same executors that were accepted are not refused
    have hok := hcarries.sound.executors
    change checkExecutors s.executors s.graph (requestedPhases phases) = .ok () at hok
    rw [h.alike.checkExecutors, ← h.graph_eq, hcheck] at hok
    cases hok
  · exact Or.inl ⟨_, by rw [hrun']; rfl⟩
  · obtain rfl := h.plan_eq hcarries.sound.plan hcarries'.sound.plan
    obtain ⟨f, hf⟩ := h.not_blamed hcarries.sound hcarries.tied hall (hcarries'.tied.tick time) hb
    refine Or.inr ⟨f, ?_⟩
    rw [hrun', ← hf]
    rfl

end Twins

/-- A report without its times. -/
def Report.untimed (r : Report) : Report :=
  { r with pairs := r.pairs.map fun e => (e.1, e.2.untimed), durationMs := 0 }

/-- The outcomes of a state, without their times, are those of its chart. -/
theorem Shown.untimed_outcomes {c : Setup} {requested : List Phase} {base last : RunState}
    {A : Chart} (hc : c.Sound requested) (h : Shown c base A last) :
    (last.outcomes.map fun e => (e.1, e.2.untimed)) =
      (Table.keys c.plan).map fun p => (p, (A p).outcome) := by
  have hn : (Table.keys last.outcomes).Nodup := by
    rw [h.keys]
    exact hc.nodup
  rw [← h.keys, Table.keys, List.map_map]
  refine List.map_congr_left fun e he => ?_
  have hp : c.Planned e.1 := by
    rw [Setup.Planned, ← h.keys]
    exact List.mem_map_of_mem he
  have hget := h.outcome e.1 hp
  rw [(Table.get?_eq_some_iff hn).mpr he, Option.map_some, Option.some.injEq] at hget
  rw [hget]
  rfl

/-- Two states know the same about a stack, whenever they were saved. -/
structure Buildstate.Same (b b' : Buildstate) : Prop where
  version : b.version = b'.version
  stack : b.stack = b'.stack
  release : b.releaseName = b'.releaseName
  record : ∀ fqn, b.record? fqn = b'.record? fqn

/-- Two runs have ended in the same way, apart from times. -/
structure RunResult.Same (r r' : RunResult) : Prop where
  report : r.report.map Report.untimed = r'.report.map Report.untimed
  contexts : r.contexts.Perm r'.contexts
  state : r.scheduler.buildstate.Same r'.scheduler.buildstate

/-- Two runs that report have ended in the same way. -/
theorem Twins.same {s t : Scheduler} (h : Twins s t) {phases : List Phase} {files : Files}
    {report report' : Report} (hr : (s.run phases files).report = .ok report)
    (hr' : (t.run phases files).report = .ok report') :
    (s.run phases files).Same (t.run phases files) := by
  obtain ⟨plan, n, last, A, hcarries, hrun, hreport, hall⟩ := s.report_spec h.sound hr
  obtain ⟨plan', n', last', A', hcarries', hrun', hreport', hall'⟩ := t.report_spec h.sound' hr'
  obtain rfl := h.plan_eq hcarries.sound.plan hcarries'.sound.plan
  have hshown := hcarries.tied.shown
  have hshown' := h.shown_iff.mp hcarries'.tied.shown
  have hagree : A = A' := by
    funext p
    by_cases hp : (s.setup plan).Planned p
    · exact h.agree hcarries.sound hcarries.tied hcarries'.tied (hall p hp) (hall' p hp)
    · rw [hshown.offPlan p hp, hshown'.offPlan p hp]
  subst hagree
  rw [hrun, hrun']
  refine ⟨?_, ?_, ?_⟩
  · have hpairs : (last.outcomes.map fun e => (e.1, e.2.untimed)) =
        last'.outcomes.map fun e => (e.1, e.2.untimed) :=
      (hshown.untimed_outcomes hcarries.sound).trans
        (hshown'.untimed_outcomes hcarries.sound).symm
    have hrelease : t.releaseName = s.releaseName := by
      obtain ⟨executors, workers, shown, rfl⟩ := h.staffed
      rfl
    change Except.ok (Report.untimed (s.reportOf _ last)) =
      .ok (Report.untimed (t.reportOf _ last'))
    simp only [Report.untimed, Scheduler.reportOf, hpairs, hrelease]
  · change last.contexts.Perm last'.contexts
    rw [List.perm_ext_iff_of_nodup (List.Nodup.of_map _ hshown.once)
      (List.Nodup.of_map _ hshown'.once)]
    intro ctx
    rw [hshown.called, hshown'.called]
  · exact ⟨hshown.version.trans hshown'.version.symm, hshown.stack.trans hshown'.stack.symm,
      hshown.release.trans hshown'.release.symm,
      fun fqn => (hshown.record fqn).trans (hshown'.record fqn).symm⟩

/-- **Schedules do not matter.** Two runs differ only in the number of workers and in how long
their executors take, which is always less than the limit, and their executors give the same answers
to the same contexts. Then, unless a store fails, both report or neither does; and if both report,
then what became of the pairs, the contexts that executors were handed and what is known about the
units afterwards are the same. -/
theorem schedule_independent {s : Scheduler} {executors : Executors} {workers : Nat}
    (shown : Value) (hs : s.Sound) (hw : 1 ≤ workers) (halike : s.executors.Alike executors)
    (hprompt : s.executors.Prompt) (hprompt' : executors.Prompt) (phases : List Phase)
    (files : Files) :
    (∀ report, (s.run phases files).report = .ok report →
      (∃ report', ((s.staff executors workers shown).run phases files).report = .ok report') ∨
        ∃ f, ((s.staff executors workers shown).run phases files).report = .error (.store f)) ∧
    (∀ report', ((s.staff executors workers shown).run phases files).report = .ok report' →
      (∃ report, (s.run phases files).report = .ok report) ∨
        ∃ f, (s.run phases files).report = .error (.store f)) ∧
    ∀ report report', (s.run phases files).report = .ok report →
      ((s.staff executors workers shown).run phases files).report = .ok report' →
      (s.run phases files).Same ((s.staff executors workers shown).run phases files) := by
  have h : Twins s (s.staff executors workers shown) :=
    ⟨hs, ⟨hs.built, hs.resolver, hw⟩, ⟨executors, workers, shown, rfl⟩, halike, hprompt, hprompt'⟩
  refine ⟨?_, ?_, ?_⟩
  · intro report hr
    exact h.reports hr
  · intro report' hr'
    exact h.symm.reports hr'
  · intro report report' hr hr'
    exact h.same hr hr'

/-- The executors of the shop are alike, however long they take. -/
theorem Shop.alike (seconds seconds' : Rat) :
    (Shop.executors seconds).Alike (Shop.executors seconds') := by
  have hone (timeout : Value) (answer : Answer) :
      (Shop.executor timeout seconds answer).Alike (Shop.executor timeout seconds' answer) := by
    refine ⟨rfl, rfl, ?_⟩
    rintro work ⟨⟩ work' ⟨⟩ ctx files files'
    exact ⟨rfl, rfl, rfl⟩
  intro p
  cases p with
  | init => exact .some (hone _ _)
  | build => exact .none
  | deploy => exact .some (hone _ _)

/-- The only limit in the shop is that of a deployment. -/
theorem Shop.limit {seconds t : Rat} {p : Phase} {timeout : Value}
    {work : UnitContext → Files → Reply}
    (he : Table.get? p (Shop.executors seconds) = some ⟨timeout, some work⟩)
    (ht : t ∈ timeoutSeconds timeout) :
    t = 60 ∧ ∀ ctx files, (work ctx files).seconds = seconds := by
  have hone {limit : Value} {answer : Answer}
      (he : some (Shop.executor limit seconds answer) = some ⟨timeout, some work⟩) :
      timeout = limit ∧ ∀ ctx files, (work ctx files).seconds = seconds := by
    cases he
    exact ⟨rfl, fun _ _ => rfl⟩
  cases p with
  | init =>
    obtain ⟨rfl, -⟩ := hone he
    cases ht
  | build => cases he
  | deploy =>
    obtain ⟨rfl, hseconds⟩ := hone he
    exact ⟨by simpa [timeoutSeconds, eq_comm] using ht, hseconds⟩

theorem Shop.prompt {seconds : Rat} (h : seconds < 60) : (Shop.executors seconds).Prompt := by
  intro p timeout work he ctx files t ht
  obtain ⟨rfl, hseconds⟩ := Shop.limit he ht
  rw [hseconds]
  exact h

/-- In the shop three fast workers lead to the same as one slow worker. -/
theorem schedule_independent_shop :
    (Shop.scheduler [Shop.database] 1 (Shop.executors 7)).Sound ∧ (1 : Nat) ≤ 3 ∧
      (Shop.executors 7).Alike (Shop.executors 2) ∧ (Shop.executors 7).Prompt ∧
      (Shop.executors 2).Prompt ∧
      ((Shop.scheduler [Shop.database] 1 (Shop.executors 7)).run [.init, .deploy] []).Same
        (((Shop.scheduler [Shop.database] 1 (Shop.executors 7)).staff (Shop.executors 2) 3
          (.int 3)).run [.init, .deploy] []) := by
  have hs : (Shop.scheduler [Shop.database] 1 (Shop.executors 7)).Sound :=
    ⟨⟨_, Shop.ofStack_database⟩, rfl, by decide⟩
  have hw : 1 ≤ 3 := by decide
  have halike := Shop.alike 7 2
  have hprompt : (Shop.executors 7).Prompt := Shop.prompt (by norm_num)
  have hprompt' : (Shop.executors 2).Prompt := Shop.prompt (by norm_num)
  refine ⟨hs, hw, halike, hprompt, hprompt', ?_⟩
  obtain ⟨-, -, hsame⟩ := schedule_independent (.int 3) hs hw halike hprompt hprompt'
    [.init, .deploy] []
  have hslow : ((Shop.scheduler [Shop.database] 1 (Shop.executors 7)).run [.init, .deploy]
      []).report.isOk = true := by decide +kernel
  have hfast : (((Shop.scheduler [Shop.database] 1 (Shop.executors 7)).staff (Shop.executors 2) 3
      (.int 3)).run [.init, .deploy] []).report.isOk = true := by decide +kernel
  obtain ⟨report, hr⟩ := exists_of_isOk hslow
  obtain ⟨report', hr'⟩ := exists_of_isOk hfast
  exact hsame report report' hr hr'

end Rollout
