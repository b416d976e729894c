import Rollout.Proofs.Run.Waited
import Rollout.Run.Scheduler

/-!
# Steps of a run and whole runs

A step of a run makes at least one move, halts with the state to blame, or finds the run finished;
and it finds the run finished only when every pair is settled. Since every move leaves less to be
done, a run ends after at most four steps for each pair of its plan.

**Types.** `Steps`, `Blamed`.

**Results.**
* `Tied.step_spec`: what one step does;
* `Tied.run_spec`: what a whole run does;
* `Steps.keeps`: what every move keeps is kept by a run;
* `tied_initial`: the state in which a run begins.
-/

namespace Rollout

open RunState

/-- A number of steps leads from one state to another one. -/
inductive Steps (c : Setup) : Nat → RunState → RunState → Prop
  | refl (s : RunState) : Steps c 0 s s
  | next {n : Nat} {s s' t : RunState} (h : s.step c = .state s') (ht : Steps c n s' t) :
      Steps c (n + 1) s t

/-- The state is to blame for a halt, perhaps after the clock has moved. -/
def Blamed (c : Setup) (base s : RunState) (halt : Halt) : Prop :=
  ∃ t, Blame c base { s with now := t } halt.fault ∧ Quiet s halt.state

variable {c : Setup} {requested : List Phase} {base s s' : RunState} {A : Chart}

/-! ### One step -/

/-- Moves in a row keep a chart behind the state. -/
theorem Tied.moves (hc : c.Checked requested) (h : Tied c base A s)
    (hm : Relation.TransGen (Move c base) s s') :
    ∃ A', Tied c base A' s' ∧ Settles A A' ∧ A'.rest c s' < A.rest c s := by
  induction hm with
  | single hone => exact h.move hc hone
  | tail _ hone ih =>
    obtain ⟨B, hB, hsettles, hrest⟩ := ih
    obtain ⟨A', hA', hsettles', hrest'⟩ := hB.move hc hone
    exact ⟨A', hA', hsettles.trans hsettles', hrest'.trans hrest⟩

theorem Tied.advances (hc : c.Checked requested) (h : Tied c base A s)
    (ha : Advances c base s s') :
    ∃ A', Tied c base A' s' ∧ Settles A A' ∧ A'.rest c s' < A.rest c s := by
  obtain ⟨t, hm⟩ := ha
  have hmoves := (h.tick t).moves hc hm
  exact hmoves

/-- A run with nothing promoted, nothing ready and nothing running has settled every pair. -/
theorem Tied.settled_of_idle (hc : c.Checked requested) (h : Tied c base A s)
    (hp : s.promoted = []) (hr : s.ready = []) (hrun : s.running = []) {p : Pair}
    (hplanned : c.Planned p) : (A p).settled = true := by
  -- a first open pair would wait for settled pairs only, and so it would have been promoted
  induction p using hc.wellFounded.induction with
  | _ p ih =>
    by_contra hopen
    have hready : (A p).isReady = false := by
      by_contra hnot
      have := h.queued.ready.mem_iff'.mpr (Bool.of_not_eq_false hnot)
      rw [hr] at this
      cases this
    have hrunning : (A p).isRunning = false := by
      by_contra hnot
      have := h.queued.running.mem_iff'.mpr (Bool.of_not_eq_false hnot)
      rw [hrun] at this
      cases this
    have hwait : A p = .waiting := by
      cases hA : A p with
      | waiting => rfl
      | ready digest resolved => rw [hA] at hready; cases hready
      | running digest ctx => rw [hA] at hrunning; cases hrunning
      | _ => rw [hA] at hopen; exact absurd rfl hopen
    have hm := h.queued.promoted.mem_iff'.mpr
      ⟨hplanned, hwait, fun w hw => ih w hw (hc.waits_planned hw)⟩
    rw [hp] at hm
    cases hm

/-- As long as executors are at work, there are calls to wait for. -/
theorem Tied.calls_ne_nil (h : Tied c base A s) (hsome : s.running ≠ [] ∨ s.abandoned ≠ []) :
    s.calls ≠ [] := by
  intro hnil
  rcases hsome with hsome | hsome
  · obtain ⟨⟨p, task⟩, hm⟩ := List.exists_mem_of_ne_nil _ hsome
    have := (h.queued.mem_calls p).mpr (Or.inl (List.mem_map_of_mem (f := Prod.fst) hm))
    rw [hnil] at this
    cases this
  · obtain ⟨p, hm⟩ := List.exists_mem_of_ne_nil _ hsome
    have := (h.queued.mem_calls p).mpr (Or.inr hm)
    rw [hnil] at this
    cases this

/-- When all workers are taken, executors are at work. -/
theorem busy_of_no_worker (hc : c.Checked requested) (hw : s.hasWorker c = false) :
    s.running ≠ [] ∨ s.abandoned ≠ [] := by
  have hfull : ¬s.running.length + s.abandoned.length < c.maxWorkers := by
    rw [hasWorker, decide_eq_false_iff_not] at hw
    exact hw
  have hworkers := hc.workers
  by_contra hnone
  obtain ⟨hrun, habandoned⟩ := not_or.mp hnone
  rw [not_not.mp hrun, not_not.mp habandoned] at hfull
  simp only [List.length_nil] at hfull
  omega

/-- **One step** makes moves, or halts with the state to blame, or finds every pair settled. -/
theorem Tied.step_spec (hc : c.Checked requested) (h : Tied c base A s) (ht : Timely s) :
    (∃ s', s.step c = .state s' ∧ Timely s' ∧ Advances c base s s') ∨
      (∃ halt, s.step c = .halted halt ∧ Blamed c base s halt) ∨
      (s.step c = .finished ∧ ∀ p, c.Planned p → (A p).settled = true) := by
  have hattempt {attempt : Except Halt RunState} (hl : Leads c base s attempt)
      (hs : s.step c = Next.of attempt) :
      (∃ s', s.step c = .state s' ∧ Timely s' ∧ Advances c base s s') ∨
        ∃ halt, s.step c = .halted halt ∧ Blamed c base s halt := by
    rcases hl with ⟨s', hok, hm⟩ | ⟨halt, herror, hblame, hquiet⟩
    · exact Or.inl ⟨s', by rw [hs, hok]; rfl, h.timely_move hc hm ht, s.now, .single hm⟩
    · exact Or.inr ⟨halt, by rw [hs, herror]; rfl, s.now, hblame, hquiet⟩
  have hwait (hbusy : s.calls ≠ []) (hs : s.step c = Next.of (s.wait c)) :
      (∃ s', s.step c = .state s' ∧ Timely s' ∧ Advances c base s s') ∨
        ∃ halt, s.step c = .halted halt ∧ Blamed c base s halt := by
    rcases h.wait_spec hc ht hbusy with ⟨s', hok, htimely, ha⟩ | ⟨halt, herror, hblame⟩
    · exact Or.inl ⟨s', by rw [hs, hok]; rfl, htimely, ha⟩
    · exact Or.inr ⟨halt, by rw [hs, herror]; rfl, hblame⟩
  cases hp : s.promoted with
  | cons x rest =>
    rcases hattempt (h.consider_spec hc hp) (by rw [step, hp]) with hstep | hhalt
    · exact Or.inl hstep
    · exact Or.inr (Or.inl hhalt)
  | nil =>
    cases hr : s.ready with
    | cons item rest =>
      cases hw : s.hasWorker c with
      | true =>
        rcases hattempt (h.start_spec hc hr hw) (by rw [step, hp, hr]; exact if_pos hw) with
          hstep | hhalt
        · exact Or.inl hstep
        · exact Or.inr (Or.inl hhalt)
      | false =>
        have hsome := busy_of_no_worker hc hw
        have hbusy : (s.running.isEmpty && s.abandoned.isEmpty) = false := by
          rcases hsome with hsome | hsome <;> simp [hsome]
        have hs : s.step c = Next.of (s.wait c) := by
          rw [step, hp, hr]
          simp only [hw, hbusy]
          rfl
        rcases hwait (h.calls_ne_nil hsome) hs with hstep | hhalt
        · exact Or.inl hstep
        · exact Or.inr (Or.inl hhalt)
    | nil =>
      cases hrun : s.running with
      | nil =>
        refine Or.inr (Or.inr ⟨?_, fun p hplanned => h.settled_of_idle hc hp hr hrun hplanned⟩)
        rw [step, hp, hr, hrun]
        rfl
      | cons e rest =>
        have hs : s.step c = Next.of (s.wait c) := by
          rw [step, hp, hr]
          simp [hrun]
        rcases hwait (h.calls_ne_nil (Or.inl (by simp [hrun]))) hs with hstep | hhalt
        · exact Or.inl hstep
        · exact Or.inr (Or.inl hhalt)

/-! ### Many steps -/

/-- A state that a step leads to is tied and timely like the one before. -/
theorem Tied.of_step (hc : c.Checked requested) (h : Tied c base A s) (ht : Timely s)
    (hs : s.step c = .state s') : Timely s' ∧ Advances c base s s' := by
  rcases h.step_spec hc ht with ⟨t, hstep, htimely, ha⟩ | ⟨halt, hstep, -⟩ | ⟨hstep, -⟩
  · rw [hs, Next.state.injEq] at hstep
    subst hstep
    exact ⟨htimely, ha⟩
  · rw [hs] at hstep
    cases hstep
  · rw [hs] at hstep
    cases hstep

/-- Every state of a run is tied to a chart that keeps what was settled. -/
theorem Tied.steps (hc : c.Checked requested) {n : Nat} (hs : Steps c n s s') {A : Chart}
    (h : Tied c base A s) (ht : Timely s) :
    ∃ A', Tied c base A' s' ∧ Settles A A' ∧ Timely s' := by
  induction hs generalizing A with
  | refl s => exact ⟨A, h, fun p _ => rfl, ht⟩
  | next hstep _ ih =>
    obtain ⟨htimely, ha⟩ := h.of_step hc ht hstep
    obtain ⟨B, hB, hsettles, -⟩ := h.advances hc ha
    obtain ⟨A', hA', hsettles', htimely'⟩ := ih hB htimely
    exact ⟨A', hA', hsettles.trans hsettles', htimely'⟩

/-- **What every move keeps** is kept by a run. -/
theorem Steps.keeps (hc : c.Checked requested) {P : RunState → Prop}
    (htick : ∀ s t, P s → P { s with now := t })
    (hmove : ∀ A s s', Tied c base A s → Move c base s s' → P s → P s')
    {n : Nat} (hs : Steps c n s s') {A : Chart} (h : Tied c base A s) (ht : Timely s)
    (hP : P s) : P s' := by
  have hmoves {s s' : RunState} (hm : Relation.TransGen (Move c base) s s') {A : Chart}
      (h : Tied c base A s) (hP : P s) : P s' := by
    induction hm with
    | single hone => exact hmove A _ _ h hone hP
    | tail hfirst hone ih =>
      obtain ⟨B, hB, -⟩ := h.moves hc hfirst
      exact hmove B _ _ hB hone ih
  induction hs generalizing A with
  | refl s => exact hP
  | next hstep _ ih =>
    obtain ⟨htimely, t, hm⟩ := h.of_step hc ht hstep
    obtain ⟨B, hB, -⟩ := (h.tick t).moves hc hm
    exact ih hB htimely (hmoves hm (h.tick t) (htick _ t hP))

/-- **A whole run** ends after no more steps than there is to be done: with every pair settled, or
with a halt for which its last state is to blame. -/
theorem Tied.run_spec (hc : c.Checked requested) {fuel : Nat} {A : Chart} (h : Tied c base A s)
    (ht : Timely s) (hfuel : A.rest c s < fuel) :
    (∃ n ≤ A.rest c s, ∃ last A', Steps c n s last ∧ s.run c fuel = .ok last ∧
        last.step c = .finished ∧ Tied c base A' last ∧
        ∀ p, c.Planned p → (A' p).settled = true) ∨
      ∃ n ≤ A.rest c s, ∃ last A' halt, Steps c n s last ∧ s.run c fuel = .error halt ∧
        last.step c = .halted halt ∧ Tied c base A' last ∧ Blamed c base last halt := by
  induction fuel generalizing s A with
  | zero => omega
  | succ fuel ih =>
    rcases h.step_spec hc ht with ⟨s', hstep, htimely, ha⟩ | ⟨halt, hstep, hblame⟩ | ⟨hstep, hall⟩
    · obtain ⟨B, hB, -, hless⟩ := h.advances hc ha
      have hrun : s.run c (fuel + 1) = s'.run c fuel := by
        rw [RunState.run, hstep]
      rw [hrun]
      rcases ih hB htimely (by omega) with ⟨n, hn, last, A', hs, hend⟩ |
        ⟨n, hn, last, A', halt, hs, hend⟩
      · exact Or.inl ⟨n + 1, by omega, last, A', .next hstep hs, hend⟩
      · exact Or.inr ⟨n + 1, by omega, last, A', halt, .next hstep hs, hend⟩
    · refine Or.inr ⟨0, Nat.zero_le _, s, A, halt, .refl s, ?_, hstep, h, hblame⟩
      rw [RunState.run, hstep]
    · refine Or.inl ⟨0, Nat.zero_le _, s, A, .refl s, ?_, hstep, h, hall⟩
      rw [RunState.run, hstep]

/-! ### The beginning of a run -/

/-- The chart in which every pair waits. -/
def Chart.start : Chart := fun _ => .waiting

variable {sched : Scheduler} {plan : Plan} {phases : List Phase} {files : Files}

/-- **A run begins** in a state that is tied to the chart in which every pair waits. -/
theorem tied_initial (hc : (sched.setup plan).Checked requested) (phases : List Phase)
    (files : Files) (hg : sched.resolver.graph = sched.graph) :
    Tied (sched.setup plan) (sched.initial plan phases files) .start
      (sched.initial plan phases files) := by
  have hnodup : (Table.keys plan).Nodup := hc.nodup
  refine ⟨⟨fun p _ => rfl, ?_, ?_, fun p => rfl, hg, fun fqn => rfl, fun fqn => rfl, rfl, rfl, ?_,
    List.nodup_nil, fun ctx => ⟨fun hm => (by cases hm), fun hm => (by cases hm)⟩⟩,
    fun p => .waiting, ⟨⟨?_, ?_⟩, ⟨List.nodup_nil, ?_⟩, fun item hm => (by cases hm),
    ⟨List.nodup_nil, ?_⟩, List.nodup_nil, fun p hm => (by cases hm), List.nodup_nil, ?_,
    fun call hm => (by cases hm)⟩⟩
  · change Table.keys ((plan.map Prod.fst).map fun p => (p, ({} : Outcome))) = Table.keys plan
    simp [Table.keys]
  · intro p hp
    change (Table.get? p ((Table.keys plan).map fun p => (p, ({} : Outcome)))).map
      Outcome.untimed = _
    rw [Table.get?_map_keys, if_pos (show p ∈ Table.keys plan from hp)]
    rfl
  · have hnone : ((Table.keys (sched.setup plan).plan).any fun p => (Chart.start p).saved) =
        false := List.any_eq_false.mpr fun p _ => by simp [Chart.start, Standing.saved]
    rw [hnone]
    rfl
  · exact hnodup.sublist (List.filter_sublist.map Prod.fst)
  · intro p
    have hwaits {ws : List Pair} (hm : (p, ws) ∈ plan) : (sched.setup plan).waits p = ws :=
      Setup.waits_of_mem hnodup hm
    constructor
    · intro hm
      obtain ⟨e, he, rfl⟩ := List.mem_map.mp hm
      obtain ⟨hmem, hnil⟩ := List.mem_filter.mp he
      refine ⟨by simp, List.mem_map_of_mem (f := Prod.fst) hmem, rfl, fun w hw => ?_⟩
      rw [hwaits hmem, List.isEmpty_iff.mp hnil] at hw
      cases hw
    · rintro ⟨-, hp, -, hsettled⟩
      obtain ⟨e, he, rfl⟩ := List.mem_map.mp hp
      refine List.mem_map_of_mem (List.mem_filter.mpr ⟨he, ?_⟩)
      rw [List.isEmpty_iff, List.eq_nil_iff_forall_not_mem]
      intro w hw
      have := hsettled w (by rw [hwaits he]; exact hw)
      cases this
  · intro p
    simp [Scheduler.initial, report, Chart.start, Standing.isReady]
  · intro p
    simp [Scheduler.initial, report, Chart.start, Standing.isRunning, Table.keys]
  · intro p
    simp [Scheduler.initial, report, Table.keys]

/-- At the beginning four things are to be done for each pair. -/
theorem rest_initial :
    Chart.start.rest (sched.setup plan) (sched.initial plan phases files) = 4 * plan.length := by
  have hsum (keys : List Pair) :
      (keys.map fun p => (Chart.start p).weight).sum = 4 * keys.length := by
    induction keys with
    | nil => rfl
    | cons k rest ih =>
      rw [List.map_cons, List.sum_cons, ih, List.length_cons]
      change 4 + _ = _
      omega
  change ((Table.keys plan).map fun p => (Chart.start p).weight).sum + 0 = _
  rw [hsum, Table.keys, List.length_map]
  omega

theorem timely_initial : Timely (sched.initial plan phases files) := by
  intro p task hget
  cases hget

end Rollout
