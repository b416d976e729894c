import Rollout.Proofs.Run.Contained
import Rollout.Proofs.Run.Evaluated

/-!
# Workers

A call occupies a worker from the moment at which it is made until it returns, even if the time of
its pair is up before. A run makes a call only when a worker is free, waits only when no worker is
free or nothing is ready, and starts the first of the ready pairs: the earliest phase, and within the
phase the unit that is declared first.

**Types.** `Doing`, `RunState.SameWork`, `RunState.Launches`, `Staffed`, `Scheduler.Passes`.

**Operations.** `RunState.next`, `RunState.carry`.

**Results.**
* `RunState.step_eq`: a step does what is next;
* `calls_of_step`: only the start of a ready pair makes a call;
* `Staffed.move`: every move keeps the ready pairs in order and the calls within the workers;
* `workers_bounded_greedy_prioritised`: how the workers are used at every moment of every run.
-/

namespace Rollout

open RunState

/-! ### What a run does next -/

/-- What a run can do next. -/
inductive Doing
  | consider (x : Pair)
  | start (item : Ready)
  | wait
  | finish

/-- What a run does next: it considers the first promoted pair; without one, it starts the first
ready pair if a worker is free; without one of these, it waits as long as there is something to wait
for. -/
def RunState.next (c : Setup) (s : RunState) : Doing :=
  match s.promoted, s.ready with
  | x :: _, _ => .consider x
  | [], item :: _ =>
    if s.hasWorker c then .start item
    else if s.running.isEmpty && s.abandoned.isEmpty then .finish
    else .wait
  | [], [] => if s.running.isEmpty then .finish else .wait

/-- Do something. -/
def RunState.carry (c : Setup) (s : RunState) : Doing → Next
  | .consider x => .of ({ s with promoted := s.promoted.tail }.consider c x)
  | .start item => .of ({ s with ready := s.ready.tail }.start c item)
  | .wait => .of (s.wait c)
  | .finish => .finished

variable {c : Setup} {requested : List Phase} {base s s' t : RunState} {A : Chart} {p q : Pair}

/-- **A step** does what is next. -/
theorem RunState.step_eq (c : Setup) (s : RunState) : s.step c = s.carry c (s.next c) := by
  rw [step, next]
  cases hp : s.promoted with
  | cons x rest => simp [carry, hp]
  | nil =>
    cases hr : s.ready with
    | cons item rest =>
      dsimp only
      split
      · simp [carry, hp, hr]
      · split <;> rfl
    | nil =>
      dsimp only
      split <;> rfl

theorem RunState.of_next_start {item : Ready} (h : s.next c = .start item) :
    s.hasWorker c = true ∧ ∃ rest, s.ready = item :: rest := by
  unfold next at h
  split at h
  · cases h
  · rename_i first rest _ hr
    split at h
    · rename_i hw
      obtain rfl : first = item := by simpa using h
      exact ⟨hw, rest, hr⟩
    · split at h <;> cases h
  · split at h <;> cases h

theorem RunState.of_next_wait (h : s.next c = .wait) (hr : s.ready ≠ []) :
    s.hasWorker c = false := by
  unfold next at h
  split at h
  · cases h
  · split at h
    · cases h
    · rename_i hw
      simpa using hw
  · rename_i hnil
    exact absurd hnil hr

/-! ### Where calls are made -/

/-- The same executors are at work, at the same moment. -/
structure RunState.SameWork (s s' : RunState) : Prop where
  now : s'.now = s.now
  running : s'.running = s.running
  abandoned : s'.abandoned = s.abandoned
  calls : s'.calls = s.calls
  contexts : s'.contexts = s.contexts

namespace RunState.SameWork

theorem recordOutputs {fqn : String} {outputs : Entries}
    (h : s.recordOutputs fqn outputs = .ok s') : s.SameWork s' := by
  unfold RunState.recordOutputs at h
  split at h
  · cases h
  · dsimp only at h
    split at h
    · cases h
    · obtain rfl := Except.ok.inj h
      exact ⟨rfl, rfl, rfl, rfl, rfl⟩

theorem reuse {digest : String} (h : s.reuse p digest = .ok s') : s.SameWork s' := by
  rw [reuse_eq] at h
  split at h
  · have hsame := recordOutputs h
    exact ⟨hsame.now, hsame.running, hsame.abandoned, hsame.calls, hsame.contexts⟩
  · obtain rfl := Except.ok.inj h
    exact ⟨rfl, rfl, rfl, rfl, rfl⟩

theorem compare {n : Node} {resolved : Option Resolved}
    (h : s.compare c p n resolved = .ok s') : s.SameWork s' := by
  unfold RunState.compare at h
  split at h
  · cases h
  · dsimp only at h
    split at h
    · obtain ⟨t, ht, rfl⟩ := eq_ok_of_map h
      have hsame := reuse ht
      exact ⟨hsame.now, hsame.running, hsame.abandoned, hsame.calls, hsame.contexts⟩
    · obtain rfl := Except.ok.inj h
      exact ⟨rfl, rfl, rfl, rfl, rfl⟩

theorem consider (h : s.consider c p = .ok s') : s.SameWork s' := by
  unfold RunState.consider at h
  split at h
  · obtain rfl := Except.ok.inj h
    exact ⟨rfl, rfl, rfl, rfl, rfl⟩
  · cases h
  · split at h
    · split at h
      · exact compare h
      · split at h
        · obtain rfl := Except.ok.inj h
          exact ⟨rfl, rfl, rfl, rfl, rfl⟩
        · cases h
    · exact compare h

/-- Success is published and saved by a state at whose work nothing changes. -/
theorem succeed {task : Task} {call : Call} {outputs : Option Entries}
    (h : s.succeed c p task call outputs = .ok s') : s.SameWork s' := by
  have hsave {t : RunState} {snapshot : Option Value} {outputs : Option Entries} {ms : Rat}
      (hs : saveSuccess c p task snapshot outputs ms t = .ok s') : t.SameWork s' := by
    unfold saveSuccess at hs
    dsimp only at hs
    split at hs
    · cases hs
    · obtain rfl := Except.ok.inj hs
      exact ⟨rfl, rfl, rfl, rfl, rfl⟩
  rw [succeed_eq] at h
  split at h
  · obtain ⟨t, ht, hs⟩ := eq_ok_of_bind h
    have hfirst := recordOutputs ht
    have hthen := hsave hs
    exact ⟨hthen.now.trans hfirst.now, hthen.running.trans hfirst.running,
      hthen.abandoned.trans hfirst.abandoned, hthen.calls.trans hfirst.calls,
      hthen.contexts.trans hfirst.contexts⟩
  · exact hsave h

end RunState.SameWork

/-- What taking in the answer of a call does to the executors at work. -/
structure RunState.Delivered (call : Call) (s s' : RunState) : Prop where
  now : s'.now = s.now
  calls : s'.calls = s.calls
  contexts : s'.contexts = s.contexts
  running : s'.running =
    if call.pair ∈ s.abandoned then s.running else Table.erase call.pair s.running
  abandoned : s'.abandoned = s.abandoned.erase call.pair

theorem RunState.delivered {call : Call} (h : s.deliver c call = .ok s') : Delivered call s s' := by
  unfold deliver at h
  split at h
  · rename_i ha
    obtain rfl := Except.ok.inj h
    exact ⟨rfl, rfl, rfl, (if_pos (by simpa using ha)).symm, rfl⟩
  · rename_i ha
    have ha : call.pair ∉ s.abandoned := by simpa using ha
    have herase : s.abandoned.erase call.pair = s.abandoned := List.erase_of_not_mem ha
    split at h
    · rename_i hnone
      obtain rfl := Except.ok.inj h
      refine ⟨rfl, rfl, rfl, ?_, herase.symm⟩
      rw [if_neg ha, Table.erase_of_get?_eq_none hnone]
    · dsimp only at h
      split at h
      · obtain ⟨t, ht, rfl⟩ := eq_ok_of_map h
        have hsame := SameWork.succeed ht
        exact ⟨hsame.now, hsame.calls, hsame.contexts, by rw [if_neg ha]; exact hsame.running,
          by rw [herase]; exact hsame.abandoned⟩
      · obtain rfl := Except.ok.inj h
        exact ⟨rfl, rfl, rfl, (if_neg ha).symm, herase.symm⟩

/-- Giving up a pair makes no call return, and takes no time. -/
theorem RunState.expireOne_frame (c : Setup) (s : RunState) (e : Pair × Task) :
    (expireOne c s e).now = s.now ∧ (expireOne c s e).calls = s.calls ∧
      (expireOne c s e).contexts = s.contexts := by
  unfold expireOne
  split
  · exact ⟨rfl, rfl, rfl⟩
  · split <;> exact ⟨rfl, rfl, rfl⟩

/-- Giving up pairs makes no call return, and takes no time. -/
theorem RunState.foldl_expireOne_frame (c : Setup) (todo : Table Pair Task) (s : RunState) :
    (todo.foldl (expireOne c) s).now = s.now ∧ (todo.foldl (expireOne c) s).calls = s.calls ∧
      (todo.foldl (expireOne c) s).contexts = s.contexts := by
  induction todo generalizing s with
  | nil => exact ⟨rfl, rfl, rfl⟩
  | cons e rest ih =>
    obtain ⟨hnow, hcalls, hcontexts⟩ := expireOne_frame c s e
    obtain ⟨hnow', hcalls', hcontexts'⟩ := ih (expireOne c s e)
    rw [List.foldl_cons]
    exact ⟨hnow'.trans hnow, hcalls'.trans hcalls, hcontexts'.trans hcontexts⟩

theorem RunState.expire_frame (c : Setup) (s : RunState) : (s.expire c).now = s.now ∧
    (s.expire c).calls = s.calls ∧ (s.expire c).contexts = s.contexts :=
  foldl_expireOne_frame c s.running s

/-- Waiting makes no calls. -/
theorem RunState.wait_frame (h : s.wait c = .ok s') :
    s'.calls.Sublist s.calls ∧ s'.contexts = s.contexts := by
  have hexpire (t : RunState) (ht : t.calls.Sublist s.calls) (hcontexts : t.contexts = s.contexts) :
      (t.expire c).calls.Sublist s.calls ∧ (t.expire c).contexts = s.contexts := by
    obtain ⟨-, hcalls, hsame⟩ := expire_frame c t
    exact ⟨hcalls ▸ ht, hsame.trans hcontexts⟩
  unfold wait at h
  split at h
  · split at h
    · obtain ⟨t, ht, rfl⟩ := eq_ok_of_map h
      have hdelivered := delivered ht
      exact hexpire t (hdelivered.calls ▸ List.filter_sublist) hdelivered.contexts
    · rw [← Except.ok.inj h]
      exact hexpire _ (List.Sublist.refl _) rfl
  · rw [← Except.ok.inj h]
    exact hexpire _ (List.Sublist.refl _) rfl

/-- A start that does not halt hands a context to the executor of the pair. -/
theorem RunState.of_start {item : Ready} (h : s.start c item = .ok s') :
    ∃ n timeout work ctx, c.graph.node? item.pair.fqn = some n ∧
      Table.get? item.pair.phase c.executors = some ⟨timeout, some work⟩ ∧
      context c item.pair n.unit item.resolved = .ok ctx ∧ s' = s.launch item timeout work ctx := by
  unfold start at h
  dsimp only at h
  split at h
  · rename_i n timeout work hn he
    split at h
    · cases h
    · rename_i ctx hctx
      exact ⟨n, timeout, work, ctx, hn, he, hctx, (Except.ok.inj h).symm⟩
  · cases h
  · cases h

theorem Next.of_eq_state {attempt : Except Halt RunState} (h : Next.of attempt = .state s') :
    attempt = .ok s' := by
  cases attempt with
  | ok t =>
    obtain rfl := Next.state.inj h
    rfl
  | error halt => cases h

/-- A step starts a pair: it hands a context to the executor of the first ready pair, makes a call and
reports the start, and does nothing else. -/
structure RunState.Launches (c : Setup) (s s' : RunState) (item : Ready) (call : Call) : Prop where
  next : s.next c = .start item
  pair : call.pair = item.pair
  made : s'.calls = s.calls ++ [call]
  started : s'.journal = s.journal ++ [⟨.started item.pair, s.files⟩]
  work : ∃ n timeout work ctx, c.graph.node? item.pair.fqn = some n ∧
    Table.get? item.pair.phase c.executors = some ⟨timeout, some work⟩ ∧
    context c item.pair n.unit item.resolved = .ok ctx ∧
    call = ⟨item.pair, s.now, s.now + (work ctx s.files).seconds, work ctx s.files⟩ ∧
    s' = { s with ready := s.ready.tail }.launch item timeout work ctx

/-- A step that starts what is ready does so as described. -/
theorem RunState.launches_of_step {item : Ready} (hn : s.next c = .start item)
    (h : s.step c = .state s') : ∃ call, Launches c s s' item call := by
  rw [step_eq, hn] at h
  obtain ⟨n, timeout, work, ctx, hnode, he, hctx, rfl⟩ := of_start (Next.of_eq_state h)
  exact ⟨_, hn, rfl, rfl, rfl, n, timeout, work, ctx, hnode, he, hctx, rfl, rfl⟩

/-- **Only the start** of a ready pair makes a call and hands out a context. -/
theorem calls_of_step (h : s.step c = .state s') :
    (∃ item call, Launches c s s' item call) ∨
      s'.calls.Sublist s.calls ∧ s'.contexts = s.contexts := by
  cases hn : s.next c with
  | consider x =>
    rw [step_eq, hn] at h
    have hsame := SameWork.consider (Next.of_eq_state h)
    exact Or.inr ⟨by rw [hsame.calls], hsame.contexts⟩
  | start item => exact Or.inl ⟨item, launches_of_step hn h⟩
  | wait =>
    rw [step_eq, hn] at h
    exact Or.inr (wait_frame (Next.of_eq_state h))
  | finish =>
    rw [step_eq, hn] at h
    cases h

/-! ### The workers of a run -/

/-- A ready pair that is started before another one comes before it. -/
theorem rankLe_of_readyLe {a b : Ready} (ha : a.index = c.index a.pair.fqn)
    (hb : b.index = c.index b.pair.fqn) (h : readyLe a b = true) : c.rankLe a.pair b.pair = true := by
  rw [Setup.rankLe_iff, ← ha, ← hb]
  simp only [readyLe, Bool.or_eq_true, Bool.and_eq_true, decide_eq_true_eq, beq_iff_eq] at h
  omega

theorem readyLe_total (a b : Ready) : readyLe a b = true ∨ readyLe b a = true := by
  simp only [readyLe, Bool.or_eq_true, Bool.and_eq_true, decide_eq_true_eq, beq_iff_eq]
  rcases String.le_total a.pair.fqn b.pair.fqn with hle | hle
  · simp only [hle, and_true]
    omega
  · simp only [hle, and_true]
    omega

theorem readyLe_trans (a b d : Ready) (hab : readyLe a b = true) (hbd : readyLe b d = true) :
    readyLe a d = true := by
  simp only [readyLe, Bool.or_eq_true, Bool.and_eq_true, decide_eq_true_eq, beq_iff_eq] at hab hbd ⊢
  rcases hab with hab | ⟨hab, hab' | ⟨hab', hle⟩⟩
  · omega
  · omega
  · rcases hbd with hbd | ⟨hbd, hbd' | ⟨hbd', hle'⟩⟩
    · omega
    · omega
    · exact Or.inr ⟨hab.trans hbd, Or.inr ⟨hab'.trans hbd', String.le_trans hle hle'⟩⟩

/-- The ready pairs of a state are in order, and no more calls have been made than there are
workers. -/
structure Staffed (c : Setup) (s : RunState) : Prop where
  sorted : s.ready.Pairwise fun a b => readyLe a b = true
  placed : ∀ item ∈ s.ready, item.index = c.index item.pair.fqn
  bounded : s.calls.length ≤ c.maxWorkers

/-- Every call that has not returned is one of a running pair or of one whose time is up. -/
theorem Queued.length_calls (h : Queued c A none s) :
    s.calls.length = s.running.length + s.abandoned.length := by
  have hdisjoint : ∀ a ∈ Table.keys s.running, ∀ b ∈ s.abandoned, a ≠ b := by
    rintro a ha b hb rfl
    obtain ⟨digest, ctx, hA⟩ := exists_of_isRunning (h.running.mem_iff'.mp ha)
    exact h.not_abandoned hA hb
  have hperm : (s.calls.map Call.pair).Perm (Table.keys s.running ++ s.abandoned) := by
    refine (List.perm_ext_iff_of_nodup h.calls_nodup ?_).mpr fun p => ?_
    · exact List.nodup_append.mpr ⟨h.running.nodup, h.abandoned_nodup, hdisjoint⟩
    · rw [h.mem_calls p, List.mem_append]
  have hlength := hperm.length_eq
  rwa [List.length_map, List.length_append, Table.keys, List.length_map] at hlength

/-- **Every move** keeps the ready pairs in order and the calls within the workers. -/
theorem Staffed.move (ht : Tied c base A s) (hm : Move c base s s') (h : Staffed c s) :
    Staffed c s' := by
  have hfewer (x : Pair) :
      (s.calls.filter fun other => other.pair != x).length ≤ c.maxWorkers :=
    (List.filter_sublist.length_le).trans h.bounded
  cases hm with
  | skip hp hv => exact ⟨h.sorted, h.placed, h.bounded⟩
  | miss hp hv => exact ⟨h.sorted, h.placed, h.bounded⟩
  | reuse hp hv => exact ⟨h.sorted, h.placed, h.bounded⟩
  | @ready x rest digest resolved hp hv =>
    refine ⟨Sorting.pairwise_insert readyLe_total readyLe_trans _ h.sorted, ?_, h.bounded⟩
    intro item hitem
    rcases List.mem_cons.mp ((Sorting.insert_perm readyLe _ _).mem_iff.mp hitem) with rfl | hitem
    · rfl
    · exact h.placed item hitem
  | @start item rest n timeout work ctx hr hw hn he hctx =>
    have hsorted := h.sorted
    have hfree : s.running.length + s.abandoned.length < c.maxWorkers := of_decide_eq_true hw
    rw [hr] at hsorted
    refine ⟨(List.pairwise_cons.mp hsorted).2, fun other hm => ?_, ?_⟩
    · exact h.placed other (by rw [hr]; exact List.mem_cons_of_mem _ hm)
    · change (s.calls ++ [_]).length ≤ c.maxWorkers
      rw [List.length_append, List.length_singleton, ht.queued.length_calls]
      omega
  | succeed hcall hrun hintime ha hg => exact ⟨h.sorted, h.placed, hfewer _⟩
  | fail hcall hrun hintime ha => exact ⟨h.sorted, h.placed, hfewer _⟩
  | timeout hrun hd hlate => exact ⟨h.sorted, h.placed, h.bounded⟩
  | late ha => exact ⟨h.sorted, h.placed, hfewer _⟩

/-- A state that a run of a scheduler passes through. -/
structure Scheduler.Passes (sched : Scheduler) (phases : List Phase) (files : Files) (plan : Plan)
    (t : RunState) : Prop where
  check : checkExecutors sched.executors sched.graph (requestedPhases phases) = .ok ()
  planned : sched.graph.plan (requestedPhases phases) = .ok plan
  steps : ∃ n, Steps (sched.setup plan) n (sched.initial plan (requestedPhases phases) files) t

/-- One more step after a number of steps. -/
theorem Steps.snoc {n : Nat} (h : Steps c n s t) {t' : RunState} (hs : t.step c = .state t') :
    Steps c (n + 1) s t' := by
  induction h with
  | refl s => exact .next hs (.refl t')
  | next h _ ih => exact .next h (ih hs)

namespace Scheduler.Passes

variable {sched : Scheduler} {phases : List Phase} {files : Files} {plan : Plan}

theorem checked (h : sched.Passes phases files plan t) (husable : sched.Usable) :
    (sched.setup plan).Checked (requestedPhases phases) :=
  husable.setup h.check h.planned

theorem tied (h : sched.Passes phases files plan t) (husable : sched.Usable) :
    ∃ A, Tied (sched.setup plan) (sched.initial plan (requestedPhases phases) files) A t ∧
      Timely t := by
  obtain ⟨n, hsteps⟩ := h.steps
  have hc := h.checked husable
  obtain ⟨A, hA, -, htimely⟩ :=
    (tied_initial hc (requestedPhases phases) files husable.resolver).steps hc hsteps timely_initial
  exact ⟨A, hA, htimely⟩

theorem staffed (h : sched.Passes phases files plan t) (husable : sched.Usable) :
    Staffed (sched.setup plan) t := by
  obtain ⟨n, hsteps⟩ := h.steps
  have hc := h.checked husable
  refine hsteps.keeps hc (fun s now hs => ⟨hs.sorted, hs.placed, hs.bounded⟩)
    (fun A s s' ht hm hs => hs.move ht hm)
    (tied_initial hc (requestedPhases phases) files husable.resolver) timely_initial ?_
  exact ⟨List.Pairwise.nil, nofun, Nat.zero_le _⟩

end Scheduler.Passes

/-- The ready pairs of a state are those with the status. -/
theorem Tied.mem_ready_iff (h : Tied c base A s) : p ∈ s.ready.map Ready.pair ↔ s.status p = .ready := by
  rw [h.queued.ready.mem_iff', h.shown.status]
  cases A p <;> simp [Standing.isReady, Standing.status, Standing.outcome]

/-- The first ready pair comes before all others. -/
theorem Staffed.rankLe_of_ready (h : Staffed c s) (ht : Tied c base A s) {item : Ready}
    {rest : List Ready} (hr : s.ready = item :: rest) (hq : s.status q = .ready) :
    c.rankLe item.pair q = true := by
  obtain ⟨other, hother, rfl⟩ := List.mem_map.mp (ht.mem_ready_iff.mpr hq)
  have hsorted := h.sorted
  rw [hr] at hsorted
  refine rankLe_of_readyLe (h.placed item (by rw [hr]; exact List.mem_cons_self))
    (h.placed other hother) ?_
  rw [hr] at hother
  rcases List.mem_cons.mp hother with rfl | hother
  · exact (readyLe_total other other).elim (fun hle => hle) fun hle => hle
  · exact (List.pairwise_cons.mp hsorted).1 other hother

/-- **How the workers are used.** A scheduler over any graph runs any phases, with executors that
take any time, have any limits and answer anything. At every moment of the run, the calls that have
not returned are those of the running pairs and of the pairs whose time is up, and there are no more
of them than there are workers. When the run waits although a pair is ready, running pairs and pairs
whose time is up occupy all workers. And when a step makes a call, which it reports as the start of
the pair, then the pair has been ready, and no ready pair is of an earlier phase, or of the same
phase and a unit that is declared earlier. -/
theorem workers_bounded_greedy_prioritised {sched : Scheduler} (hs : sched.Usable)
    {phases : List Phase} {files : Files} {plan : Plan} (h : sched.Passes phases files plan t) :
    (t.calls.length = t.running.length + t.abandoned.length ∧
      t.calls.length ≤ sched.maxWorkers) ∧
    (t.next (sched.setup plan) = .wait → (∃ p, t.status p = .ready) →
      t.running.length + t.abandoned.length = sched.maxWorkers) ∧
    ∀ t', t.step (sched.setup plan) = .state t' → ∀ call ∈ t'.calls, call ∉ t.calls →
      t'.journal = t.journal ++ [⟨.started call.pair, t.files⟩] ∧ t.status call.pair = .ready ∧
      ∀ q, t.status q = .ready →
        call.pair.phase.index < q.phase.index ∨ call.pair.phase.index = q.phase.index ∧
          (sched.setup plan).index call.pair.fqn ≤ (sched.setup plan).index q.fqn := by
  obtain ⟨A, ht, -⟩ := h.tied hs
  have hstaffed := h.staffed hs
  have hlength := ht.queued.length_calls
  have hbounded : t.calls.length ≤ sched.maxWorkers := hstaffed.bounded
  refine ⟨⟨hlength, hbounded⟩, ?_, ?_⟩
  · rintro hnext ⟨p, hp⟩
    have hready : t.ready ≠ [] := by
      intro hnil
      have hm := ht.mem_ready_iff.mpr hp
      rw [hnil] at hm
      cases hm
    have hfull : ¬t.running.length + t.abandoned.length < sched.maxWorkers :=
      of_decide_eq_false (of_next_wait hnext hready)
    omega
  · intro t' hstep call hcall hnew
    rcases calls_of_step hstep with ⟨item, made, hmade⟩ | ⟨hsub, -⟩
    · obtain ⟨-, rest, hr⟩ := of_next_start hmade.next
      rw [hmade.made] at hcall
      obtain rfl := List.mem_singleton.mp ((List.mem_append.mp hcall).resolve_left hnew)
      rw [hmade.pair]
      refine ⟨hmade.started, ht.mem_ready_iff.mp ?_, fun q hq => ?_⟩
      · rw [hr]
        exact List.mem_cons_self
      · exact Setup.rankLe_iff.mp (hstaffed.rankLe_of_ready ht hr hq)
    · exact absurd (hsub.subset hcall) hnew

namespace Shop

/-- A service that needs nothing. -/
def cache : UnitDef := { database with name := "cache" }

/-- A shop with one worker for two services that need nothing. -/
def cramped : Scheduler := scheduler [database, cache] 1 (executors 7)

/-- In the shop with one worker nothing waits for anything else. -/
def apart : Plan := [(⟨"shop.service.db", .deploy⟩, []), (⟨"shop.service.cache", .deploy⟩, [])]

/-- The state after some steps of the deployments in the shop with one worker. -/
def crampedAfter (n : Nat) : Option RunState :=
  (cramped.initial apart (requestedPhases [.deploy]) []).after (cramped.setup apart) n

theorem passes_cramped {n : Nat} {t : RunState} (h : crampedAfter n = some t) :
    cramped.Passes [.deploy] [] apart t :=
  ⟨by rfl, by rfl, n, Steps.of_after h⟩

/-- After two steps the next one hands a deployment to the only worker, and then there is nothing to
do but to wait. -/
theorem occupied_cramped : (crampedAfter 2).any (fun t => t.calls.isEmpty &&
    t.status ⟨"shop.service.cache", .deploy⟩ == .ready &&
    match t.step (cramped.setup apart) with
    | .state t' => t'.calls.any (fun call => call.pair.phase == .deploy) &&
      t'.status ⟨"shop.service.cache", .deploy⟩ == .ready &&
      match t'.next (cramped.setup apart) with
      | .wait => true
      | _ => false
    | _ => false) = true := by decide +kernel

end Shop

/-- In the shop with one worker, two steps lead to a state in which both services are ready. The next
step starts the database, which is declared first, and then the run waits although the cache is
ready. -/
theorem workers_bounded_greedy_prioritised_shop : ∃ t t' call,
    Shop.cramped.Usable ∧ Shop.cramped.Passes [.deploy] [] Shop.apart t ∧
    Shop.cramped.Passes [.deploy] [] Shop.apart t' ∧
    t.step (Shop.cramped.setup Shop.apart) = .state t' ∧ call ∈ t'.calls ∧ call ∉ t.calls ∧
    t.status call.pair = .ready ∧ t.status ⟨"shop.service.cache", .deploy⟩ = .ready ∧
    (Shop.cramped.setup Shop.apart).index call.pair.fqn ≤
      (Shop.cramped.setup Shop.apart).index "shop.service.cache" ∧
    t'.next (Shop.cramped.setup Shop.apart) = .wait ∧
    t'.status ⟨"shop.service.cache", .deploy⟩ = .ready ∧
    t'.running.length + t'.abandoned.length = 1 := by
  have husable : Shop.cramped.Usable := ⟨by rfl, by decide⟩
  obtain ⟨t, ht, hfirst⟩ := (Option.any_eq_true _ _).mp Shop.occupied_cramped
  cases hstep : t.step (Shop.cramped.setup Shop.apart) with
  | halted halt => simp [hstep] at hfirst
  | finished => simp [hstep] at hfirst
  | state t' =>
    simp only [hstep, Bool.and_eq_true, List.any_eq_true, beq_iff_eq] at hfirst
    obtain ⟨⟨hnone, hready⟩, ⟨⟨call, hcall, hphase⟩, hready'⟩, hwait⟩ := hfirst
    have hnext : t'.next (Shop.cramped.setup Shop.apart) = .wait := by
      cases hn : t'.next (Shop.cramped.setup Shop.apart) <;> simp [hn] at hwait ⊢
    have hnew : call ∉ t.calls := by
      rw [List.isEmpty_iff.mp hnone]
      exact List.not_mem_nil
    have hpasses := Shop.passes_cramped ht
    have hpasses' : Shop.cramped.Passes [.deploy] [] Shop.apart t' := by
      obtain ⟨n, hsteps⟩ := hpasses.steps
      exact ⟨by rfl, by rfl, n + 1, hsteps.snoc hstep⟩
    obtain ⟨-, -, hstarts⟩ := workers_bounded_greedy_prioritised husable hpasses
    obtain ⟨-, hgreedy, -⟩ := workers_bounded_greedy_prioritised husable hpasses'
    obtain ⟨-, hstatus, hleast⟩ := hstarts t' hstep call hcall hnew
    refine ⟨t, t', call, husable, hpasses, hpasses', hstep, hcall, hnew, hstatus, hready, ?_, hnext,
      hready', hgreedy hnext ⟨_, hready'⟩⟩
    rcases hleast _ hready with hphase' | ⟨-, hindex⟩
    · rw [hphase] at hphase'
      exact absurd hphase' (Nat.lt_irrefl _)
    · exact hindex

end Rollout
