import Rollout.Proofs.Run.Workers

/-!
# Deadlines

The time of a started pair is up when its executor takes longer than its limit. What the other pairs
do makes no difference, with one exception: a wait takes in one answer and then gives up every pair
whose deadline has come. So a pair whose executor returns exactly at the deadline is given up if
another call returns at that very moment and was made earlier, even though the executor has kept to
its limit.

**Types.** `Pending`, `Overdue`.

**Results.**
* `firstCall?_place`: where the call that returns first stands among the others;
* `Pending.step`: what a step makes of a call that is pending;
* `Pending.settles`: so a pending call ends as its limit and the earlier calls decide;
* `timeouts_exact_up_to_ties`: which started pairs run out of time;
* `timeout_of_tie`: two executors that take as long as they may, of which one runs out of time.
-/

namespace Rollout

open RunState

variable {c : Setup} {requested : List Phase} {base s s' t last : RunState} {A : Chart} {p : Pair}
  {call : Call}

/-! ### The call that returns first -/

/-- Of two calls the one that returns first, the first one if they return together. -/
def sooner (best : Option Call) (call : Call) : Option Call :=
  match best with
  | some b => if call.due < b.due then some call else best
  | none => some call

theorem firstCall?_eq (calls : List Call) : firstCall? calls = calls.foldl sooner none := rfl

/-- A call is passed over for a later made one only if that one is due earlier. -/
theorem foldl_sooner {later : List Call} {b m : Call} (h : later.foldl sooner (some b) = some m) :
    m = b ∨ m ∈ later ∧ m.due < b.due := by
  induction later generalizing b with
  | nil => exact Or.inl (Option.some.inj h).symm
  | cons call later ih =>
    rw [List.foldl_cons, sooner] at h
    split at h
    · rename_i hlt
      rcases ih h with rfl | ⟨hm, hless⟩
      · exact Or.inr ⟨List.mem_cons_self, hlt⟩
      · exact Or.inr ⟨List.mem_cons_of_mem _ hm, hless.trans hlt⟩
    · rcases ih h with rfl | ⟨hm, hless⟩
      · exact Or.inl rfl
      · exact Or.inr ⟨List.mem_cons_of_mem _ hm, hless⟩

/-- **Where the call that returns first stands**: it was made before a given call; or it is that
call, and the calls made before are due later; or it was made after that call, and is due earlier. -/
theorem firstCall?_place {earlier later : List Call} {m : Call}
    (h : firstCall? (earlier ++ call :: later) = some m) :
    m ∈ earlier ∨ (m = call ∧ ∀ other ∈ earlier, call.due < other.due) ∨
      m ∈ later ∧ m.due < call.due := by
  rw [firstCall?_eq, List.foldl_append, List.foldl_cons, ← firstCall?_eq] at h
  cases hb : firstCall? earlier with
  | none =>
    rw [hb] at h
    rcases foldl_sooner h with rfl | hm
    · exact Or.inr (Or.inl ⟨rfl, by simp [(firstCall?_spec earlier).1 hb]⟩)
    · exact Or.inr (Or.inr hm)
  | some b =>
    obtain ⟨hmem, hleast⟩ := (firstCall?_spec earlier).2 b hb
    rw [hb, sooner] at h
    split at h
    · rename_i hlt
      rcases foldl_sooner h with rfl | hm
      · exact Or.inr (Or.inl ⟨rfl, fun other ho => lt_of_lt_of_le hlt (hleast other ho)⟩)
      · exact Or.inr (Or.inr hm)
    · rename_i hge
      rcases foldl_sooner h with rfl | ⟨hm, hless⟩
      · exact Or.inl hmem
      · exact Or.inr (Or.inr ⟨hm, lt_of_lt_of_le hless (le_of_not_gt hge)⟩)

/-! ### Giving up -/

/-- Giving up one pair leaves the others alone. -/
theorem RunState.expireOne_of_ne {e : Pair × Task} (hne : p ≠ e.1) :
    Table.get? p (expireOne c s e).running = Table.get? p s.running ∧
      Table.get? p (expireOne c s e).outcomes = Table.get? p s.outcomes := by
  unfold expireOne
  split
  · exact ⟨rfl, rfl⟩
  · split
    · exact ⟨Table.get?_erase_of_ne hne _, by
        change Table.get? p (Table.modify e.1 _ s.outcomes) = _
        rw [Table.get?_modify, if_neg hne]⟩
    · exact ⟨rfl, rfl⟩

theorem RunState.foldl_expireOne_of_not_mem {todo : Table Pair Task} (hp : p ∉ Table.keys todo) :
    Table.get? p (todo.foldl (expireOne c) s).running = Table.get? p s.running ∧
      Table.get? p (todo.foldl (expireOne c) s).outcomes = Table.get? p s.outcomes := by
  induction todo generalizing s with
  | nil => exact ⟨rfl, rfl⟩
  | cons e rest ih =>
    obtain ⟨hne, hrest⟩ := not_or.mp (fun h => hp (List.mem_cons.mpr h))
    obtain ⟨hrun, hout⟩ := expireOne_of_ne (c := c) (s := s) hne
    obtain ⟨hrun', hout'⟩ := ih (s := expireOne c s e) hrest
    rw [List.foldl_cons]
    exact ⟨hrun'.trans hrun, hout'.trans hout⟩

/-- A pair that is not running keeps its outcome when others are given up. -/
theorem RunState.expire_of_not_running (hp : Table.get? p s.running = none) :
    Table.get? p (s.expire c).running = none ∧
      Table.get? p (s.expire c).outcomes = Table.get? p s.outcomes := by
  obtain ⟨hrun, hout⟩ := foldl_expireOne_of_not_mem (c := c) (s := s)
    (Table.get?_eq_none_iff.mp hp)
  exact ⟨hrun.trans hp, hout⟩

/-- **A running pair is given up** if its deadline has come, and goes on otherwise. -/
theorem RunState.expire_of_running (hn : (Table.keys s.running).Nodup) {task : Task}
    (hp : Table.get? p s.running = some task) :
    ((∀ d ∈ task.deadline, s.now < d) → Table.get? p (s.expire c).running = some task) ∧
      ∀ d ∈ task.deadline, d ≤ s.now → Table.get? p (s.expire c).outcomes =
        (Table.get? p s.outcomes).map fun o =>
          { o with
            cause := some (timeoutCause (d - task.started))
            timedOut := true
            durationMs := (s.now - task.started) * 1000 }.move .failed := by
  obtain ⟨before, behind, hsplit⟩ := List.append_of_mem (Table.mem_of_get? hp)
  have hkeys : (Table.keys before ++ p :: Table.keys behind).Nodup := by
    rw [hsplit] at hn
    simpa [Table.keys] using hn
  have hbefore : p ∉ Table.keys before := fun hm =>
    (List.nodup_append.mp hkeys).2.2 p hm p List.mem_cons_self rfl
  have hbehind : p ∉ Table.keys behind :=
    (List.nodup_cons.mp (List.nodup_append.mp hkeys).2.1).1
  -- the pairs before leave the pair alone, and so do those behind
  obtain ⟨hrun, hout⟩ := foldl_expireOne_of_not_mem (c := c) (s := s) hbefore
  obtain ⟨hnow, -⟩ := foldl_expireOne_frame c before s
  obtain ⟨hrun', hout'⟩ := foldl_expireOne_of_not_mem (c := c)
    (s := expireOne c (before.foldl (expireOne c) s) (p, task)) hbehind
  have heq : s.expire c =
      behind.foldl (expireOne c) (expireOne c (before.foldl (expireOne c) s) (p, task)) := by
    rw [expire_eq, hsplit, List.foldl_append, List.foldl_cons]
  rw [heq, hrun', hout']
  generalize before.foldl (expireOne c) s = u at hrun hout hnow ⊢
  constructor
  · intro hearly
    have hsame : expireOne c u (p, task) = u := by
      unfold expireOne
      split
      · rfl
      · rename_i d hd
        rw [if_neg (not_le_of_gt (hnow ▸ hearly d hd))]
    rw [hsame, hrun, hp]
  · intro d hd hle
    have hone : (expireOne c u (p, task)).outcomes = Table.modify p (fun o =>
        { o with
          cause := some (timeoutCause (d - task.started))
          timedOut := true
          durationMs := (u.now - task.started) * 1000 }.move .failed) u.outcomes := by
      unfold expireOne
      rw [hd]
      dsimp only
      rw [if_pos (by rw [hnow]; exact hle)]
      rfl
    rw [hone, Table.get?_modify, if_pos rfl, hout, hnow]

/-! ### What becomes of a call -/

/-- A call does not return in time: it takes longer than the limit, or exactly as long and is tied
with an earlier one. -/
def Overdue (limit : Option Rat) (seconds : Rat) (tied : Prop) : Prop :=
  ∃ l ∈ limit, l < seconds ∨ l = seconds ∧ tied

/-- A call has not returned, and its pair is running. As long as the call is not due, the earlier
calls that are due at the same moment are still there. -/
structure Pending (call : Call) (limit : Option Rat) (tied : Prop) (s : RunState) : Prop where
  running : ∃ task, Table.get? call.pair s.running = some task ∧
    task.deadline = limit.map (call.started + ·)
  place : ∃ earlier later, s.calls = earlier ++ call :: later ∧
    (s.now < call.due → (tied ↔ ∃ other ∈ earlier, other.due = call.due))

/-- The pair of a call is settled, and has run out of time if the call is overdue. -/
def Concluded (call : Call) (limit : Option Rat) (tied : Prop) (s : RunState) : Prop :=
  ∃ o, Table.get? call.pair s.outcomes = some o ∧ o.status.terminal = true ∧
    (o.timedOut = true ↔ Overdue limit call.reply.seconds tied)

theorem RunState.outcomes_recordOutputs {fqn : String} {outputs : Entries}
    (h : s.recordOutputs fqn outputs = .ok s') : s'.outcomes = s.outcomes := by
  unfold recordOutputs at h
  split at h
  · cases h
  · dsimp only at h
    split at h
    · cases h
    · rw [← Except.ok.inj h]
      rfl

theorem RunState.outcomes_succeed {task : Task} {outputs : Option Entries}
    (h : s.succeed c p task call outputs = .ok s') : s'.outcomes = Table.modify p (fun o =>
      { o with durationMs := (call.due - call.started) * 1000 }.move .succeeded) s.outcomes := by
  have hsave {t : RunState} {snapshot : Option Value} {outputs : Option Entries} {ms : Rat}
      (hs : saveSuccess c p task snapshot outputs ms t = .ok s') : s'.outcomes =
        Table.modify p (fun o => { o with durationMs := ms }.move .succeeded) t.outcomes := by
    unfold saveSuccess at hs
    dsimp only at hs
    split at hs
    · cases hs
    · rw [← Except.ok.inj hs]
      rfl
  rw [succeed_eq] at h
  split at h
  · obtain ⟨t, ht, hs⟩ := eq_ok_of_bind h
    rw [hsave hs, outcomes_recordOutputs ht]
  · exact hsave h

/-- An answer that is taken in settles a running pair in time. -/
theorem RunState.outcome_of_deliver (h : s.deliver c call = .ok s') (ha : call.pair ∉ s.abandoned)
    {task : Task} (hrun : Table.get? call.pair s.running = some task) {o : Outcome}
    (ho : Table.get? call.pair s.outcomes = some o) (hopen : o.timedOut = false) :
    ∃ o', Table.get? call.pair s'.outcomes = some o' ∧ o'.status.terminal = true ∧
      o'.timedOut = false := by
  unfold deliver at h
  rw [if_neg (by simpa using ha)] at h
  simp only [hrun] at h
  split at h
  · obtain ⟨t, ht, rfl⟩ := eq_ok_of_map h
    have hget : Table.get? call.pair t.outcomes = some
        ({ o with durationMs := (call.due - call.started) * 1000 }.move .succeeded) := by
      rw [outcomes_succeed ht, Table.get?_modify, if_pos rfl, ho]
      rfl
    exact ⟨_, hget, rfl, hopen⟩
  · rename_i cause _
    have hget : Table.get? call.pair s'.outcomes = some
        ({ o with
          cause := some cause
          timedOut := false
          durationMs := (call.due - call.started) * 1000 }.move .failed) := by
      rw [← Except.ok.inj h]
      change Table.get? call.pair (Table.modify call.pair _ s.outcomes) = _
      rw [Table.get?_modify, if_pos rfl, ho]
      rfl
    exact ⟨_, hget, rfl, rfl⟩

/-- An attempt that does not halt makes a move. -/
theorem Leads.move_of_ok {attempt : Except Halt RunState} (h : Leads c base s attempt)
    (hok : attempt = .ok s') : Move c base s s' := by
  rcases h with ⟨t, ht, hm⟩ | ⟨halt, hhalt, -⟩
  · obtain rfl : t = s' := Except.ok.inj (ht.symm.trans hok)
    exact hm
  · rw [hhalt] at hok
    cases hok

namespace Pending

variable {limit : Option Rat} {tied : Prop}

/-- A running pair has not run out of time. -/
theorem exists_outcome (h : Pending call limit tied s) (ht : Tied c base A s) :
    call.pair ∉ s.abandoned ∧ (A call.pair).isRunning = true ∧
      ∃ o, Table.get? call.pair s.outcomes = some o ∧ o.timedOut = false := by
  obtain ⟨task, hrun, -⟩ := h.running
  have hkey : call.pair ∈ Table.keys s.running := List.mem_map_of_mem (Table.mem_of_get? hrun)
  have hrunning := ht.queued.running.mem_iff'.mp hkey
  obtain ⟨digest, ctx, hA⟩ := Queued.exists_of_isRunning hrunning
  obtain ⟨o, ho, hu⟩ := ht.shown.exists_outcome (ht.shown.planned_of_ne (p := call.pair)
    (by simp [hA]))
  refine ⟨ht.queued.not_abandoned hA, hrunning, o, ho, ?_⟩
  rw [hA] at hu
  exact congrArg Outcome.timedOut hu

/-- A call stays pending while nothing happens at the workers. -/
theorem congr (h : Pending call limit tied s) (hrun : s'.running = s.running)
    (hcalls : s'.calls = s.calls) (hnow : s'.now < call.due → s.now < call.due) :
    Pending call limit tied s' := by
  obtain ⟨earlier, later, hsplit, htied⟩ := h.place
  refine ⟨?_, earlier, later, by rw [hcalls, hsplit], fun hlt => htied (hnow hlt)⟩
  rw [hrun]
  exact h.running

/-- A call stays pending when another pair is started. -/
theorem launched (h : Pending call limit tied s) (ht : Tied c base A s) {item : Ready} {new : Call}
    (hl : Launches c s s' item new) : Pending call limit tied s' := by
  obtain ⟨task, hrun, hdeadline⟩ := h.running
  obtain ⟨earlier, later, hsplit, htied⟩ := h.place
  obtain ⟨-, rest, hr⟩ := of_next_start hl.next
  obtain ⟨⟨digest, hready⟩, -⟩ := ht.queued.take_ready hr
  have hne : call.pair ≠ item.pair := by
    intro heq
    have hrunning := (h.exists_outcome ht).2.1
    rw [heq, hready] at hrunning
    cases hrunning
  have hmade := hl.made
  obtain ⟨n, timeout, work, ctx, -, -, -, -, rfl⟩ := hl.work
  refine ⟨⟨task, ?_, hdeadline⟩, earlier, later ++ [new], ?_, htied⟩
  · exact (Table.get?_set_of_ne hne _ _).trans hrun
  · rw [hmade, hsplit, List.append_assoc, List.cons_append]

/-- **Giving up** the pairs whose deadline has come concludes a call whose pair is among them, and
leaves it pending otherwise. -/
theorem expire (h : Pending call limit tied s) (hn : (Table.keys s.running).Nodup) {o : Outcome}
    (ho : Table.get? call.pair s.outcomes = some o)
    (hlate : ∀ l ∈ limit, call.started + l ≤ s.now →
      l < call.reply.seconds ∨ l = call.reply.seconds ∧ tied) :
    Pending call limit tied (s.expire c) ∨ Concluded call limit tied (s.expire c) := by
  obtain ⟨task, hrun, hdeadline⟩ := h.running
  obtain ⟨hgoes, hends⟩ := expire_of_running (c := c) hn hrun
  obtain ⟨hnow, hcalls, -⟩ := expire_frame c s
  by_cases hcome : ∃ l ∈ limit, call.started + l ≤ s.now
  · obtain ⟨l, hl, hle⟩ := hcome
    have hd : call.started + l ∈ task.deadline := by
      rw [hdeadline, Option.mem_def, show limit = some l from hl]
      rfl
    have hout := hends _ hd hle
    rw [ho] at hout
    exact Or.inr ⟨_, hout, rfl, fun _ => ⟨l, hl, hlate l hl hle⟩, fun _ => rfl⟩
  · have hearly : ∀ d ∈ task.deadline, s.now < d := by
      intro d hd
      rw [hdeadline] at hd
      obtain ⟨l, hl, rfl⟩ := Option.map_eq_some_iff.mp hd
      exact lt_of_not_ge fun hle => hcome ⟨l, hl, hle⟩
    obtain ⟨earlier, later, hsplit, htied⟩ := h.place
    exact Or.inl ⟨⟨task, hgoes hearly, hdeadline⟩, earlier, later, by rw [hcalls, hsplit],
      fun hlt => htied (by rwa [hnow] at hlt)⟩

/-- The calls of a state are made for different pairs. -/
theorem not_mem_of_split (ht : Tied c base A s) {earlier later : List Call}
    (hsplit : s.calls = earlier ++ call :: later) {other : Call} (ho : other ∈ earlier ++ later) :
    other.pair ≠ call.pair := by
  have hn := ht.queued.calls_nodup
  rw [hsplit, List.map_append, List.map_cons, List.nodup_middle, List.nodup_cons,
    ← List.map_append] at hn
  exact fun heq => hn.1 (heq ▸ List.mem_map_of_mem ho)

/-- **Taking in another answer** leaves a call pending. If its deadline has come then, it is overdue:
the clock has not moved past the deadline, so a call that takes no longer than the limit is due now,
too, and has been passed over for an earlier one. -/
theorem delivered_other (h : Pending call limit tied s) (ht : Tied c base A s) (htimely : Timely s)
    (hdue : call.due = call.started + call.reply.seconds) {first : Call}
    (hfirst : firstCall? s.calls = some first) (hne : first.pair ≠ call.pair)
    (hintime : ∀ task, Table.get? call.pair s.running = some task →
      ∀ d ∈ task.deadline, first.due ≤ d)
    (hd : Delivered first { s with
      now := later s.now first.due
      calls := s.calls.filter fun other => other.pair != first.pair } s') :
    Pending call limit tied s' ∧ ∀ l ∈ limit, call.started + l ≤ s'.now →
      l < call.reply.seconds ∨ l = call.reply.seconds ∧ tied := by
  obtain ⟨task, hrun, hdeadline⟩ := h.running
  obtain ⟨earlier, later, hsplit, htied⟩ := h.place
  have hnow : s'.now = max s.now first.due := hd.now.trans (later_eq _ _)
  have hleast := ((firstCall?_spec s.calls).2 first hfirst).2 call (by simp [hsplit])
  have hplace := hfirst
  rw [hsplit] at hplace
  constructor
  · refine ⟨⟨task, ?_, hdeadline⟩, earlier.filter fun other => other.pair != first.pair,
      later.filter fun other => other.pair != first.pair, ?_, fun hlt => ?_⟩
    · rw [hd.running]
      split
      · exact hrun
      · rwa [Table.get?_erase_of_ne hne.symm]
    · rw [hd.calls]
      dsimp only
      rw [hsplit, List.filter_append, List.filter_cons_of_pos (by simpa using hne.symm)]
    · rw [hnow] at hlt
      rw [htied (lt_of_le_of_lt (le_max_left _ _) hlt)]
      -- the call that has returned was due earlier, so it was tied with none of the others
      have hother (other : Call) (ho : other.due = call.due) (hm : other ∈ s.calls) :
          other.pair ≠ first.pair := by
        intro heq
        have hsame : other = first := List.inj_on_of_nodup_map ht.queued.calls_nodup hm
          ((firstCall?_spec s.calls).2 first hfirst).1 heq
        rw [hsame] at ho
        exact absurd (lt_of_le_of_lt (le_max_right _ _) hlt) (by rw [ho]; exact lt_irrefl _)
      constructor
      · rintro ⟨other, hm, ho⟩
        exact ⟨other, List.mem_filter.mpr
          ⟨hm, by simpa using hother other ho (by simp [hsplit, hm])⟩, ho⟩
      · rintro ⟨other, hm, ho⟩
        exact ⟨other, (List.mem_filter.mp hm).1, ho⟩
  · intro l hl hle
    have hd' : call.started + l ∈ task.deadline := by
      rw [hdeadline, Option.mem_def, show limit = some l from hl]
      rfl
    have hbefore := htimely _ _ hrun _ hd'
    have hfirstle := hintime task hrun _ hd'
    rw [hnow] at hle
    have heq : first.due = call.started + l :=
      le_antisymm hfirstle ((le_max_iff.mp hle).resolve_left (not_le_of_gt hbefore))
    rcases lt_or_eq_of_le (show l ≤ call.reply.seconds by linarith) with hlt | hsame
    · exact Or.inl hlt
    · have hties : first.due = call.due := by rw [heq, hdue, hsame]
      refine Or.inr ⟨hsame, (htied (by rw [← hties, heq]; exact hbefore)).mpr ⟨first, ?_, hties⟩⟩
      rcases firstCall?_place hplace with hm | ⟨rfl, -⟩ | ⟨-, hless⟩
      · exact hm
      · exact absurd rfl hne
      · exact absurd hties (ne_of_lt hless)

/-- **Taking in the answer** of a pending call concludes it: it has come in time, and no earlier call
is tied with it. -/
theorem delivered_self (h : Pending call limit tied s) (ht : Tied c base A s) (htimely : Timely s)
    (hdue : call.due = call.started + call.reply.seconds)
    (hfirst : firstCall? s.calls = some call)
    (hintime : ∀ task, Table.get? call.pair s.running = some task →
      ∀ d ∈ task.deadline, call.due ≤ d) :
    ¬Overdue limit call.reply.seconds tied := by
  obtain ⟨task, hrun, hdeadline⟩ := h.running
  obtain ⟨earlier, later, hsplit, htied⟩ := h.place
  rintro ⟨l, hl, hover⟩
  have hd : call.started + l ∈ task.deadline := by
    rw [hdeadline, Option.mem_def, show limit = some l from hl]
    rfl
  have hle := hintime task hrun _ hd
  have hbefore := htimely _ _ hrun _ hd
  rcases hover with hlt | ⟨rfl, htie⟩
  · linarith
  · obtain ⟨other, hm, ho⟩ := (htied (by rw [hdue]; exact hbefore)).mp htie
    rw [hsplit] at hfirst
    rcases firstCall?_place hfirst with hm' | ⟨-, hearlier⟩ | ⟨-, hless⟩
    · exact not_mem_of_split ht hsplit (List.mem_append_left _ hm') rfl
    · exact absurd ho (ne_of_gt (hearlier other hm))
    · exact lt_irrefl _ hless

/-- **A wait** leaves a call pending or concludes it. -/
theorem wait (hc : c.Checked requested) (h : Pending call limit tied s) (ht : Tied c base A s)
    (htimely : Timely s) (hdue : call.due = call.started + call.reply.seconds)
    (hs : s.wait c = .ok s') : Pending call limit tied s' ∨ Concluded call limit tied s' := by
  obtain ⟨task, hrun, hdeadline⟩ := h.running
  obtain ⟨earlier, later, hsplit, -⟩ := h.place
  obtain ⟨ha, -, o, ho, hopen⟩ := h.exists_outcome ht
  have hn := ht.queued.running.nodup
  have hcall : call ∈ s.calls := by simp [hsplit]
  obtain ⟨first, hfirst⟩ : ∃ first, firstCall? s.calls = some first := by
    cases hf : firstCall? s.calls with
    | none =>
      rw [(firstCall?_spec s.calls).1 hf] at hcall
      cases hcall
    | some first => exact ⟨first, rfl⟩
  obtain ⟨hmem, hleast⟩ := (firstCall?_spec s.calls).2 first hfirst
  rcases wait_cases (c := c) hn htimely hfirst with
    ⟨hintime, hwait⟩ | ⟨t, hlt, ⟨p, first', hget, hd⟩, -, hwait⟩
  · rw [hwait] at hs
    obtain ⟨u, hu, rfl⟩ := eq_ok_of_map hs
    have hd := delivered hu
    by_cases hpair : first.pair = call.pair
    · obtain rfl : first = call := List.inj_on_of_nodup_map ht.queued.calls_nodup hmem hcall hpair
      obtain ⟨o', ho', hterminal, hnot⟩ := outcome_of_deliver hu ha hrun ho hopen
      have hgone : Table.get? first.pair u.running = none := by
        rw [hd.running, if_neg ha]
        exact Table.get?_erase_self hn
      refine Or.inr ⟨o', ?_, hterminal, ?_⟩
      · rw [(expire_of_not_running (c := c) hgone).2, ho']
      · simp [hnot, h.delivered_self ht htimely hdue hfirst (hintime first.pair)]
    · obtain ⟨hpending, hlate⟩ :=
        h.delivered_other ht htimely hdue hfirst hpair (hintime call.pair) hd
      have htick := ht.tick (RunState.later s.now first.due)
      have hmove := (htick.deliver_spec hmem (hintime first.pair)).move_of_ok hu
      obtain ⟨A', hA', -⟩ := htick.move hc hmove
      obtain ⟨-, -, o', ho', -⟩ := hpending.exists_outcome hA'
      exact hpending.expire hA'.queued.running.nodup ho' hlate
  · rw [hwait] at hs
    rw [← Except.ok.inj hs]
    -- the clock moves to the first deadline, before any call is due
    have hbefore : t < call.due := lt_of_lt_of_le hlt (hleast call hcall)
    have hsooner : s.now < call.due := (htimely p first' hget t hd).trans hbefore
    have hticked : Pending call limit tied { s with now := t } :=
      h.congr rfl rfl fun _ => hsooner
    refine hticked.expire hn ho ?_
    intro l hl hle
    exact Or.inl (by dsimp only at hle; linarith)

/-- **A step** leaves a call pending or concludes it. -/
theorem step (hc : c.Checked requested) (h : Pending call limit tied s) (ht : Tied c base A s)
    (htimely : Timely s) (hdue : call.due = call.started + call.reply.seconds)
    (hs : s.step c = .state s') : Pending call limit tied s' ∨ Concluded call limit tied s' := by
  cases hn : s.next c with
  | consider x =>
    rw [step_eq, hn] at hs
    have hsame := SameWork.consider (Next.of_eq_state hs)
    exact Or.inl (h.congr hsame.running hsame.calls fun hlt => by rwa [hsame.now] at hlt)
  | start item =>
    obtain ⟨new, hl⟩ := launches_of_step hn hs
    exact Or.inl (h.launched ht hl)
  | wait =>
    rw [step_eq, hn] at hs
    exact h.wait hc ht htimely hdue (Next.of_eq_state hs)
  | finish =>
    rw [step_eq, hn] at hs
    cases hs

/-- **At the end of a run** a call that was pending is concluded. -/
theorem concluded (hc : c.Checked requested) {n : Nat} (hs : Steps c n s last)
    (h : Pending call limit tied s) (ht : Tied c base A s) (htimely : Timely s)
    (hdue : call.due = call.started + call.reply.seconds)
    (hend : ∀ B, Tied c base B last → ∀ p, c.Planned p → (B p).settled = true) :
    Concluded call limit tied last := by
  induction hs generalizing A with
  | refl s =>
    obtain ⟨-, hrunning, -⟩ := h.exists_outcome ht
    obtain ⟨digest, ctx, hA⟩ := Queued.exists_of_isRunning hrunning
    have hsettled := hend A ht call.pair (ht.shown.planned_of_ne (by simp [hA]))
    rw [hA] at hsettled
    cases hsettled
  | next hstep hrest ih =>
    obtain ⟨htimely', hadvances⟩ := ht.of_step hc htimely hstep
    obtain ⟨B, hB, -⟩ := ht.advances hc hadvances
    rcases h.step hc ht htimely hdue hstep with hpending | ⟨o, ho, hterminal, hover⟩
    · exact ih hpending hB htimely' hend
    · exact ⟨o, hrest.outcome_kept hc hB htimely' ho hterminal, hterminal, hover⟩

end Pending

/-! ### Whole runs -/

/-- A run starts a pair in a state, with a call. -/
def Scheduler.Starts (sched : Scheduler) (phases : List Phase) (files : Files) (plan : Plan)
    (p : Pair) (t : RunState) (call : Call) : Prop :=
  sched.Passes phases files plan t ∧ ∃ t' item, t.step (sched.setup plan) = .state t' ∧
    t.Launches (sched.setup plan) t' item call ∧ item.pair = p

/-- A pair that has been started was started in one of the states before. -/
theorem Steps.exists_launch {n : Nat} (hs : Steps c n s last)
    (hold : p ∉ s.contexts.map UnitContext.pair) (hp : p ∈ last.contexts.map UnitContext.pair) :
    ∃ m t t' item call, Steps c m s t ∧ t.step c = .state t' ∧ t.Launches c t' item call ∧
      item.pair = p := by
  induction hs with
  | refl s => exact absurd hp hold
  | @next n s s' last hstep hrest ih =>
    by_cases hnew : p ∈ s'.contexts.map UnitContext.pair
    · rcases calls_of_step hstep with ⟨item, call, hl⟩ | ⟨-, hsame⟩
      · refine ⟨0, s, s', item, call, .refl s, hstep, hl, ?_⟩
        obtain ⟨k, timeout, work, ctx, -, -, hctx, -, rfl⟩ := hl.work
        change p ∈ (s.contexts ++ [ctx]).map UnitContext.pair at hnew
        rw [List.map_append, List.mem_append, List.map_singleton, List.mem_singleton] at hnew
        rw [hnew.resolve_left hold, Tied.context_pair hctx]
      · rw [hsame] at hnew
        exact absurd hnew hold
    · obtain ⟨m, t, t', item, call, hsteps, hrest⟩ := ih hnew hp
      exact ⟨m + 1, t, t', item, call, .next hstep hsteps, hrest⟩

/-- A pair whose executor was called was started in one of the states of the run. -/
theorem Scheduler.Follows.exists_starts {sched : Scheduler} {phases : List Phase} {files : Files}
    {plan : Plan} {n : Nat} (h : sched.Follows phases files plan n last A)
    (hp : p ∈ last.contexts.map UnitContext.pair) :
    ∃ t call, sched.Starts phases files plan p t call := by
  obtain ⟨m, t, t', item, call, hsteps, hstep, hl, hpair⟩ :=
    h.steps.exists_launch (by simp [Scheduler.initial, RunState.report]) hp
  exact ⟨t, call, ⟨h.checked.executors, h.checked.plan, m, hsteps⟩, t', item, hstep, hl, hpair⟩

/-- A call that has just been made is pending. -/
theorem RunState.Launches.pending {item : Ready} {timeout : Value}
    {work : UnitContext → Files → Reply} (h : Launches c s s' item call)
    (he : Table.get? item.pair.phase c.executors = some ⟨timeout, some work⟩) :
    Pending call (timeoutSeconds timeout) (∃ other ∈ s.calls, other.due = call.due) s' ∧
      call.due = call.started + call.reply.seconds := by
  have hmade := h.made
  obtain ⟨n, timeout', work', ctx, -, he', -, rfl, rfl⟩ := h.work
  rw [he, Option.some.injEq, Executor.mk.injEq] at he'
  rw [he'.1]
  exact ⟨⟨⟨_, Table.get?_set_self _ _ _, rfl⟩, s.calls, [], hmade, fun _ => Iff.rfl⟩, rfl⟩

/-- **Which started pairs run out of time.** A scheduler over any graph carries out a run that
reports, with any number of workers, and executors with any limits that take any time. A pair whose
executor was called was started in one state of the run, with one call. It is reported as out of time
if and only if its executor has a limit and the call takes longer than that, or exactly as long and
some call was at work when the pair was started that is due at the very moment at which the call of
the pair is. So the other pairs make no difference, except by such a tie. -/
theorem timeouts_exact_up_to_ties {sched : Scheduler} (hs : sched.Usable) {phases : List Phase}
    {files : Files} {report : Report} (hr : (sched.run phases files).report = .ok report) {p : Pair}
    (hp : p ∈ (sched.run phases files).contexts.map UnitContext.pair) :
    ∃ plan o timeout work, sched.graph.plan (requestedPhases phases) = .ok plan ∧
      Table.get? p report.pairs = some o ∧
      Table.get? p.phase sched.executors = some ⟨timeout, some work⟩ ∧
      (∃ t call, sched.Starts phases files plan p t call) ∧
      ∀ t call, sched.Starts phases files plan p t call →
        (o.timedOut = true ↔ ∃ limit ∈ timeoutSeconds timeout, limit < call.reply.seconds ∨
          limit = call.reply.seconds ∧ ∃ other ∈ t.calls, other.due = call.due) := by
  obtain ⟨plan, n, last, A, hfollows, hrun, rfl, hend, hall⟩ := Scheduler.finished_spec hs hr
  have hc := hfollows.checked
  have hp' : p ∈ last.contexts.map UnitContext.pair := by
    rw [hrun] at hp
    exact hp
  have hplanned := hfollows.tied.planned_of_mem_contexts hp'
  obtain ⟨timeout, work, he, -⟩ := hc.exists_executor hplanned
  obtain ⟨o, ho, -⟩ := hfollows.tied.shown.exists_outcome hplanned
  -- every chart behind the last state has settled all pairs, since it shows the same statuses
  have hsettled : ∀ B, Tied (sched.setup plan)
      (sched.initial plan (requestedPhases phases) files) B last →
      ∀ q, (sched.setup plan).Planned q → (B q).settled = true := by
    intro B hB q hq
    rw [Standing.settled, ← hB.shown.status, hfollows.tied.shown.status]
    exact hall q hq
  refine ⟨plan, o, timeout, work, hc.plan, ho, he, hfollows.exists_starts hp', ?_⟩
  rintro t call ⟨hpasses, t', item, hstep, hl, rfl⟩
  obtain ⟨B, hB, htimely⟩ := hpasses.tied hs
  obtain ⟨m, hsteps⟩ := hpasses.steps
  obtain ⟨htimely', hadvances⟩ := hB.of_step hc htimely hstep
  obtain ⟨B', hB', -⟩ := hB.advances hc hadvances
  obtain ⟨k, hrest⟩ := hfollows.steps.rest_of hend (hsteps.snoc hstep)
  obtain ⟨hpending, hdue⟩ := hl.pending he
  obtain ⟨o', ho', -, hover⟩ := hpending.concluded hc hrest hB' htimely' hdue hsettled
  rw [hl.pair] at ho'
  obtain rfl : o' = o := Option.some.inj (ho'.symm.trans ho)
  exact hover

namespace Shop

/-- Initializations may take five seconds, and take them. -/
def punctual (services : List UnitDef) : Scheduler :=
  scheduler services 4 [(.init, executor (.int 5) 5 (.succeeded none))]

/-- A shop that initializes two services at once. -/
def paired : Scheduler := punctual [database, cache]

theorem called_paired : (⟨"shop.service.cache", .init⟩ : Pair) ∈
    (paired.run [.init] []).contexts.map UnitContext.pair := by
  decide +kernel

end Shop

/-- In the shop the two initializations are due at the same moment, which decides what becomes of the
later one. -/
theorem timeouts_exact_up_to_ties_shop : ∃ report plan o t call,
    Shop.paired.Usable ∧ (Shop.paired.run [.init] []).report = .ok report ∧
    ⟨"shop.service.cache", .init⟩ ∈
      (Shop.paired.run [.init] []).contexts.map UnitContext.pair ∧
    Shop.paired.Starts [.init] [] plan ⟨"shop.service.cache", .init⟩ t call ∧
    Table.get? ⟨"shop.service.cache", .init⟩ report.pairs = some o ∧
    (o.timedOut = true ↔ ∃ limit ∈ timeoutSeconds (.int 5), limit < call.reply.seconds ∨
      limit = call.reply.seconds ∧ ∃ other ∈ t.calls, other.due = call.due) := by
  have husable : Shop.paired.Usable := ⟨by rfl, by decide⟩
  have hok : (Shop.paired.run [.init] []).report.isOk = true := by decide +kernel
  obtain ⟨report, hr⟩ := exists_of_isOk hok
  obtain ⟨plan, o, timeout, work, -, ho, he, ⟨t, call, hstarts⟩, hall⟩ :=
    timeouts_exact_up_to_ties husable hr Shop.called_paired
  cases he
  exact ⟨report, plan, o, t, call, husable, hr, Shop.called_paired, hstarts, ho,
    hall t call hstarts⟩

/-- In the shop two initializations may take five seconds each. Both take exactly five seconds, and
the one that is started later runs out of time. Where it is the only one, it succeeds. -/
theorem timeout_of_tie : ∃ report alone o o' work,
    (Shop.paired.run [.init] []).report = .ok report ∧
    ⟨"shop.service.cache", .init⟩ ∈
      (Shop.paired.run [.init] []).contexts.map UnitContext.pair ∧
    Table.get? .init Shop.paired.executors = some ⟨.int 5, some work⟩ ∧
    timeoutSeconds (.int 5) = some 5 ∧ (∀ ctx files, (work ctx files).seconds = 5) ∧
    Table.get? ⟨"shop.service.cache", .init⟩ report.pairs = some o ∧ o.timedOut = true ∧
    ((Shop.punctual [Shop.cache]).run [.init] []).report = .ok alone ∧
    Table.get? ⟨"shop.service.cache", .init⟩ alone.pairs = some o' ∧ o'.timedOut = false ∧
    o'.status = .succeeded := by
  have hboth : ((Shop.paired.run [.init] []).report.toOption.any fun r =>
      (Table.get? ⟨"shop.service.cache", .init⟩ r.pairs).any fun o => o.timedOut) = true := by
    decide +kernel
  have halone : (((Shop.punctual [Shop.cache]).run [.init] []).report.toOption.any fun r =>
      (Table.get? ⟨"shop.service.cache", .init⟩ r.pairs).any fun o =>
        !o.timedOut && o.status == .succeeded) = true := by
    decide +kernel
  obtain ⟨report, hr, hout⟩ := exists_of_any hboth
  obtain ⟨alone, ha, hout'⟩ := exists_of_any halone
  obtain ⟨o, ho, hlate⟩ := (Option.any_eq_true _ _).mp hout
  obtain ⟨o', ho', hend⟩ := (Option.any_eq_true _ _).mp hout'
  rw [Bool.and_eq_true, Bool.not_eq_true', beq_iff_eq] at hend
  exact ⟨report, alone, o, o', _, hr, Shop.called_paired, rfl, by rfl, fun _ _ => rfl, ho, hlate, ha,
    ho', hend.1, hend.2⟩

end Rollout
