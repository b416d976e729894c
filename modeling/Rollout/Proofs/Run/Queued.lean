import Rollout.Proofs.Run.Shown

/-!
# Where the queues of a state come from

The queues of a running state hold the open pairs of its chart: promoted are the pairs that wait for
settled pairs only, ready and running are those that stand so, and every running pair has exactly
one call that has not returned. The other calls belong to pairs that have run out of time.

A pair moves by being taken out of one queue and put into another one. In between it is loose, and
the invariant holds of all other pairs.

**Types.** `Listed`, `Underway`, `Queued`.

**Results.**
* `Queued.take_promoted`, `Queued.take_ready`, `Queued.take_running`, `Queued.abandon`: a pair is
  taken out of its queue;
* `Queued.put_ready`, `Queued.put_running`, `Queued.put_settled`: a loose pair is put where its new
  standing belongs.
-/

namespace Rollout

open RunState

/-! ### Lists without repetition -/

/-- A list holds exactly the pairs with a property, each once, but for a loose pair. -/
structure Listed (loose : Option Pair) (pairs : List Pair) (Q : Pair → Prop) : Prop where
  nodup : pairs.Nodup
  mem_iff : ∀ p, p ∈ pairs ↔ loose ≠ some p ∧ Q p

namespace Listed

variable {pairs rest : List Pair} {Q Q' : Pair → Prop} {x : Pair}

theorem mem_iff' (h : Listed none pairs Q) {p : Pair} : p ∈ pairs ↔ Q p := by
  rw [h.mem_iff p]
  exact and_iff_right (by simp)

/-- A pair without the property may be loose. -/
theorem loosen (h : Listed none pairs Q) (hx : ¬Q x) : Listed (some x) pairs Q := by
  refine ⟨h.nodup, fun p => ?_⟩
  rw [h.mem_iff']
  refine ⟨fun hp => ⟨?_, hp⟩, And.right⟩
  intro heq
  exact hx (Option.some.inj heq ▸ hp)

/-- A pair that is dropped from the list is loose. -/
theorem erase (h : Listed none pairs Q) : Listed (some x) (pairs.erase x) Q := by
  refine ⟨h.nodup.erase x, fun p => ?_⟩
  rw [h.nodup.mem_erase_iff, h.mem_iff', ne_comm]
  simp

theorem tail (h : Listed none (x :: rest) Q) : Listed (some x) rest Q := by
  have he := h.erase (x := x)
  rwa [List.erase_cons_head] at he

/-- A loose pair is no longer loose when it does not have the property. -/
theorem fix (h : Listed (some x) pairs Q) (hQ : ∀ p, p ≠ x → (Q' p ↔ Q p)) (hx : ¬Q' x) :
    Listed none pairs Q' := by
  refine ⟨h.nodup, fun p => ?_⟩
  rw [h.mem_iff p]
  by_cases hpx : p = x
  · subst hpx
    simp [hx]
  · have hne : some x ≠ some p := fun heq => hpx (Option.some.inj heq).symm
    simp [hne, hQ p hpx]

/-- A loose pair is no longer loose when it has the property and is added to the list. -/
theorem add (h : Listed (some x) pairs Q) {more : List Pair} (hperm : more.Perm (x :: pairs))
    (hQ : ∀ p, p ≠ x → (Q' p ↔ Q p)) (hx : Q' x) : Listed none more Q' := by
  have hnot : x ∉ pairs := fun hm => ((h.mem_iff x).mp hm).1 rfl
  refine ⟨hperm.nodup_iff.mpr (List.nodup_cons.mpr ⟨hnot, h.nodup⟩), fun p => ?_⟩
  rw [hperm.mem_iff, List.mem_cons, h.mem_iff p]
  by_cases hpx : p = x
  · subst hpx
    simp [hx]
  · have hne : some x ≠ some p := fun heq => hpx (Option.some.inj heq).symm
    simp [hpx, hne, hQ p hpx]

end Listed

/-- A call does the work of a running pair. -/
def Underway (c : Setup) (A : Chart) (call : Call) (task : Task) : Prop :=
  ∃ ctx timeout work files, A call.pair = .running task.fingerprint ctx ∧
    task.namespaceName = ctx.namespaceName ∧
    Table.get? call.pair.phase c.executors = some ⟨timeout, some work⟩ ∧
    call.reply = work ctx files ∧ call.due = call.started + call.reply.seconds ∧
    call.started = task.started ∧
    task.deadline = (timeoutSeconds timeout).map (task.started + ·)

/-- A pair can be considered. -/
structure Open (c : Setup) (A : Chart) (p : Pair) : Prop where
  planned : c.Planned p
  waiting : A p = .waiting
  settled : ∀ w ∈ c.waits p, (A w).settled = true

/-- The queues of a state hold the open pairs of a chart, but for a loose one. -/
structure Queued (c : Setup) (A : Chart) (loose : Option Pair) (s : RunState) : Prop where
  promoted : Listed loose s.promoted (Open c A)
  ready : Listed loose (s.ready.map Ready.pair) fun p => (A p).isReady = true
  readied : ∀ item ∈ s.ready, ∃ digest, A item.pair = .ready digest item.resolved
  running : Listed loose (Table.keys s.running) fun p => (A p).isRunning = true
  abandoned_nodup : s.abandoned.Nodup
  abandoned : ∀ p ∈ s.abandoned, loose ≠ some p → (A p).isOverrun = true
  calls_nodup : (s.calls.map Call.pair).Nodup
  mem_calls : ∀ p, p ∈ s.calls.map Call.pair ↔ p ∈ Table.keys s.running ∨ p ∈ s.abandoned
  underway : ∀ call ∈ s.calls, ∀ task, Table.get? call.pair s.running = some task →
    Underway c A call task

namespace Queued

variable {c : Setup} {A : Chart} {loose : Option Pair} {s s' : RunState} {x : Pair}

/-- The invariant is about the queues only. -/
theorem congr (h : Queued c A loose s) (hp : s'.promoted = s.promoted) (hr : s'.ready = s.ready)
    (hrun : s'.running = s.running) (ha : s'.abandoned = s.abandoned) (hc : s'.calls = s.calls) :
    Queued c A loose s' := by
  constructor
  · rw [hp]; exact h.promoted
  · rw [hr]; exact h.ready
  · rw [hr]; exact h.readied
  · rw [hrun]; exact h.running
  · rw [ha]; exact h.abandoned_nodup
  · rw [ha]; exact h.abandoned
  · rw [hc]; exact h.calls_nodup
  · rw [hc, hrun, ha]; exact h.mem_calls
  · rw [hc, hrun]; exact h.underway

theorem not_open {p : Pair} (hp : A p ≠ .waiting) : ¬Open c A p := fun ho => hp ho.waiting

/-! ### Taking pairs out of their queues -/

/-- The first promoted pair is taken out. -/
theorem take_promoted (h : Queued c A none s) {rest : List Pair} (hp : s.promoted = x :: rest) :
    Open c A x ∧ Queued c A (some x) { s with promoted := rest } := by
  have hlist := h.promoted
  rw [hp] at hlist
  have hx : Open c A x := hlist.mem_iff'.mp List.mem_cons_self
  exact ⟨hx, hlist.tail, h.ready.loosen (by simp [hx.waiting, Standing.isReady]), h.readied,
    h.running.loosen (by simp [hx.waiting, Standing.isRunning]), h.abandoned_nodup,
    fun p hm _ => h.abandoned p hm (by simp), h.calls_nodup, h.mem_calls, h.underway⟩

/-- The first ready pair is taken out. -/
theorem take_ready (h : Queued c A none s) {item : Ready} {rest : List Ready}
    (hr : s.ready = item :: rest) :
    (∃ digest, A item.pair = .ready digest item.resolved) ∧
      Queued c A (some item.pair) { s with ready := rest } := by
  have hlist := h.ready
  rw [hr, List.map_cons] at hlist
  obtain ⟨digest, hx⟩ := h.readied item (by rw [hr]; exact List.mem_cons_self)
  exact ⟨⟨digest, hx⟩, h.promoted.loosen (not_open (by simp [hx])), hlist.tail,
    fun other hm => h.readied other (by rw [hr]; exact List.mem_cons_of_mem _ hm),
    h.running.loosen (by simp [hx, Standing.isRunning]), h.abandoned_nodup,
    fun p hm _ => h.abandoned p hm (by simp), h.calls_nodup, h.mem_calls, h.underway⟩

theorem exists_of_isRunning {st : Standing} (h : st.isRunning = true) :
    ∃ digest ctx, st = .running digest ctx := by
  cases st <;> first | exact ⟨_, _, rfl⟩ | cases h

theorem not_abandoned (h : Queued c A none s) {digest : String} {ctx : UnitContext}
    (hA : A x = .running digest ctx) : x ∉ s.abandoned := by
  intro hm
  have := h.abandoned x hm (by simp)
  rw [hA] at this
  cases this

/-- Dropping the calls of a pair keeps the calls of the others. -/
theorem mem_map_filter_calls {calls : List Call} {p : Pair} :
    p ∈ (calls.filter fun other => other.pair != x).map Call.pair ↔
      p ∈ calls.map Call.pair ∧ p ≠ x := by
  constructor
  · intro hp
    obtain ⟨call, hm, rfl⟩ := List.mem_map.mp hp
    obtain ⟨hcall, hne⟩ := List.mem_filter.mp hm
    exact ⟨List.mem_map_of_mem hcall, by simpa using hne⟩
  · rintro ⟨hp, hne⟩
    obtain ⟨call, hm, rfl⟩ := List.mem_map.mp hp
    exact List.mem_map_of_mem (List.mem_filter.mpr ⟨hm, by simpa using hne⟩)

theorem nodup_filter_calls {calls : List Call} (h : (calls.map Call.pair).Nodup) :
    ((calls.filter fun other => other.pair != x).map Call.pair).Nodup :=
  h.sublist (List.filter_sublist.map Call.pair)

/-- The executor of a running pair returns. -/
theorem take_running (h : Queued c A none s) {digest : String} {ctx : UnitContext}
    (hA : A x = .running digest ctx) :
    Queued c A (some x) { s with
      calls := s.calls.filter fun other => other.pair != x
      running := Table.erase x s.running } := by
  have hkeys : Listed (some x) (Table.keys (Table.erase x s.running))
      fun p => (A p).isRunning = true := by
    rw [Table.keys_erase]
    exact h.running.erase
  refine ⟨h.promoted.loosen (not_open (by simp [hA])),
    h.ready.loosen (by simp [hA, Standing.isReady]), h.readied, hkeys, h.abandoned_nodup,
    fun p hm _ => h.abandoned p hm (by simp), nodup_filter_calls h.calls_nodup, ?_, ?_⟩
  · intro p
    rw [mem_map_filter_calls, h.mem_calls p, Table.keys_erase, h.running.nodup.mem_erase_iff]
    constructor
    · rintro ⟨hr | ha, hne⟩
      · exact Or.inl ⟨hne, hr⟩
      · exact Or.inr ha
    · rintro (⟨hne, hr⟩ | ha)
      · exact ⟨Or.inl hr, hne⟩
      · exact ⟨Or.inr ha, fun heq => h.not_abandoned hA (heq ▸ ha)⟩
  · intro call hm task ht
    exact h.underway call (List.mem_filter.mp hm).1 task
      (Table.get?_of_get?_erase h.running.nodup ht).2

/-- The time of a running pair is up; its call goes on. -/
theorem abandon (h : Queued c A none s) {digest : String} {ctx : UnitContext}
    (hA : A x = .running digest ctx) :
    Queued c A (some x) { s with
      running := Table.erase x s.running
      abandoned := s.abandoned ++ [x] } := by
  have hkeys : Listed (some x) (Table.keys (Table.erase x s.running))
      fun p => (A p).isRunning = true := by
    rw [Table.keys_erase]
    exact h.running.erase
  have hx : x ∈ Table.keys s.running := h.running.mem_iff'.mpr (by rw [hA]; rfl)
  refine ⟨h.promoted.loosen (not_open (by simp [hA])),
    h.ready.loosen (by simp [hA, Standing.isReady]), h.readied, hkeys, ?_, ?_, h.calls_nodup, ?_,
    ?_⟩
  · rw [← List.concat_eq_append]
    exact h.abandoned_nodup.concat (h.not_abandoned hA)
  · intro p hm hne
    rcases List.mem_append.mp hm with hm | hm
    · exact h.abandoned p hm (by simp)
    · exact absurd (by rw [List.mem_singleton.mp hm]) hne
  · intro p
    rw [h.mem_calls p, Table.keys_erase, h.running.nodup.mem_erase_iff, List.mem_append,
      List.mem_singleton]
    by_cases hpx : p = x
    · simp [hpx, hx]
    · simp [hpx]
  · intro call hm task ht
    exact h.underway call hm task (Table.get?_of_get?_erase h.running.nodup ht).2

/-- The executor of a pair returns whose time was up. -/
theorem forget (h : Queued c A none s) (hx : x ∈ s.abandoned) :
    Queued c A none { s with
      calls := s.calls.filter fun other => other.pair != x
      abandoned := s.abandoned.erase x } := by
  have hnot : x ∉ Table.keys s.running := by
    intro hm
    obtain ⟨digest, ctx, hA⟩ := exists_of_isRunning (h.running.mem_iff'.mp hm)
    exact h.not_abandoned hA hx
  refine ⟨h.promoted, h.ready, h.readied, h.running, h.abandoned_nodup.erase x,
    fun p hm => h.abandoned p (List.mem_of_mem_erase hm), nodup_filter_calls h.calls_nodup, ?_,
    fun call hm => h.underway call (List.mem_filter.mp hm).1⟩
  intro p
  rw [mem_map_filter_calls, h.mem_calls p, h.abandoned_nodup.mem_erase_iff]
  constructor
  · rintro ⟨hr | ha, hne⟩
    · exact Or.inl hr
    · exact Or.inr ⟨hne, ha⟩
  · rintro (hr | ⟨hne, ha⟩)
    · exact ⟨Or.inl hr, fun heq => hnot (heq ▸ hr)⟩
    · exact ⟨Or.inr ha, hne⟩

/-! ### Putting loose pairs where they belong -/

variable {st : Standing}

theorem underway_update {call : Call} {task : Task} (h : Underway c A call task)
    (hne : call.pair ≠ x) : Underway c (Function.update A x st) call task := by
  obtain ⟨ctx, timeout, work, files, hA, hrest⟩ := h
  exact ⟨ctx, timeout, work, files, by rwa [Function.update_of_ne hne], hrest⟩

/-- Which pairs can be considered does not depend on an open pair that stays open. -/
theorem open_update (hopen : (A x).settled = false) (hst : st.settled = false)
    {p : Pair} (hpx : p ≠ x) : Open c (Function.update A x st) p ↔ Open c A p := by
  constructor
  · rintro ⟨hplan, hwait, hset⟩
    rw [Function.update_of_ne hpx] at hwait
    refine ⟨hplan, hwait, fun w hw => ?_⟩
    have := hset w hw
    by_cases hwx : w = x
    · rw [hwx, Function.update_self, hst] at this
      cases this
    · rwa [Function.update_of_ne hwx] at this
  · rintro ⟨hplan, hwait, hset⟩
    refine ⟨hplan, by rwa [Function.update_of_ne hpx], fun w hw => ?_⟩
    have := hset w hw
    by_cases hwx : w = x
    · rw [hwx, hopen] at this
      cases this
    · rwa [Function.update_of_ne hwx]

/-- What the queues say of the other pairs stays, whatever becomes of a loose one. -/
theorem readied_update (h : Queued c A (some x) s) :
    ∀ item ∈ s.ready, ∃ digest, Function.update A x st item.pair = .ready digest item.resolved := by
  intro item hm
  have hne : item.pair ≠ x := by
    rintro rfl
    exact ((h.ready.mem_iff _).mp (List.mem_map_of_mem hm)).1 rfl
  rw [Function.update_of_ne hne]
  exact h.readied item hm

theorem abandoned_update (h : Queued c A (some x) s) (ha : x ∈ s.abandoned → st.isOverrun = true) :
    ∀ p ∈ s.abandoned, none ≠ some p → (Function.update A x st p).isOverrun = true := by
  intro p hm _
  by_cases hpx : p = x
  · subst hpx
    rw [Function.update_self]
    exact ha hm
  · rw [Function.update_of_ne hpx]
    exact h.abandoned p hm fun heq => hpx (Option.some.inj heq).symm

theorem calls_update (h : Queued c A (some x) s) :
    ∀ call ∈ s.calls, ∀ task, Table.get? call.pair s.running = some task →
      Underway c (Function.update A x st) call task := by
  intro call hm task ht
  refine underway_update (h.underway call hm task ht) ?_
  intro heq
  have hx : x ∈ Table.keys s.running :=
    heq ▸ List.mem_map_of_mem (f := Prod.fst) (Table.mem_of_get? ht)
  exact ((h.running.mem_iff x).mp hx).1 rfl

/-- A loose pair is made ready. -/
theorem put_ready (h : Queued c A (some x) s) (hopen : (A x).settled = false)
    (digest : String) {item : Ready} (hitem : item.pair = x) (ha : x ∉ s.abandoned) :
    Queued c (Function.update A x (.ready digest item.resolved)) none { s with
      ready := Sorting.insert readyLe item s.ready } := by
  have hperm := Sorting.insert_perm readyLe item s.ready
  refine ⟨h.promoted.fix (fun p => open_update hopen rfl) (not_open (by simp)),
    h.ready.add (hitem ▸ hperm.map Ready.pair) (fun p hp => by rw [Function.update_of_ne hp])
      (by simp [Standing.isReady]), ?_,
    h.running.fix (fun p hp => by rw [Function.update_of_ne hp]) (by simp [Standing.isRunning]),
    h.abandoned_nodup, h.abandoned_update fun hx => absurd hx ha, h.calls_nodup, h.mem_calls,
    h.calls_update⟩
  intro other hm
  rcases List.mem_cons.mp (hperm.mem_iff.mp hm) with rfl | hm
  · exact ⟨digest, by rw [hitem, Function.update_self]⟩
  · exact h.readied_update other hm

/-- A loose pair is started. -/
theorem put_running (h : Queued c A (some x) s) (hopen : (A x).settled = false)
    (ctx : UnitContext) (task : Task) {call : Call} (hcall : call.pair = x) (ha : x ∉ s.abandoned)
    (hu : Underway c (Function.update A x (.running task.fingerprint ctx)) call task) :
    Queued c (Function.update A x (.running task.fingerprint ctx)) none { s with
      running := Table.set x task s.running
      calls := s.calls ++ [call] } := by
  have hrun : x ∉ Table.keys s.running := fun hm => ((h.running.mem_iff x).mp hm).1 rfl
  have hkeys : Table.keys (Table.set x task s.running) = Table.keys s.running ++ [x] := by
    rw [Table.keys_set, if_neg hrun]
  have hcalls : x ∉ s.calls.map Call.pair := by
    rw [h.mem_calls x]
    exact not_or.mpr ⟨hrun, ha⟩
  refine ⟨h.promoted.fix (fun p => open_update hopen rfl) (not_open (by simp)),
    h.ready.fix (fun p hp => by rw [Function.update_of_ne hp]) (by simp [Standing.isReady]),
    h.readied_update,
    h.running.add ?_ (fun p hp => by rw [Function.update_of_ne hp]) (by simp [Standing.isRunning]),
    h.abandoned_nodup, h.abandoned_update fun hx => absurd hx ha, ?_, ?_, ?_⟩
  · rw [hkeys]
    exact List.perm_append_singleton x _
  · rw [List.map_append, List.map_singleton, hcall, ← List.concat_eq_append]
    exact h.calls_nodup.concat hcalls
  · intro p
    rw [List.map_append, List.map_singleton, hcall, List.mem_append, List.mem_singleton, hkeys,
      List.mem_append, List.mem_singleton, h.mem_calls p]
    rw [or_right_comm]
  · intro other hm t ht
    rcases List.mem_append.mp hm with hm | hm
    · have hne : other.pair ≠ x := fun heq => hcalls (heq ▸ List.mem_map_of_mem hm)
      rw [Table.get?_set_of_ne hne] at ht
      exact h.calls_update other hm t ht
    · obtain rfl := List.mem_singleton.mp hm
      rw [hcall, Table.get?_set_self, Option.some.injEq] at ht
      rwa [← ht]

/-- The pairs that a settled pair lets go. -/
theorem mem_released {plan : Plan} (hn : (Table.keys plan).Nodup) {s : RunState} {p : Pair} :
    p ∈ (plan.filter fun e => e.2.contains x && e.2.all fun w => (s.status w).terminal).map
      Prod.fst ↔ ∃ ws, Table.get? p plan = some ws ∧ x ∈ ws ∧
        ∀ w ∈ ws, (s.status w).terminal = true := by
  rw [List.mem_map]
  constructor
  · rintro ⟨e, he, rfl⟩
    obtain ⟨hm, hcond⟩ := List.mem_filter.mp he
    rw [Bool.and_eq_true, List.contains_iff_mem, List.all_eq_true] at hcond
    exact ⟨e.2, (Table.get?_eq_some_iff hn).mpr hm, hcond.1, hcond.2⟩
  · rintro ⟨ws, hget, hx, hall⟩
    refine ⟨(p, ws), List.mem_filter.mpr ⟨Table.mem_of_get? hget, ?_⟩, rfl⟩
    rw [Bool.and_eq_true, List.contains_iff_mem, List.all_eq_true]
    exact ⟨hx, hall⟩

/-- The pairs that are promoted after a pair has settled. -/
theorem mem_released_update (hn : (Table.keys c.plan).Nodup)
    (hstatus : ∀ p, s.status p = (Function.update A x st p).status) (p : Pair) :
    p ∈ ((c.plan.filter fun e => e.2.contains x &&
        e.2.all fun w => (s.status w).terminal).map Prod.fst) ↔
      c.Planned p ∧ x ∈ c.waits p ∧
        ∀ w ∈ c.waits p, (Function.update A x st w).settled = true := by
  rw [mem_released hn]
  constructor
  · rintro ⟨ws, hget, hx, hall⟩
    have hwaits : c.waits p = ws := by rw [Setup.waits, hget, Option.getD_some]
    refine ⟨List.mem_map_of_mem (f := Prod.fst) (Table.mem_of_get? hget), hwaits ▸ hx, ?_⟩
    intro w hw
    rw [Standing.settled, ← hstatus w]
    exact hall w (hwaits ▸ hw)
  · rintro ⟨hp, hx, hall⟩
    obtain ⟨ws, hget⟩ := Table.exists_get?_of_mem hp
    have hwaits : c.waits p = ws := by rw [Setup.waits, hget, Option.getD_some]
    refine ⟨ws, hget, hwaits ▸ hx, fun w hw => ?_⟩
    rw [hstatus w]
    exact hall w (hwaits.symm ▸ hw)

/-- After a pair has settled, the open pairs are the others that were open before, and those that
wait for it and for nothing that is not settled. -/
theorem open_update_iff (hopen : (A x).settled = false) (hne : st ≠ .waiting)
    (hbehind : ∀ p, x ∈ c.waits p → A p = .waiting) (hself : x ∉ c.waits x) (p : Pair) :
    Open c (Function.update A x st) p ↔ (p ≠ x ∧ Open c A p) ∨
      c.Planned p ∧ x ∈ c.waits p ∧
        ∀ w ∈ c.waits p, (Function.update A x st w).settled = true := by
  constructor
  · rintro ⟨hp, hwait, hall⟩
    have hpx : p ≠ x := by
      rintro rfl
      rw [Function.update_self] at hwait
      exact hne hwait
    rw [Function.update_of_ne hpx] at hwait
    by_cases hx : x ∈ c.waits p
    · exact Or.inr ⟨hp, hx, hall⟩
    · refine Or.inl ⟨hpx, hp, hwait, fun w hw => ?_⟩
      have hwx : w ≠ x := fun heq => hx (heq ▸ hw)
      have := hall w hw
      rwa [Function.update_of_ne hwx] at this
  · rintro (⟨hpx, ho⟩ | ⟨hp, hx, hall⟩)
    · refine ⟨ho.planned, by rw [Function.update_of_ne hpx]; exact ho.waiting, fun w hw => ?_⟩
      have hwx : w ≠ x := by
        rintro rfl
        rw [ho.settled w hw] at hopen
        cases hopen
      rw [Function.update_of_ne hwx]
      exact ho.settled w hw
    · have hpx : p ≠ x := fun heq => hself (heq ▸ hx)
      exact ⟨hp, by rw [Function.update_of_ne hpx]; exact hbehind p hx, hall⟩

/-- **A loose pair is settled**, and the pairs that waited for it alone can be considered. -/
theorem put_settled (h : Queued c A (some x) s) (hn : (Table.keys c.plan).Nodup)
    (hopen : (A x).settled = false) (hst : st.settled = true)
    (hstatus : ∀ p, s.status p = (Function.update A x st p).status)
    (hbehind : ∀ p, x ∈ c.waits p → A p = .waiting) (hself : x ∉ c.waits x)
    (ha : x ∈ s.abandoned → st.isOverrun = true) :
    Queued c (Function.update A x st) none (s.settle c.plan x) := by
  have hne : st ≠ .waiting := by
    rintro rfl
    cases hst
  have hready : st.isReady = false := by cases st <;> first | rfl | cases hst
  have hrunning : st.isRunning = false := by cases st <;> first | rfl | cases hst
  refine ⟨⟨?_, ?_⟩, h.ready.fix (fun p hp => by rw [Function.update_of_ne hp])
    (by simp [hready]), h.readied_update,
    h.running.fix (fun p hp => by rw [Function.update_of_ne hp]) (by simp [hrunning]),
    h.abandoned_nodup, h.abandoned_update ha, h.calls_nodup, h.mem_calls, h.calls_update⟩
  · refine List.nodup_append.mpr ⟨h.promoted.nodup,
      hn.sublist (List.filter_sublist.map Prod.fst), ?_⟩
    rintro p hp q hq rfl
    have ho := ((h.promoted.mem_iff p).mp hp).2
    rw [ho.settled x ((mem_released_update hn hstatus p).mp hq).2.1] at hopen
    cases hopen
  · intro p
    rw [settle, List.mem_append, h.promoted.mem_iff p, mem_released_update hn hstatus p,
      open_update_iff hopen hne hbehind hself p]
    simp [@eq_comm _ x p]

end Queued

end Rollout
