import Rollout.Proofs.Run.Considered

/-!
# What starting and waiting lead to

Starting a ready pair is a move. Waiting moves the clock to the first moment at which something
happens, takes in the answer that arrives then, and gives up the pairs whose time is up.

Between two steps of a run no deadline has passed. So an answer that is taken in has come in time,
and a pair that is given up has indeed run out of time: the clock never jumps over an answer.

**Types.** `Timely`, `Punctual`.

**Results.**
* `Tied.start_spec`: starting a pair is a move, or a halt over its context;
* `Tied.deliver_spec`: taking in an answer is a move, or a halt over what it brought;
* `expire_spec`: giving up pairs is a series of moves;
* `wait_cases`: what a wait does;
* `Tied.wait_spec`: a wait moves the clock and makes at least one move.
-/

namespace Rollout

open RunState

/-- No deadline has passed. -/
def Timely (s : RunState) : Prop :=
  ∀ p task, Table.get? p s.running = some task → ∀ d ∈ task.deadline, s.now < d

/-- The executors of pairs whose time is up have used it up. -/
def Punctual (s : RunState) : Prop :=
  ∀ p task, Table.get? p s.running = some task → ∀ d ∈ task.deadline, d ≤ s.now →
    ∀ call ∈ s.calls, call.pair = p → d ≤ call.due

variable {c : Setup} {requested : List Phase} {base s s' : RunState} {A : Chart} {x : Pair}

/-! ### Moments -/

theorem later_eq (a b : Rat) : later a b = max a b := by
  rw [later, max_def]

/-- A fold that keeps the lesser one of two items finds a least item, if there is any. -/
theorem foldl_least {α : Type} (key : α → Rat) {f : Option α → α → Option α}
    (hnone : ∀ a, f none a = some a)
    (hsome : ∀ b a, (f (some b) a = some b ∧ key b ≤ key a) ∨
      (f (some b) a = some a ∧ key a ≤ key b)) (items : List α) :
    (items.foldl f none = none → items = []) ∧
      ∀ m, items.foldl f none = some m → m ∈ items ∧ ∀ a ∈ items, key m ≤ key a := by
  induction items using List.reverseRecOn with
  | nil => exact ⟨fun _ => rfl, fun m hm => (by cases hm)⟩
  | append_singleton before last ih =>
    obtain ⟨ihnone, ihsome⟩ := ih
    rw [List.foldl_append, List.foldl_cons, List.foldl_nil]
    cases hb : before.foldl f none with
    | none =>
      rw [ihnone hb, hnone]
      refine ⟨fun h => (by cases h), fun m hm => ?_⟩
      obtain rfl := Option.some.inj hm
      exact ⟨by simp, by simp⟩
    | some b =>
      obtain ⟨hmem, hle⟩ := ihsome b hb
      rcases hsome b last with ⟨hf, hbl⟩ | ⟨hf, hlb⟩
      · rw [hf]
        refine ⟨fun h => (by cases h), fun m hm => ?_⟩
        obtain rfl := Option.some.inj hm
        refine ⟨List.mem_append_left _ hmem, fun a ha => ?_⟩
        rcases List.mem_append.mp ha with ha | ha
        · exact hle a ha
        · rw [List.mem_singleton.mp ha]
          exact hbl
      · rw [hf]
        refine ⟨fun h => (by cases h), fun m hm => ?_⟩
        obtain rfl := Option.some.inj hm
        refine ⟨by simp, fun a ha => ?_⟩
        rcases List.mem_append.mp ha with ha | ha
        · exact le_trans hlb (hle a ha)
        · rw [List.mem_singleton.mp ha]

/-- The earliest of some moments is one of them, and none is earlier. -/
theorem earliest?_spec (moments : List Rat) :
    (earliest? moments = none → moments = []) ∧
      ∀ m, earliest? moments = some m → m ∈ moments ∧ ∀ t ∈ moments, m ≤ t := by
  refine foldl_least (fun t => t) (fun a => rfl) (fun b a => ?_) moments
  by_cases hba : b ≤ a
  · exact Or.inl ⟨by simp [hba], hba⟩
  · exact Or.inr ⟨by simp [hba], le_of_lt (lt_of_not_ge hba)⟩

/-- The first call is one of the calls, and none is due earlier. -/
theorem firstCall?_spec (calls : List Call) :
    (firstCall? calls = none → calls = []) ∧
      ∀ m, firstCall? calls = some m → m ∈ calls ∧ ∀ call ∈ calls, m.due ≤ call.due := by
  refine foldl_least Call.due (fun a => rfl) (fun b a => ?_) calls
  by_cases hab : a.due < b.due
  · exact Or.inr ⟨by simp [hab], le_of_lt hab⟩
  · exact Or.inl ⟨by simp [hab], le_of_not_gt hab⟩

/-- The limit of a wait is the first deadline that is still to come. -/
theorem limit?_eq_some (hn : (Table.keys s.running).Nodup) (ht : Timely s) {t : Rat}
    (h : s.limit? = some t) :
    (∃ p task, Table.get? p s.running = some task ∧ task.deadline = some t) ∧ s.now < t ∧
      ∀ p task, Table.get? p s.running = some task → ∀ d ∈ task.deadline, t ≤ d := by
  obtain ⟨m, hm, hlater⟩ := Option.map_eq_some_iff.mp h
  obtain ⟨hmem, hle⟩ := (earliest?_spec _).2 m hm
  obtain ⟨⟨p, task⟩, he, hd⟩ := List.mem_filterMap.mp hmem
  have hget : Table.get? p s.running = some task := (Table.get?_eq_some_iff hn).mpr he
  have hlt : s.now < m := ht p task hget m hd
  have hmt : m = t := by rw [← hlater, later_eq, max_eq_right (le_of_lt hlt)]
  subst hmt
  refine ⟨⟨p, task, hget, hd⟩, hlt, fun q task' hq d hd' => ?_⟩
  exact hle d (List.mem_filterMap.mpr ⟨(q, task'), Table.mem_of_get? hq, hd'⟩)

/-- Without a limit no running pair has a deadline. -/
theorem limit?_eq_none (h : s.limit? = none) {p : Pair} {task : Task}
    (hget : Table.get? p s.running = some task) : task.deadline = none := by
  have hnil := (earliest?_spec _).1 (Option.map_eq_none_iff.mp h)
  cases hd : task.deadline with
  | none => rfl
  | some d =>
    have hm : d ∈ s.running.filterMap fun e => e.2.deadline :=
      List.mem_filterMap.mpr ⟨(p, task), Table.mem_of_get? hget, hd⟩
    rw [hnil] at hm
    cases hm

/-- The clock may move to a moment at which no call is overdue. -/
theorem punctual_tick (ht : Timely s) {t : Rat} (h : t ≤ s.now ∨ ∀ call ∈ s.calls, t ≤ call.due) :
    Punctual { s with now := t } := by
  intro p task hget d hd hle call hcall _
  rcases h with h | h
  · have := ht p task hget d hd
    exact absurd (le_trans hle h) (not_le_of_gt this)
  · exact le_trans hle (h call hcall)

/-! ### Starting -/

/-- The clock is no part of what a state is tied to. -/
theorem Tied.tick (h : Tied c base A s) (t : Rat) : Tied c base A { s with now := t } :=
  ⟨⟨h.shown.offPlan, h.shown.keys, h.shown.outcome, h.shown.fingerprint, h.shown.graph,
    h.shown.outputs, h.shown.record, h.shown.version, h.shown.release, h.shown.stack,
    h.shown.once, h.shown.called⟩,
    fun p => (h.fit p).lasting ⟨fun _ _ => rfl, fun _ => ⟨fun _ _ => rfl, rfl, fun _ _ _ => rfl,
      fun _ => rfl, fun _ _ _ _ => rfl⟩⟩, h.queued.congr rfl rfl rfl rfl rfl⟩

/-- **Starting a pair** is a move, or a halt over its context. -/
theorem Tied.start_spec (hc : c.Checked requested) (h : Tied c base A s) {item : Ready}
    {rest : List Ready} (hr : s.ready = item :: rest) (hw : s.hasWorker c = true) :
    Leads c base s ({ s with ready := rest }.start c item) := by
  obtain ⟨⟨digest, hA⟩, -⟩ := h.queued.take_ready hr
  have hplanned : c.Planned item.pair := h.shown.planned_of_ne (by simp [hA])
  obtain ⟨n, hn, -⟩ := hc.exists_node hplanned
  obtain ⟨timeout, work, he, -⟩ := hc.exists_executor hplanned
  cases hctx : context c item.pair n.unit item.resolved with
  | error fault =>
    refine Or.inr ⟨⟨.initStep fault, { s with ready := rest }⟩, ?_, .context hr hn hctx,
      Quiet.refl s⟩
    simp only [RunState.start, hn, he, hctx]
  | ok ctx =>
    refine Or.inl ⟨_, ?_, .start hr hw hn he hctx⟩
    simp only [RunState.start, hn, he, hctx]
    rfl

/-! ### Taking in answers -/

/-- Save the success of a pair and report it, if the save succeeds. -/
def saveSuccess (c : Setup) (x : Pair) (task : Task) (snapshot : Option Value)
    (outputs : Option Entries) (ms : Rat) (s : RunState) : Except Halt RunState :=
  let state := s.buildstate.markSucceeded x.fqn x.phase task.fingerprint snapshot outputs
  let saved := c.store.save c.graph.stackName state s.files
  match saved.path with
  | .error fault =>
    .error ⟨.store fault, { s with buildstate := saved.state, files := saved.files }⟩
  | .ok _ => .ok (s.conclude c x task.fingerprint snapshot outputs ms)

theorem succeed_eq (call : Call) (task : Task) (given : Option Entries) :
    s.succeed c x task call given =
      if x.phase = .deploy then
        (s.recordOutputs x.fqn (completed c x task.namespaceName given)).bind
          (saveSuccess c x task
            (some (.object [("inputs", call.reply.inputs), ("values", call.reply.values)]))
            (some (completed c x task.namespaceName given)) ((call.due - call.started) * 1000))
      else saveSuccess c x task none none ((call.due - call.started) * 1000) s := by
  by_cases hd : x.phase = .deploy
  · rw [if_pos hd]
    simp only [RunState.succeed, if_pos hd]
    change Except.bind (s.recordOutputs x.fqn (completed c x task.namespaceName given)) _ = _
    cases s.recordOutputs x.fqn (completed c x task.namespaceName given) <;> rfl
  · rw [if_neg hd]
    simp only [RunState.succeed, if_neg hd]
    rfl

/-- Success is published and saved, or the run halts: the outputs cannot be admitted, or the save
fails. -/
theorem Tied.succeed_spec (h : Tied c base A s) {call : Call} {task : Task}
    {given : Option Entries} (hcall : call ∈ s.calls)
    (hrun : Table.get? call.pair s.running = some task)
    (hintime : ∀ d ∈ task.deadline, call.due ≤ d) (ha : call.reply.answer.result = .ok given) :
    Leads c base s (((s.release call.pair).succeed c call.pair task call given).map
      (settle c.plan call.pair)) := by
  obtain ⟨ctx, hA, -⟩ := returned_of_underway (h.queued.underway call hcall task hrun) hintime
  have hopen : (A call.pair).settled = false := by rw [hA]; rfl
  have hsave {snapshot : Option Value} {outputs : Option Entries}
      (hg : gain c base call.pair task.namespaceName call.reply given = .ok (snapshot, outputs)) :
      Leads c base s ((saveSuccess c call.pair task snapshot outputs
        ((call.due - call.started) * 1000)
          ((s.release call.pair).publish call.pair.fqn outputs)).map
            (settle c.plan call.pair)) := by
    rw [saveSuccess]
    split
    · rename_i fault hpath
      refine Or.inr ⟨_, rfl, .save hcall hrun hintime ha hg hpath, ?_⟩
      refine ⟨publication call.pair.fqn outputs s.files, rfl, fun e he p heq => ?_⟩
      obtain ⟨fields, hfields⟩ := progress_of_mem_publication he
      rw [hfields] at heq
      cases heq
    · rename_i path hpath
      exact Or.inl ⟨_, rfl, .succeed hcall hrun hintime ha hg hpath⟩
  rw [succeed_eq]
  by_cases hd : call.pair.phase = .deploy
  · rw [if_pos hd]
    obtain ⟨n, hn⟩ : ∃ n, c.graph.node? call.pair.fqn = some n := by
      obtain ⟨t, -, hbegun⟩ := h.fit call.pair
      rw [hA] at hbegun
      obtain ⟨resolved, n, -, hn, -⟩ := hbegun
      exact ⟨n, hn⟩
    have hgain : gain c base call.pair task.namespaceName call.reply given =
        (base.accept call.pair.fqn (completed c call.pair task.namespaceName given)).map fun _ =>
          (some (.object [("inputs", call.reply.inputs), ("values", call.reply.values)]),
            some (completed c call.pair task.namespaceName given)) := by
      rw [gain, if_pos hd]
    rcases recordOutputs_spec base (s.release call.pair)
      (completed c call.pair task.namespaceName given) (h.has_resolver hn)
      (h.outputs?_of_open hopen hd) with ⟨keys, hk, hr⟩ | ⟨fault, state, hk, hr, hj⟩
    · rw [hr]
      refine hsave ?_
      rw [hgain, hk]
      rfl
    · rw [hr]
      refine Or.inr ⟨⟨fault, state⟩, rfl, .gain hcall hrun hintime ha ?_, [],
        by rw [List.append_nil]; exact hj, by simp⟩
      rw [hgain, hk]
      rfl
  · rw [if_neg hd]
    have hgain : gain c base call.pair task.namespaceName call.reply given = .ok (none, none) := by
      rw [gain, if_neg hd]
    have := hsave hgain
    simpa [publish, publication] using this

/-- **Taking in an answer** is a move, or a halt over what it brought. -/
theorem Tied.deliver_spec (h : Tied c base A s) {call : Call} (hcall : call ∈ s.calls)
    (hintime : ∀ task, Table.get? call.pair s.running = some task →
      ∀ d ∈ task.deadline, call.due ≤ d) :
    Leads c base s ({ s with
      calls := s.calls.filter fun other => other.pair != call.pair }.deliver c call) := by
  rw [deliver]
  by_cases ha : call.pair ∈ s.abandoned
  · rw [if_pos (by simpa using ha)]
    exact Or.inl ⟨_, rfl, .late ha⟩
  · rw [if_neg (by simpa using ha)]
    have hkey : call.pair ∈ Table.keys s.running :=
      ((h.queued.mem_calls call.pair).mp (List.mem_map_of_mem hcall)).resolve_right ha
    obtain ⟨task, hrun⟩ := Table.exists_get?_of_mem hkey
    simp only [hrun]
    cases hr : call.reply.answer.result with
    | ok given => exact h.succeed_spec hcall hrun (hintime task hrun) hr
    | error cause => exact Or.inl ⟨_, rfl, .fail hcall hrun (hintime task hrun) hr⟩

/-! ### Giving up -/

/-- Give a running pair up if its time is up. -/
def expireOne (c : Setup) (s : RunState) (e : Pair × Task) : RunState :=
  match e.2.deadline with
  | none => s
  | some deadline =>
    if deadline ≤ s.now then
      ((s.giveUp e.1).fail e.1 (timeoutCause (deadline - e.2.started))
        ((s.now - e.2.started) * 1000) true).settle c.plan e.1
    else s

theorem expire_eq : s.expire c = s.running.foldl (expireOne c) s := rfl

/-- Giving up one pair is a move if its time is up, and nothing otherwise. -/
theorem expireOne_spec (c : Setup) (base : RunState) (hp : Punctual s) {e : Pair × Task}
    (hget : Table.get? e.1 s.running = some e.2) :
    (expireOne c s e = s ∧ ∀ d ∈ e.2.deadline, s.now < d) ∨
      (Move c base s (expireOne c s e) ∧ (∃ d ∈ e.2.deadline, d ≤ s.now) ∧
        (expireOne c s e).now = s.now ∧ (expireOne c s e).calls = s.calls ∧
        (expireOne c s e).running = Table.erase e.1 s.running) := by
  cases hd : e.2.deadline with
  | none => exact Or.inl ⟨by rw [expireOne, hd], by simp⟩
  | some deadline =>
    by_cases hle : deadline ≤ s.now
    · have hone : expireOne c s e = ((s.giveUp e.1).fail e.1
          (timeoutCause (deadline - e.2.started)) ((s.now - e.2.started) * 1000) true).settle
            c.plan e.1 := by
        rw [expireOne, hd]
        exact if_pos hle
      rw [hone]
      exact Or.inr ⟨.timeout hget hd (hp e.1 e.2 hget deadline hd hle), ⟨deadline, rfl, hle⟩, rfl,
        rfl, rfl⟩
    · refine Or.inl ⟨?_, fun d hd' => ?_⟩
      · rw [expireOne, hd]
        exact if_neg hle
      · rw [← Option.some.inj hd']
        exact lt_of_not_ge hle

/-- **Giving up pairs** is a series of moves, after which the time of no pair in question is up. -/
theorem foldl_expireOne (c : Setup) (base : RunState) (todo : Table Pair Task)
    (hkeys : (Table.keys todo).Nodup)
    (hn : (Table.keys s.running).Nodup) (hp : Punctual s)
    (hget : ∀ e ∈ todo, Table.get? e.1 s.running = some e.2) :
    Relation.ReflTransGen (Move c base) s (todo.foldl (expireOne c) s) ∧
      (todo.foldl (expireOne c) s).now = s.now ∧
      (∀ p task, Table.get? p (todo.foldl (expireOne c) s).running = some task →
        Table.get? p s.running = some task ∧
          ((p, task) ∈ todo → ∀ d ∈ task.deadline, s.now < d)) ∧
      ((∃ e ∈ todo, ∃ d ∈ e.2.deadline, d ≤ s.now) →
        Relation.TransGen (Move c base) s (todo.foldl (expireOne c) s)) := by
  induction todo generalizing s with
  | nil =>
    refine ⟨.refl, rfl, fun p task h => ⟨h, fun hm => (by cases hm)⟩, ?_⟩
    rintro ⟨e, he, -⟩
    cases he
  | cons e todo ih =>
    obtain ⟨hnot, hkeys⟩ := List.nodup_cons.mp hkeys
    have hget' := fun e' he => hget e' (List.mem_cons_of_mem _ he)
    rw [List.foldl_cons]
    rcases expireOne_spec c base hp (hget e List.mem_cons_self) with
      ⟨hsame, hopen⟩ | ⟨hmove, -, hnow, hcalls, hrun⟩
    · rw [hsame]
      obtain ⟨hmoves, hnow, hleft, hsome⟩ := ih hkeys hn hp hget'
      refine ⟨hmoves, hnow, fun p task h => ⟨(hleft p task h).1, fun hm => ?_⟩, ?_⟩
      · rcases List.mem_cons.mp hm with rfl | hm
        · exact hopen
        · exact (hleft p task h).2 hm
      · rintro ⟨e', he, d, hd, hle⟩
        rcases List.mem_cons.mp he with rfl | he
        · exact absurd hle (not_le_of_gt (hopen d hd))
        · exact hsome ⟨e', he, d, hd, hle⟩
    · have hold {p : Pair} {task : Task}
          (h : Table.get? p (expireOne c s e).running = some task) :
          p ≠ e.1 ∧ Table.get? p s.running = some task := by
        rw [hrun] at h
        exact Table.get?_of_get?_erase hn h
      have hn' : (Table.keys (expireOne c s e).running).Nodup := by
        rw [hrun, Table.keys_erase]
        exact hn.erase e.1
      have hp' : Punctual (expireOne c s e) := by
        intro p task h d hd hle call hcall hpair
        rw [hcalls] at hcall
        rw [hnow] at hle
        exact hp p task (hold h).2 d hd hle call hcall hpair
      have hget'' : ∀ e' ∈ todo, Table.get? e'.1 (expireOne c s e).running = some e'.2 := by
        intro e' he
        have hne : e'.1 ≠ e.1 := fun heq => hnot (heq ▸ List.mem_map_of_mem (f := Prod.fst) he)
        rw [hrun, Table.get?_erase_of_ne hne]
        exact hget' e' he
      obtain ⟨hmoves, hnow', hleft, -⟩ := ih hkeys hn' hp' hget''
      have htrans := Relation.TransGen.head' hmove hmoves
      refine ⟨htrans.to_reflTransGen, hnow'.trans hnow, fun p task h => ?_, fun _ => htrans⟩
      obtain ⟨h, htodo⟩ := hleft p task h
      obtain ⟨hpe, hget⟩ := hold h
      refine ⟨hget, fun hm => ?_⟩
      rcases List.mem_cons.mp hm with rfl | hm
      · exact absurd rfl hpe
      · rw [← hnow]
        exact htodo hm

/-- Giving up all pairs whose time is up leaves no deadline behind that has passed. -/
theorem expire_spec (c : Setup) (base : RunState) (hp : Punctual s)
    (hn : (Table.keys s.running).Nodup) :
    Relation.ReflTransGen (Move c base) s (s.expire c) ∧ Timely (s.expire c) ∧
      ((∃ p task, Table.get? p s.running = some task ∧ ∃ d ∈ task.deadline, d ≤ s.now) →
        Relation.TransGen (Move c base) s (s.expire c)) := by
  obtain ⟨hmoves, hnow, hleft, hsome⟩ := foldl_expireOne c base s.running hn hn hp
    fun e he => (Table.get?_eq_some_iff hn).mpr he
  rw [expire_eq]
  refine ⟨hmoves, fun p task h d hd => ?_, ?_⟩
  · obtain ⟨hget, hopen⟩ := hleft p task h
    rw [hnow]
    exact hopen (Table.mem_of_get? hget) d hd
  · rintro ⟨p, task, hget, hd⟩
    exact hsome ⟨(p, task), Table.mem_of_get? hget, hd⟩

/-! ### Waiting -/

/-- Moves in a row, after the clock has moved. -/
def Advances (c : Setup) (base s s' : RunState) : Prop :=
  ∃ t, Relation.TransGen (Move c base) { s with now := t } s'

/-- A move keeps the clock. What runs after it has run before, with no more calls, or has its time
still before it. -/
theorem Tied.running_move (hc : c.Checked requested) (h : Tied c base A s)
    (hm : Move c base s s') :
    s'.now = s.now ∧ ∀ p task, Table.get? p s'.running = some task →
      (Table.get? p s.running = some task ∧
        ∀ call ∈ s'.calls, call.pair = p → call ∈ s.calls) ∨
      ∀ d ∈ task.deadline, s.now < d := by
  have herase {x p : Pair} {task : Task} (h' : Table.get? p (Table.erase x s.running) = some task) :
      Table.get? p s.running = some task :=
    (Table.get?_of_get?_erase h.queued.running.nodup h').2
  cases hm with
  | skip hp hv => exact ⟨rfl, fun p task h' => Or.inl ⟨h', fun call hm _ => hm⟩⟩
  | miss hp hv => exact ⟨rfl, fun p task h' => Or.inl ⟨h', fun call hm _ => hm⟩⟩
  | reuse hp hv => exact ⟨rfl, fun p task h' => Or.inl ⟨h', fun call hm _ => hm⟩⟩
  | ready hp hv => exact ⟨rfl, fun p task h' => Or.inl ⟨h', fun call hm _ => hm⟩⟩
  | @start item rest n timeout work ctx hr hw hn he hctx =>
    obtain ⟨⟨digest, hA⟩, -⟩ := h.queued.take_ready hr
    refine ⟨rfl, fun p task h' => ?_⟩
    change Table.get? p (Table.set item.pair _ s.running) = some task at h'
    by_cases hpx : p = item.pair
    · right
      intro d hd
      rw [hpx, Table.get?_set_self, Option.some.injEq] at h'
      rw [← h'] at hd
      obtain ⟨t, ht, rfl⟩ := Option.map_eq_some_iff.mp hd
      obtain ⟨timeout', work', he', hpos⟩ :=
        hc.exists_executor (h.shown.planned_of_ne (p := item.pair) (by simp [hA]))
      rw [he, Option.some.injEq, Executor.mk.injEq] at he'
      have := hpos t (he'.1 ▸ ht)
      linarith
    · rw [Table.get?_set_of_ne hpx] at h'
      refine Or.inl ⟨h', fun call hm hpair => ?_⟩
      rcases List.mem_append.mp hm with hm | hm
      · exact hm
      · rw [List.mem_singleton.mp hm] at hpair
        exact absurd hpair.symm hpx
  | succeed hcall hrun hintime ha hg =>
    exact ⟨rfl, fun p task h' => Or.inl ⟨herase h', fun call hm _ => (List.mem_filter.mp hm).1⟩⟩
  | fail hcall hrun hintime ha =>
    exact ⟨rfl, fun p task h' => Or.inl ⟨herase h', fun call hm _ => (List.mem_filter.mp hm).1⟩⟩
  | timeout hrun hd hlate =>
    exact ⟨rfl, fun p task h' => Or.inl ⟨herase h', fun call hm _ => hm⟩⟩
  | late ha =>
    exact ⟨rfl, fun p task h' => Or.inl ⟨h', fun call hm _ => (List.mem_filter.mp hm).1⟩⟩

theorem Tied.timely_move (hc : c.Checked requested) (h : Tied c base A s)
    (hm : Move c base s s') (ht : Timely s) : Timely s' := by
  obtain ⟨hnow, hrun⟩ := h.running_move hc hm
  intro p task hget d hd
  rw [hnow]
  rcases hrun p task hget with ⟨hold, -⟩ | hnew
  · exact ht p task hold d hd
  · exact hnew d hd

theorem Tied.punctual_move (hc : c.Checked requested) (h : Tied c base A s)
    (hm : Move c base s s') (hp : Punctual s) : Punctual s' := by
  obtain ⟨hnow, hrun⟩ := h.running_move hc hm
  intro p task hget d hd hle call hcall hpair
  rw [hnow] at hle
  rcases hrun p task hget with ⟨hold, hcalls⟩ | hnew
  · exact hp p task hold d hd hle call (hcalls call hcall hpair) hpair
  · exact absurd hle (not_le_of_gt (hnew d hd))

/-- What a wait does is decided by the call that returns first: its answer is taken in if it arrives
before all deadlines, and otherwise the clock moves to the first deadline. -/
theorem wait_cases (hn : (Table.keys s.running).Nodup) (ht : Timely s) {first : Call}
    (hfirst : firstCall? s.calls = some first) :
    ((∀ p task, Table.get? p s.running = some task → ∀ d ∈ task.deadline, first.due ≤ d) ∧
      s.wait c = ({ s with
        now := later s.now first.due
        calls := s.calls.filter fun other => other.pair != first.pair }.deliver c first).map
          (expire c)) ∨
      ∃ t, t < first.due ∧
        (∃ p task, Table.get? p s.running = some task ∧ task.deadline = some t) ∧
        (∀ p task, Table.get? p s.running = some task → ∀ d ∈ task.deadline, t ≤ d) ∧
        s.wait c = .ok ({ s with now := t }.expire c) := by
  cases hlim : s.limit?.all fun t => decide (first.due ≤ t) with
  | true =>
    refine Or.inl ⟨fun p task hget d hd => ?_, by rw [wait, hfirst]; exact if_pos hlim⟩
    cases hl : s.limit? with
    | none =>
      rw [limit?_eq_none hl hget] at hd
      cases hd
    | some t =>
      rw [hl] at hlim
      have hle : first.due ≤ t := of_decide_eq_true hlim
      exact le_trans hle ((limit?_eq_some hn ht hl).2.2 p task hget d hd)
  | false =>
    obtain ⟨t, hl⟩ : ∃ t, s.limit? = some t := by
      cases hl : s.limit? with
      | none => simp [hl] at hlim
      | some t => exact ⟨t, rfl⟩
    obtain ⟨hsome, -, hleast⟩ := limit?_eq_some hn ht hl
    have hlt : t < first.due := by
      rw [hl] at hlim
      exact lt_of_not_ge (of_decide_eq_false hlim)
    refine Or.inr ⟨t, hlt, hsome, hleast, ?_⟩
    rw [hl] at hlim
    rw [wait, hfirst, hl]
    exact if_neg (by rw [hlim]; simp)

/-- **A wait** moves the clock and makes at least one move, or halts over the answer that it takes
in. -/
theorem Tied.wait_spec (hc : c.Checked requested) (h : Tied c base A s) (ht : Timely s)
    (hbusy : s.calls ≠ []) :
    (∃ s', s.wait c = .ok s' ∧ Timely s' ∧ Advances c base s s') ∨
      ∃ halt, s.wait c = .error halt ∧ ∃ t, Blame c base { s with now := t } halt.fault ∧
        Quiet s halt.state := by
  obtain ⟨first, hfirst⟩ : ∃ first, firstCall? s.calls = some first := by
    cases hf : firstCall? s.calls with
    | none => exact absurd ((firstCall?_spec s.calls).1 hf) hbusy
    | some first => exact ⟨first, rfl⟩
  obtain ⟨hcall, hleast⟩ := (firstCall?_spec s.calls).2 first hfirst
  have hn := h.queued.running.nodup
  rcases wait_cases (c := c) hn ht hfirst with
    ⟨hintime, hwait⟩ | ⟨t, hlt, ⟨p, task, hget, hd⟩, -, hwait⟩
  · -- the answer of the first call arrives before any deadline has passed
    have hpunctual : Punctual { s with now := later s.now first.due } := by
      refine punctual_tick ht ?_
      rw [later_eq]
      rcases le_total first.due s.now with hle | hle
      · exact Or.inl (by rw [max_eq_left hle])
      · rw [max_eq_right hle]
        exact Or.inr hleast
    rw [hwait]
    rcases (h.tick (later s.now first.due)).deliver_spec hcall (hintime first.pair) with
      ⟨s', hs', hmove⟩ | ⟨halt, hs', hblame, hquiet⟩
    · have hp' := (h.tick _).punctual_move hc hmove hpunctual
      obtain ⟨A', htied, -⟩ := (h.tick _).move hc hmove
      obtain ⟨hmoves, htimely, -⟩ := expire_spec c base hp'
        htied.queued.running.nodup
      exact Or.inl ⟨s'.expire c, by rw [hs']; rfl, htimely, _,
        Relation.TransGen.head' hmove hmoves⟩
    · exact Or.inr ⟨halt, by rw [hs']; rfl, _, hblame, hquiet⟩
  · -- the first deadline passes before any answer arrives
    have hpunctual : Punctual { s with now := t } :=
      punctual_tick ht (Or.inr fun call hm => le_trans (le_of_lt hlt) (hleast call hm))
    obtain ⟨-, htimely, hsome⟩ := expire_spec c base hpunctual hn
    exact Or.inl ⟨_, hwait, htimely, t, hsome ⟨p, task, hget, t, hd, le_refl t⟩⟩

end Rollout
