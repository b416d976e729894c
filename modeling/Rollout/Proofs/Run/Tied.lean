import Mathlib.Tactic.Linarith
import Rollout.Proofs.Run.Move

/-!
# Moves keep a chart behind the state

A state is tied to a chart when it shows the chart, when the chart fits what the pairs read, and
when the queues hold the open pairs of the chart. Every move leads from a tied state to a tied
state. It keeps the standings of settled pairs, and leaves less to be done: a pair is considered
once, started once and answered once.

**Types.** `Tied`, `Settles`.

**Results.** `Tied.move`: a move keeps a chart behind the state, and the rest gets smaller.
-/

namespace Rollout

open RunState

/-- A state goes with a chart: it shows the chart, the chart fits, and the queues are those of the
chart. -/
structure Tied (c : Setup) (base : RunState) (A : Chart) (s : RunState) : Prop where
  shown : Shown c base A s
  fit : AllFit c base s A
  queued : Queued c A none s

/-- One chart keeps the settled standings of another one. -/
def Settles (A A' : Chart) : Prop := ∀ p, (A p).settled = true → A' p = A p

theorem settles_update {A : Chart} {x : Pair} (hx : (A x).settled = false) (st : Standing) :
    Settles A (Function.update A x st) := by
  intro p hp
  refine Function.update_of_ne ?_ _ _
  rintro rfl
  rw [hx] at hp
  cases hp

theorem Settles.trans {A B C : Chart} (h : Settles A B) (h' : Settles B C) : Settles A C := by
  intro p hp
  have hB := h p hp
  rw [h' p (by rwa [hB]), hB]

/-- How much can still happen: to the pairs, and with the calls that have not returned. -/
def Chart.rest (A : Chart) (c : Setup) (s : RunState) : Nat :=
  ((Table.keys c.plan).map fun p => (A p).weight).sum + s.calls.length

variable {c : Setup} {requested : List Phase} {base s s' : RunState} {A : Chart} {x : Pair}
  {st : Standing}

/-- What the other pairs weigh stays the same when one pair moves. -/
theorem sum_weight_update {keys : List Pair} (hn : keys.Nodup) (hx : x ∈ keys) (A : Chart)
    (st : Standing) :
    (keys.map fun p => (Function.update A x st p).weight).sum + (A x).weight =
      (keys.map fun p => (A p).weight).sum + st.weight := by
  induction keys with
  | nil => cases hx
  | cons k rest ih =>
    obtain ⟨hk, hrest⟩ := List.nodup_cons.mp hn
    simp only [List.map_cons, List.sum_cons]
    by_cases hkx : k = x
    · subst hkx
      have hsame : (rest.map fun p => (Function.update A k st p).weight) =
          rest.map fun p => (A p).weight := by
        refine List.map_congr_left fun p hp => ?_
        rw [Function.update_of_ne]
        rintro rfl
        exact hk hp
      rw [hsame, Function.update_self]
      omega
    · have hx : x ∈ rest := (List.mem_cons.mp hx).resolve_left fun heq => hkx heq.symm
      have := ih hrest hx
      rw [Function.update_of_ne hkx]
      omega

/-- An outcome is what its timeless part says, with a time. -/
theorem Outcome.eq_of_untimed {o o' : Outcome} (h : o.untimed = o') :
    o = { o' with durationMs := o.durationMs } := by
  subst h
  rfl

namespace Tied

/-- Shown charts keep fitting when the state changes in other respects. -/
theorem of_shown (hc : c.Checked requested) (h : Tied c base A s) (hs' : Shown c base A s')
    (hq : Queued c A none s') : Tied c base A s' := by
  refine ⟨hs', fun p => ?_, hq⟩
  by_cases hp : A p = .waiting
  · rw [hp]
    exact .waiting
  · exact (h.fit p).lasting (lasts_of_agree hc h.shown hs' (h.shown.planned_of_ne hp)
      fun q _ => rfl)

/-- A move of an open pair, without what happens to the queues. -/
theorem update (hc : c.Checked requested) (h : Tied c base A s) (hx : c.Planned x)
    (hopen : (A x).settled = false) (hst : Fitted c base s x st)
    (hm : Moved c x (A x) st s s') :
    Shown c base (Function.update A x st) s' ∧ AllFit c base s' (Function.update A x st) := by
  have hs' := h.shown.update hx hopen (h.fit.unmarked_after hc h.shown hx hopen) hm
  exact ⟨hs', h.fit.update hc h.shown hs' hx hopen hst⟩

/-- **A pair is settled.** -/
theorem settled (hc : c.Checked requested) (h : Tied c base A s) (hx : c.Planned x)
    (hopen : (A x).settled = false) (hsettled : st.settled = true) (hst : Fitted c base s x st)
    (hm : Moved c x (A x) st s (s'.settle c.plan x)) (hq : Queued c A (some x) s')
    (ha : x ∈ s'.abandoned → st.isOverrun = true) :
    Tied c base (Function.update A x st) (s'.settle c.plan x) := by
  obtain ⟨hs, hf⟩ := h.update hc hx hopen hst hm
  refine ⟨hs, hf, hq.put_settled hc.nodup hopen hsettled hs.status ?_ ?_ ha⟩
  · intro p hp
    by_contra hne
    rw [h.fit.settled_of_behind h.shown (Relation.TransGen.single hp) hne] at hopen
    cases hopen
  · intro hself
    exact hc.not_behind_self x (Relation.TransGen.single hself)

/-- What a pair takes from the rest when it moves. -/
theorem rest_update (hc : c.Checked requested) (hx : c.Planned x) (A : Chart) (st : Standing)
    (s s' : RunState) :
    Chart.rest (Function.update A x st) c s' + (A x).weight + s.calls.length =
      A.rest c s + st.weight + s'.calls.length := by
  have hsum := sum_weight_update hc.nodup hx A st
  simp only [Chart.rest]
  omega

/-! ### The moves of waiting pairs -/

/-- What is reported about a pair that comes to stand differently. -/
theorem untimed_of {old : Standing} {f : Outcome → Outcome} (hold : A x = old)
    (hf : ∀ ms, (f { old.outcome with durationMs := ms }).untimed = st.outcome) (o : Outcome)
    (ho : o.untimed = (A x).outcome) : (f o).untimed = st.outcome := by
  rw [hold] at ho
  rw [Outcome.eq_of_untimed ho]
  exact hf o.durationMs

/-- The first promoted pair can be considered, and is then loose. -/
theorem considered (h : Tied c base A s) {rest : List Pair} (hp : s.promoted = x :: rest)
    (hv : verdict c base s x = .ok st) :
    Open c A x ∧ Queued c A (some x) { s with promoted := rest } ∧ Fitted c base s x st ∧
      x ∉ s.abandoned := by
  obtain ⟨ho, hq⟩ := h.queued.take_promoted hp
  refine ⟨ho, hq, .of_fits (fits_of_verdict (fun w hw => ?_) hv), fun ha => ?_⟩
  · rw [h.shown.status]
    exact ho.settled w hw
  · have := h.queued.abandoned x ha (by simp)
    rw [ho.waiting] at this
    cases this

theorem pending_of_considered (h : Tied c base A s) {rest : List Pair}
    (hp : s.promoted = x :: rest) (hv : verdict c base s x = .ok st) : s.status x = .pending := by
  rw [h.shown.status, (h.considered hp hv).1.waiting]
  rfl

theorem skipped (hc : c.Checked requested) (h : Tied c base A s) {rest : List Pair} {b : Pair}
    (hp : s.promoted = x :: rest) (hv : verdict c base s x = .ok (.skipped b)) :
    Tied c base (Function.update A x (.skipped b))
      (({ s with promoted := rest }.skip x b).settle c.plan x) := by
  obtain ⟨ho, hq, hfit, ha⟩ := h.considered hp hv
  refine h.settled hc ho.planned (by rw [ho.waiting]; rfl) rfl hfit ?_
    (hq.congr rfl rfl rfl rfl rfl) fun hm => absurd hm ha
  exact {
    outcome := ⟨_, rfl, untimed_of ho.waiting fun _ => rfl⟩
    digest := fun _ => by rw [ho.waiting]; rfl
    fingerprint := Moved.fingerprint_kept h.shown (by rw [ho.waiting]; rfl) rfl
    graph := rfl
    outputs := Moved.outputs_kept rfl rfl
    record := Moved.record_kept rfl rfl
    version := rfl
    release := rfl
    stack := rfl
    contexts := Or.inl ⟨rfl, by rw [ho.waiting]; rfl⟩ }

/-- An output that a pair needs is missing. -/
theorem missed (hc : c.Checked requested) (h : Tied c base A s) {rest : List Pair} {cause : String}
    (hp : s.promoted = x :: rest) (hv : verdict c base s x = .ok (.missing cause)) :
    Tied c base (Function.update A x (.missing cause))
      (({ s with promoted := rest }.fail x cause 0 false).settle c.plan x) := by
  obtain ⟨ho, hq, hfit, ha⟩ := h.considered hp hv
  obtain ⟨hversion, hstack, hrelease⟩ := s.buildstate.markFailed_header x.fqn x.phase
  refine h.settled hc ho.planned (by rw [ho.waiting]; rfl) rfl hfit ?_
    (hq.congr rfl rfl rfl rfl rfl) fun hm => absurd hm ha
  exact {
    outcome := ⟨_, rfl, untimed_of ho.waiting fun _ => rfl⟩
    digest := fun _ => by rw [ho.waiting]; rfl
    fingerprint := Moved.fingerprint_kept h.shown (by rw [ho.waiting]; rfl) rfl
    graph := rfl
    outputs := Moved.outputs_kept rfl rfl
    record := Moved.record_failed (fun _ => rfl) rfl
    version := hversion
    release := hrelease
    stack := hstack
    contexts := Or.inl ⟨rfl, by rw [ho.waiting]; rfl⟩ }

theorem leftover_of_ne {outputs : Option Entries} (hd : x.phase ≠ .deploy)
    (hl : base.leftover x = .ok outputs) : outputs = none := by
  rw [leftover, if_neg hd] at hl
  exact (Except.ok.inj hl).symm

theorem reused (hc : c.Checked requested) (h : Tied c base A s) {rest : List Pair} {digest : String}
    {outputs : Option Entries} (hp : s.promoted = x :: rest)
    (hv : verdict c base s x = .ok (.reused digest outputs)) :
    Tied c base (Function.update A x (.reused digest outputs))
      (((({ s with promoted := rest }.note x digest).confirm x digest).publish
        x.fqn outputs).settle c.plan x) := by
  obtain ⟨ho, hq, hfit, ha⟩ := h.considered hp hv
  have hnone : x.phase ≠ .deploy → outputs = none := by
    intro hd
    rcases verdict_cases hv with ⟨b, hst, -⟩ | ⟨cause, hst, -⟩ | ⟨d, o, hst, hl, -⟩ | ⟨d, r, hst, -⟩
    · cases hst
    · cases hst
    · cases hst
      exact leftover_of_ne hd hl
    · cases hst
  refine h.settled hc ho.planned (by rw [ho.waiting]; rfl) rfl hfit ?_
    (hq.congr rfl rfl rfl rfl rfl) fun hm => absurd hm ha
  exact {
    outcome := ⟨_, Table.modify_modify x _ _ s.outcomes,
      untimed_of ho.waiting fun _ => rfl⟩
    digest := fun _ => by rw [ho.waiting]; rfl
    fingerprint := Moved.fingerprint_set rfl rfl
    graph := rfl
    outputs := Moved.outputs_published rfl hnone
    record := Moved.record_kept rfl rfl
    version := rfl
    release := rfl
    stack := rfl
    contexts := Or.inl ⟨rfl, by rw [ho.waiting]; rfl⟩ }

theorem readied (hc : c.Checked requested) (h : Tied c base A s) {rest : List Pair} {digest : String}
    {resolved : Option Resolved} (hp : s.promoted = x :: rest)
    (hv : verdict c base s x = .ok (.ready digest resolved)) :
    Tied c base (Function.update A x (.ready digest resolved))
      (({ s with promoted := rest }.note x digest).enqueue ⟨x, c.index x.fqn, resolved⟩) := by
  obtain ⟨ho, hq, hfit, ha⟩ := h.considered hp hv
  have hopen : (A x).settled = false := by rw [ho.waiting]; rfl
  have hm : Moved c x (A x) (.ready digest resolved) s
      (({ s with promoted := rest }.note x digest).enqueue ⟨x, c.index x.fqn, resolved⟩) :=
    { outcome := ⟨_, Table.modify_modify x _ _ s.outcomes, untimed_of ho.waiting fun _ => rfl⟩
      digest := fun _ => by rw [ho.waiting]; rfl
      fingerprint := Moved.fingerprint_set rfl rfl
      graph := rfl
      outputs := Moved.outputs_kept rfl rfl
      record := Moved.record_kept rfl rfl
      version := rfl
      release := rfl
      stack := rfl
      contexts := Or.inl ⟨rfl, by rw [ho.waiting]; rfl⟩ }
  obtain ⟨hs', hf'⟩ := h.update hc ho.planned hopen hfit hm
  have hitem : (⟨x, c.index x.fqn, resolved⟩ : Ready).pair = x := rfl
  have hput := hq.put_ready hopen digest hitem ha
  exact ⟨hs', hf', hput.congr rfl rfl rfl rfl rfl⟩

/-! ### The moves of pairs that are ready or running -/

theorem context_pair {u : UnitDef} {resolved : Option Resolved} {ctx : UnitContext}
    (h : context c x u resolved = .ok ctx) : ctx.pair = x := by
  obtain ⟨steps, -, rfl⟩ := eq_ok_of_map h
  rfl

theorem started (hc : c.Checked requested) (h : Tied c base A s) {item : Ready} {rest : List Ready}
    {n : Node} {timeout : Value} {work : UnitContext → Files → Reply} {ctx : UnitContext}
    (hr : s.ready = item :: rest) (hn : c.graph.node? item.pair.fqn = some n)
    (he : Table.get? item.pair.phase c.executors = some ⟨timeout, some work⟩)
    (hctx : context c item.pair n.unit item.resolved = .ok ctx) :
    ∃ digest, A item.pair = .ready digest item.resolved ∧
      Tied c base (Function.update A item.pair (.running digest ctx))
        ({ s with ready := rest }.launch item timeout work ctx) := by
  obtain ⟨⟨digest, hA⟩, hq⟩ := h.queued.take_ready hr
  have hopen : (A item.pair).settled = false := by rw [hA]; rfl
  have hplanned : c.Planned item.pair := h.shown.planned_of_ne (by simp [hA])
  obtain ⟨t, hlasts, hready⟩ := h.fit item.pair
  rw [hA] at hready
  have ha : item.pair ∉ s.abandoned := by
    intro hm
    have := h.queued.abandoned _ hm (by simp)
    rw [hA] at this
    cases this
  have hdigest : (Table.get? item.pair s.fingerprints).getD "" = digest := by
    rw [h.shown.fingerprint, hA]
    rfl
  have hm : Moved c item.pair (A item.pair) (.running digest ctx) s
      ({ s with ready := rest }.launch item timeout work ctx) :=
    { outcome := ⟨_, rfl, untimed_of hA fun _ => rfl⟩
      digest := fun hd => by cases hd
      fingerprint := Moved.fingerprint_kept h.shown (by rw [hA]; rfl) rfl
      graph := rfl
      outputs := Moved.outputs_kept rfl rfl
      record := Moved.record_kept rfl rfl
      version := rfl
      release := rfl
      stack := rfl
      contexts := Or.inr ⟨ctx, rfl, context_pair hctx, by rw [hA]; rfl, rfl⟩ }
  have hfit : Fitted c base s item.pair (.running digest ctx) :=
    ⟨t, hlasts, item.resolved, n, hready.2, hn, hctx⟩
  obtain ⟨hs', hf'⟩ := h.update hc hplanned hopen hfit hm
  refine ⟨digest, hA, hs', hf', ?_⟩
  have hcall : (⟨item.pair, s.now, s.now + (work ctx s.files).seconds,
      work ctx s.files⟩ : Call).pair = item.pair := rfl
  have hput := hq.put_running hopen ctx
    ⟨s.now, (timeoutSeconds timeout).map (s.now + ·),
      (Table.get? item.pair s.fingerprints).getD "", ctx.namespaceName⟩ hcall ha
    ⟨ctx, timeout, work, s.files, Function.update_self _ _ _, rfl, he, rfl, rfl, rfl, rfl⟩
  rw [show Standing.running digest ctx = .running ((Table.get? item.pair s.fingerprints).getD "")
    ctx by rw [hdigest]]
  exact hput.congr rfl rfl rfl rfl rfl

/-- A call that returns within the limit of its executor gives a reply in time. -/
theorem returned_of_underway {call : Call} {task : Task} (hu : Underway c A call task)
    (hintime : ∀ d ∈ task.deadline, call.due ≤ d) :
    ∃ ctx, A call.pair = .running task.fingerprint ctx ∧
      task.namespaceName = ctx.namespaceName ∧ Returned c call.pair ctx call.reply := by
  obtain ⟨ctx, timeout, work, files, hA, hns, he, hreply, hdue, hstarted, hdeadline⟩ := hu
  refine ⟨ctx, hA, hns, timeout, work, files, he, hreply, fun t ht => ?_⟩
  have := hintime (task.started + t) (by rw [hdeadline, ht]; rfl)
  rw [hdue, hstarted] at this
  linarith

/-- Only deployments gain a snapshot and outputs. -/
theorem gain_of_ne {namespaceName : String} {reply : Reply} {given : Option Entries}
    {snapshot : Option Value} {outputs : Option Entries} (hd : x.phase ≠ .deploy)
    (hg : gain c base x namespaceName reply given = .ok (snapshot, outputs)) : outputs = none := by
  rw [gain, if_neg hd, Except.ok.injEq, Prod.mk.injEq] at hg
  exact hg.2.symm

theorem succeeded (hc : c.Checked requested) (h : Tied c base A s) {call : Call} {task : Task}
    {given : Option Entries} {snapshot : Option Value} {outputs : Option Entries} {ms : Rat}
    (hcall : call ∈ s.calls) (hrun : Table.get? call.pair s.running = some task)
    (hintime : ∀ d ∈ task.deadline, call.due ≤ d) (ha : call.reply.answer.result = .ok given)
    (hg : gain c base call.pair task.namespaceName call.reply given = .ok (snapshot, outputs)) :
    ∃ ctx, A call.pair = .running task.fingerprint ctx ∧
      Tied c base (Function.update A call.pair (.succeeded task.fingerprint ctx snapshot outputs))
        ((((s.release call.pair).publish call.pair.fqn outputs).conclude c call.pair
          task.fingerprint snapshot outputs ms).settle c.plan call.pair) := by
  obtain ⟨ctx, hA, hns, hreturned⟩ :=
    returned_of_underway (h.queued.underway call hcall task hrun) hintime
  have hopen : (A call.pair).settled = false := by rw [hA]; rfl
  have hplanned : c.Planned call.pair := h.shown.planned_of_ne (by simp [hA])
  obtain ⟨t, hlasts, hbegun⟩ := h.fit call.pair
  rw [hA] at hbegun
  have hfit : Fitted c base s call.pair (.succeeded task.fingerprint ctx snapshot outputs) := by
    refine ⟨t, hlasts, hbegun, call.reply, given, hreturned, ha, ?_⟩
    rwa [hns] at hg
  have hq := h.queued.take_running hA
  have hsaved := Store.save_state c.store c.graph.stackName
    (s.buildstate.markSucceeded call.pair.fqn call.pair.phase task.fingerprint snapshot outputs)
    s.files
  have hunits := congrArg Buildstate.units hsaved
  have hversion := congrArg Buildstate.version hsaved
  have hrelease := congrArg Buildstate.releaseName hsaved
  have hstack := congrArg Buildstate.stack hsaved
  refine ⟨ctx, hA, h.settled hc hplanned hopen rfl hfit ?_ (hq.congr rfl rfl rfl rfl rfl) ?_⟩
  · exact {
      outcome := ⟨_, rfl, untimed_of hA fun _ => rfl⟩
      digest := fun hd => by cases hd
      fingerprint := Moved.fingerprint_kept h.shown (by rw [hA]; rfl) rfl
      graph := rfl
      outputs := Moved.outputs_published rfl fun hd => gain_of_ne hd hg
      record := Moved.record_saved (fun _ => rfl) hunits
      version := hversion
      release := hrelease
      stack := hstack
      contexts := Or.inl ⟨rfl, by rw [hA]; rfl⟩ }
  · intro hm
    exact absurd hm (h.queued.not_abandoned hA)

theorem failed (hc : c.Checked requested) (h : Tied c base A s) {call : Call} {task : Task}
    {cause : String} {ms : Rat} (hcall : call ∈ s.calls)
    (hrun : Table.get? call.pair s.running = some task)
    (hintime : ∀ d ∈ task.deadline, call.due ≤ d) (ha : call.reply.answer.result = .error cause) :
    ∃ ctx, A call.pair = .running task.fingerprint ctx ∧
      Tied c base (Function.update A call.pair (.failed task.fingerprint ctx cause false))
        (((s.release call.pair).fail call.pair cause ms false).settle c.plan call.pair) := by
  obtain ⟨ctx, hA, -, hreturned⟩ :=
    returned_of_underway (h.queued.underway call hcall task hrun) hintime
  have hopen : (A call.pair).settled = false := by rw [hA]; rfl
  have hplanned : c.Planned call.pair := h.shown.planned_of_ne (by simp [hA])
  obtain ⟨t, hlasts, hbegun⟩ := h.fit call.pair
  rw [hA] at hbegun
  have hq := h.queued.take_running hA
  obtain ⟨hversion, hstack, hrelease⟩ :=
    s.buildstate.markFailed_header call.pair.fqn call.pair.phase
  refine ⟨ctx, hA, h.settled hc hplanned hopen rfl ⟨t, hlasts, hbegun, call.reply, hreturned, ha⟩ ?_
    (hq.congr rfl rfl rfl rfl rfl) ?_⟩
  · exact {
      outcome := ⟨_, rfl, untimed_of hA fun _ => rfl⟩
      digest := fun hd => by cases hd
      fingerprint := Moved.fingerprint_kept h.shown (by rw [hA]; rfl) rfl
      graph := rfl
      outputs := Moved.outputs_kept rfl rfl
      record := Moved.record_failed (fun _ => rfl) rfl
      version := hversion
      release := hrelease
      stack := hstack
      contexts := Or.inl ⟨rfl, by rw [hA]; rfl⟩ }
  · intro hm
    exact absurd hm (h.queued.not_abandoned hA)

theorem timedOut (hc : c.Checked requested) (h : Tied c base A s) {task : Task} {deadline ms : Rat}
    (hrun : Table.get? x s.running = some task) (hd : task.deadline = some deadline)
    (hlate : ∀ call ∈ s.calls, call.pair = x → deadline ≤ call.due) :
    ∃ ctx, A x = .running task.fingerprint ctx ∧
      Tied c base (Function.update A x (.failed task.fingerprint ctx
          (timeoutCause (deadline - task.started)) true))
        (((s.giveUp x).fail x (timeoutCause (deadline - task.started)) ms true).settle
          c.plan x) := by
  have hkey : x ∈ Table.keys s.running :=
    List.mem_map_of_mem (f := Prod.fst) (Table.mem_of_get? hrun)
  obtain ⟨call, hcall, rfl⟩ := List.mem_map.mp ((h.queued.mem_calls x).mpr (Or.inl hkey))
  obtain ⟨ctx, timeout, work, files, hA, hns, he, hreply, hdue, hstarted, hdeadline⟩ :=
    h.queued.underway call hcall task hrun
  have hopen : (A call.pair).settled = false := by rw [hA]; rfl
  have hplanned : c.Planned call.pair := h.shown.planned_of_ne (by simp [hA])
  obtain ⟨t, hlasts, hbegun⟩ := h.fit call.pair
  rw [hA] at hbegun
  have hfit : Fitted c base s call.pair (.failed task.fingerprint ctx
      (timeoutCause (deadline - task.started)) true) := by
    rw [hd] at hdeadline
    obtain ⟨limit, hlimit, hsum⟩ := Option.map_eq_some_iff.mp hdeadline.symm
    have hle := hlate call hcall rfl
    rw [hdue, hstarted] at hle
    refine ⟨t, hlasts, hbegun, limit, ⟨timeout, work, files, he, hlimit, ?_⟩, ?_⟩
    · rw [← hreply]
      linarith
    · rw [← hsum, add_sub_cancel_left]
  have hq := h.queued.abandon hA
  obtain ⟨hversion, hstack, hrelease⟩ :=
    s.buildstate.markFailed_header call.pair.fqn call.pair.phase
  refine ⟨ctx, hA, h.settled hc hplanned hopen rfl hfit ?_ (hq.congr rfl rfl rfl rfl rfl)
    fun _ => rfl⟩
  exact {
    outcome := ⟨_, rfl, untimed_of hA fun _ => rfl⟩
    digest := fun hd => by cases hd
    fingerprint := Moved.fingerprint_kept h.shown (by rw [hA]; rfl) rfl
    graph := rfl
    outputs := Moved.outputs_kept rfl rfl
    record := Moved.record_failed (fun _ => rfl) rfl
    version := hversion
    release := hrelease
    stack := hstack
    contexts := Or.inl ⟨rfl, by rw [hA]; rfl⟩ }

/-- The executor of a pair returns whose time was up. -/
theorem returned (hc : c.Checked requested) (h : Tied c base A s) (hx : x ∈ s.abandoned) :
    Tied c base A { s with
      calls := s.calls.filter fun other => other.pair != x
      abandoned := s.abandoned.erase x } :=
  h.of_shown hc ⟨h.shown.offPlan, h.shown.keys, h.shown.outcome, h.shown.fingerprint,
    h.shown.graph, h.shown.outputs, h.shown.record, h.shown.version, h.shown.release,
    h.shown.stack, h.shown.once, h.shown.called⟩ (h.queued.forget hx)

/-! ### All moves -/

/-- Dropping the calls of a pair that has one leaves fewer calls. -/
theorem length_filter_calls {calls : List Call} (hx : x ∈ calls.map Call.pair) :
    (calls.filter fun other => other.pair != x).length < calls.length := by
  obtain ⟨call, hm, rfl⟩ := List.mem_map.mp hx
  exact List.length_filter_lt_length_iff_exists.mpr ⟨call, hm, by simp⟩

/-- A pair that moves to a lighter standing, without as many new calls, leaves less to be done. -/
theorem lighter (hc : c.Checked requested) (hx : c.Planned x) (hopen : (A x).settled = false)
    (hlt : st.weight + s'.calls.length < (A x).weight + s.calls.length) :
    Settles A (Function.update A x st) ∧
      Chart.rest (Function.update A x st) c s' < A.rest c s := by
  have hsum := rest_update hc hx A st s s'
  exact ⟨settles_update hopen st, by omega⟩

/-- **A move keeps a chart behind the state**: it leads from a tied state to a tied state, keeps the
settled standings, and leaves less to be done. -/
theorem move (hc : c.Checked requested) (h : Tied c base A s) (hm : Move c base s s') :
    ∃ A', Tied c base A' s' ∧ Settles A A' ∧ A'.rest c s' < A.rest c s := by
  cases hm with
  | skip hp hv =>
    obtain ⟨ho, -⟩ := h.considered hp hv
    refine ⟨_, h.skipped hc hp hv, lighter hc ho.planned (by rw [ho.waiting]; rfl) ?_⟩
    rw [ho.waiting]
    change 0 + s.calls.length < 4 + s.calls.length
    omega
  | miss hp hv =>
    obtain ⟨ho, -⟩ := h.considered hp hv
    refine ⟨_, h.missed hc hp hv, lighter hc ho.planned (by rw [ho.waiting]; rfl) ?_⟩
    rw [ho.waiting]
    change 0 + s.calls.length < 4 + s.calls.length
    omega
  | reuse hp hv =>
    obtain ⟨ho, -⟩ := h.considered hp hv
    refine ⟨_, h.reused hc hp hv, lighter hc ho.planned (by rw [ho.waiting]; rfl) ?_⟩
    rw [ho.waiting]
    change 0 + s.calls.length < 4 + s.calls.length
    omega
  | ready hp hv =>
    obtain ⟨ho, -⟩ := h.considered hp hv
    refine ⟨_, h.readied hc hp hv, lighter hc ho.planned (by rw [ho.waiting]; rfl) ?_⟩
    rw [ho.waiting]
    change 3 + s.calls.length < 4 + s.calls.length
    omega
  | start hr hw hn he hctx =>
    obtain ⟨digest, hA, htied⟩ := h.started hc hr hn he hctx
    refine ⟨_, htied, lighter hc (h.shown.planned_of_ne (by simp [hA])) (by rw [hA]; rfl) ?_⟩
    rw [hA]
    change 1 + (s.calls ++ [_]).length < 3 + s.calls.length
    rw [List.length_append, List.length_singleton]
    omega
  | succeed hcall hrun hintime ha hg =>
    obtain ⟨ctx, hA, htied⟩ := h.succeeded hc hcall hrun hintime ha hg
    refine ⟨_, htied, lighter hc (h.shown.planned_of_ne (by simp [hA])) (by rw [hA]; rfl) ?_⟩
    have hfewer := length_filter_calls (List.mem_map_of_mem (f := Call.pair) hcall)
    rw [hA]
    change 0 + (s.calls.filter _).length < 1 + s.calls.length
    omega
  | fail hcall hrun hintime ha =>
    obtain ⟨ctx, hA, htied⟩ := h.failed hc hcall hrun hintime ha
    refine ⟨_, htied, lighter hc (h.shown.planned_of_ne (by simp [hA])) (by rw [hA]; rfl) ?_⟩
    have hfewer := length_filter_calls (List.mem_map_of_mem (f := Call.pair) hcall)
    rw [hA]
    change 0 + (s.calls.filter _).length < 1 + s.calls.length
    omega
  | timeout hrun hd hlate =>
    obtain ⟨ctx, hA, htied⟩ := h.timedOut hc hrun hd hlate
    refine ⟨_, htied, lighter hc (h.shown.planned_of_ne (by simp [hA])) (by rw [hA]; rfl) ?_⟩
    rw [hA]
    change 0 + s.calls.length < 1 + s.calls.length
    omega
  | @late x ha =>
    refine ⟨A, h.returned hc ha, fun p _ => rfl, ?_⟩
    have hfewer := length_filter_calls ((h.queued.mem_calls x).mpr (Or.inr ha))
    simp only [Chart.rest]
    omega

end Tied

end Rollout
