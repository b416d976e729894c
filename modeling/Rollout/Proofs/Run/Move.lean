import Rollout.Proofs.Run.Queued

/-!
# What a run can do with one pair

A run goes on in moves. In each of them one pair comes to stand differently: it is considered, it is
started, its executor answers in time, or its time is up. Besides, the executor of a pair may return
whose time was up; that changes no standing.

A run that cannot go on halts; the state in which it halts is to blame.

**Types.** `Move`, `Blame`, `Leads`.

**Results.** The lemmas of `Moved` say what the parts of a state show after a move.
-/

namespace Rollout

namespace RunState

/-- Note the fingerprint of a pair. -/
def note (x : Pair) (digest : String) (s : RunState) : RunState :=
  { s.amend x fun o => { o with fingerprint := some digest } with
    fingerprints := Table.set x digest s.fingerprints }

/-- The names of outputs as they are reported. -/
def outputFields (entries : Entries) : List String :=
  match sortedKeys entries with
  | .ok keys => keys.map Key.display
  | .error _ => []

/-- What is reported about the outputs of a unit, if there are any. -/
def publication (fqn : String) (outputs : Option Entries) (files : Files) : List Entry :=
  match outputs with
  | some entries => [⟨.outputs fqn (outputFields entries), files⟩]
  | none => []

/-- Record and report the outputs of a unit, if there are any. -/
def publish (fqn : String) (outputs : Option Entries) (s : RunState) : RunState :=
  { s with
    resolver := { s.resolver with
      recorded := match outputs with
        | some entries => Table.set fqn entries s.resolver.recorded
        | none => s.resolver.recorded }
    journal := s.journal ++ publication fqn outputs s.files }

theorem progress_of_mem_publication {fqn : String} {outputs : Option Entries} {files : Files}
    {e : Entry} (h : e ∈ publication fqn outputs files) :
    ∃ fields, e.progress = .outputs fqn fields := by
  cases outputs with
  | none => cases h
  | some entries => exact ⟨_, by rw [List.mem_singleton.mp h]⟩

/-- Let a pair succeed with what an earlier run left. -/
def confirm (x : Pair) (digest : String) (s : RunState) : RunState :=
  (s.amend x fun o => { o with reused := true }.move .succeeded).report (.reused x digest)

/-- Make a pair ready. -/
def enqueue (item : Ready) (s : RunState) : RunState :=
  { s.amend item.pair (Outcome.move .ready) with
    ready := Sorting.insert readyLe item s.ready }

/-- Hand the context of a pair to its executor. -/
def launch (item : Ready) (timeout : Value) (work : UnitContext → Files → Reply)
    (ctx : UnitContext) (s : RunState) : RunState :=
  let task : Task :=
    { started := s.now
      deadline := (timeoutSeconds timeout).map (s.now + ·)
      fingerprint := (Table.get? item.pair s.fingerprints).getD ""
      namespaceName := ctx.namespaceName }
  let s := { s with running := Table.set item.pair task s.running }
  let s := (s.amend item.pair (Outcome.move .running)).report (.started item.pair)
  let reply := work ctx s.files
  { s with
    files := reply.files
    contexts := s.contexts ++ [ctx]
    calls := s.calls ++ [⟨item.pair, s.now, s.now + reply.seconds, reply⟩] }

/-- Take in the answer of a running pair. -/
def release (x : Pair) (s : RunState) : RunState :=
  { s with
    calls := s.calls.filter fun other => other.pair != x
    running := Table.erase x s.running }

/-- Save the success of a pair. -/
def conclude (c : Setup) (x : Pair) (digest : String) (snapshot : Option Value)
    (outputs : Option Entries) (ms : Rat) (s : RunState) : RunState :=
  let state := s.buildstate.markSucceeded x.fqn x.phase digest snapshot outputs
  let saved := c.store.save c.graph.stackName state s.files
  let s := { s with buildstate := saved.state, files := saved.files }
  (s.amend x fun o => { o with durationMs := ms }.move .succeeded).report (.succeeded x ms)

/-- Give a running pair up whose time is up. -/
def giveUp (x : Pair) (s : RunState) : RunState :=
  { s with
    running := Table.erase x s.running
    abandoned := s.abandoned ++ [x] }

end RunState

open RunState

/-- What a run can do next with one pair. -/
inductive Move (c : Setup) (base s : RunState) : RunState → Prop
  | skip {x : Pair} {rest : List Pair} {b : Pair} (hp : s.promoted = x :: rest)
      (hv : verdict c base s x = .ok (.skipped b)) :
      Move c base s (({ s with promoted := rest }.skip x b).settle c.plan x)
  | miss {x : Pair} {rest : List Pair} {cause : String} (hp : s.promoted = x :: rest)
      (hv : verdict c base s x = .ok (.missing cause)) :
      Move c base s (({ s with promoted := rest }.fail x cause 0 false).settle c.plan x)
  | reuse {x : Pair} {rest : List Pair} {digest : String} {outputs : Option Entries}
      (hp : s.promoted = x :: rest) (hv : verdict c base s x = .ok (.reused digest outputs)) :
      Move c base s (((({ s with promoted := rest }.note x digest).confirm x digest).publish
        x.fqn outputs).settle c.plan x)
  | ready {x : Pair} {rest : List Pair} {digest : String} {resolved : Option Resolved}
      (hp : s.promoted = x :: rest) (hv : verdict c base s x = .ok (.ready digest resolved)) :
      Move c base s (({ s with promoted := rest }.note x digest).enqueue
        ⟨x, c.index x.fqn, resolved⟩)
  | start {item : Ready} {rest : List Ready} {n : Node} {timeout : Value}
      {work : UnitContext → Files → Reply} {ctx : UnitContext} (hr : s.ready = item :: rest)
      (hw : s.hasWorker c = true) (hn : c.graph.node? item.pair.fqn = some n)
      (he : Table.get? item.pair.phase c.executors = some ⟨timeout, some work⟩)
      (hc : context c item.pair n.unit item.resolved = .ok ctx) :
      Move c base s ({ s with ready := rest }.launch item timeout work ctx)
  | succeed {call : Call} {task : Task} {given : Option Entries} {snapshot : Option Value}
      {outputs : Option Entries} (hcall : call ∈ s.calls)
      (hrun : Table.get? call.pair s.running = some task)
      (hintime : ∀ d ∈ task.deadline, call.due ≤ d) (ha : call.reply.answer.result = .ok given)
      (hg : gain c base call.pair task.namespaceName call.reply given = .ok (snapshot, outputs))
      {path : Option FilePath} (hs : (c.store.save c.graph.stackName (s.buildstate.markSucceeded
        call.pair.fqn call.pair.phase task.fingerprint snapshot outputs) s.files).path = .ok path) :
      Move c base s ((((s.release call.pair).publish call.pair.fqn outputs).conclude c call.pair
        task.fingerprint snapshot outputs ((call.due - call.started) * 1000)).settle c.plan
          call.pair)
  | fail {call : Call} {task : Task} {cause : String} (hcall : call ∈ s.calls)
      (hrun : Table.get? call.pair s.running = some task)
      (hintime : ∀ d ∈ task.deadline, call.due ≤ d)
      (ha : call.reply.answer.result = .error cause) :
      Move c base s (((s.release call.pair).fail call.pair cause
        ((call.due - call.started) * 1000) false).settle c.plan call.pair)
  | timeout {x : Pair} {task : Task} {deadline : Rat} (hrun : Table.get? x s.running = some task)
      (hd : task.deadline = some deadline)
      (hlate : ∀ call ∈ s.calls, call.pair = x → deadline ≤ call.due) :
      Move c base s (((s.giveUp x).fail x (timeoutCause (deadline - task.started))
        ((s.now - task.started) * 1000) true).settle c.plan x)
  | late {x : Pair} (ha : x ∈ s.abandoned) :
      Move c base s { s with
        calls := s.calls.filter fun other => other.pair != x
        abandoned := s.abandoned.erase x }

/-! ### Halts -/

/-- One state has reported what another one has, and since then nothing about a start. -/
def Quiet (s s' : RunState) : Prop :=
  ∃ more, s'.journal = s.journal ++ more ∧ ∀ e ∈ more, ∀ p, e.progress ≠ .started p

theorem Quiet.refl (s : RunState) : Quiet s s := ⟨[], by simp, by simp⟩

/-- Why a run cannot go on from a state. -/
inductive Blame (c : Setup) (base s : RunState) : RunFault → Prop
  | verdict {x : Pair} {rest : List Pair} {fault : RunFault} (hp : s.promoted = x :: rest)
      (hv : verdict c base s x = .error fault) : Blame c base s fault
  | context {item : Ready} {rest : List Ready} {n : Node} {fault : InitStep.Fault}
      (hr : s.ready = item :: rest) (hn : c.graph.node? item.pair.fqn = some n)
      (hc : context c item.pair n.unit item.resolved = .error fault) :
      Blame c base s (.initStep fault)
  | gain {call : Call} {task : Task} {given : Option Entries} {fault : RunFault}
      (hcall : call ∈ s.calls) (hrun : Table.get? call.pair s.running = some task)
      (hintime : ∀ d ∈ task.deadline, call.due ≤ d) (ha : call.reply.answer.result = .ok given)
      (hg : gain c base call.pair task.namespaceName call.reply given = .error fault) :
      Blame c base s fault
  | save {call : Call} {task : Task} {given : Option Entries} {snapshot : Option Value}
      {outputs : Option Entries} {fault : StoreFault} (hcall : call ∈ s.calls)
      (hrun : Table.get? call.pair s.running = some task)
      (hintime : ∀ d ∈ task.deadline, call.due ≤ d) (ha : call.reply.answer.result = .ok given)
      (hg : RunState.gain c base call.pair task.namespaceName call.reply given =
        .ok (snapshot, outputs))
      (hs : (c.store.save c.graph.stackName (s.buildstate.markSucceeded call.pair.fqn
        call.pair.phase task.fingerprint snapshot outputs) s.files).path = .error fault) :
      Blame c base s (.store fault)

/-- An attempt makes a move, or halts the run for a reason, without starting anything. -/
def Leads (c : Setup) (base s : RunState) (attempt : Except Halt RunState) : Prop :=
  (∃ s', attempt = .ok s' ∧ Move c base s s') ∨
    ∃ halt, attempt = .error halt ∧ Blame c base s halt.fault ∧ Quiet s halt.state

variable {c : Setup} {requested : List Phase} {base s s' : RunState} {A : Chart} {x : Pair}
  {st : Standing}

/-! ### What has moved in a state -/

namespace Moved

theorem fingerprint_kept (h : Shown c base A s) (hd : st.digest? = (A x).digest?)
    (hf : s'.fingerprints = s.fingerprints) (p : Pair) : Table.get? p s'.fingerprints =
      if p = x then st.digest?.or (Table.get? p s.fingerprints)
      else Table.get? p s.fingerprints := by
  rw [hf]
  by_cases hpx : p = x
  · subst hpx
    rw [if_pos rfl, h.fingerprint p, hd]
    cases (A p).digest? <;> rfl
  · rw [if_neg hpx]

theorem fingerprint_set {digest : String} (hd : st.digest? = some digest)
    (hf : s'.fingerprints = Table.set x digest s.fingerprints) (p : Pair) :
    Table.get? p s'.fingerprints =
      if p = x then st.digest?.or (Table.get? p s.fingerprints)
      else Table.get? p s.fingerprints := by
  rw [hf]
  by_cases hpx : p = x
  · subst hpx
    rw [if_pos rfl, hd, Table.get?_set_self]
    rfl
  · rw [if_neg hpx, Table.get?_set_of_ne hpx]

theorem outputs_kept (ho : st.outputs? = none) (hr : s'.resolver = s.resolver) (fqn : String) :
    s'.resolver.outputs? fqn = if (⟨fqn, .deploy⟩ : Pair) = x then
      st.outputs?.or (s.resolver.outputs? fqn) else s.resolver.outputs? fqn := by
  rw [hr, ho, Option.none_or, ite_self]

theorem outputs_published (hr : s'.resolver = (s.publish x.fqn st.outputs?).resolver)
    (hd : x.phase ≠ .deploy → st.outputs? = none) (fqn : String) :
    s'.resolver.outputs? fqn = if (⟨fqn, .deploy⟩ : Pair) = x then
      st.outputs?.or (s.resolver.outputs? fqn) else s.resolver.outputs? fqn := by
  cases ho : st.outputs? with
  | none =>
    rw [ho] at hr
    rw [hr, Option.none_or, ite_self]
    rfl
  | some entries =>
    have hphase : x.phase = .deploy := by
      by_contra hne
      rw [hd hne] at ho
      cases ho
    rw [ho] at hr
    rw [hr, Resolver.outputs?, publish]
    by_cases hfqn : fqn = x.fqn
    · have hx : (⟨fqn, .deploy⟩ : Pair) = x := by rw [hfqn, ← hphase]
      rw [if_pos hx, hfqn]
      exact Table.get?_set_self _ _ _
    · have hx : (⟨fqn, .deploy⟩ : Pair) ≠ x := fun heq => hfqn (by rw [← heq])
      rw [if_neg hx]
      exact Table.get?_set_of_ne hfqn _ _

theorem record_kept (hu : st.unmarked = true) (hb : s'.buildstate = s.buildstate)
    (fqn : String) : s'.buildstate.record? fqn = if fqn = x.fqn then
      st.mark x.phase (s.buildstate.record? fqn) else s.buildstate.record? fqn := by
  rw [hb, Standing.mark_of_unmarked hu, ite_self]

theorem record_failed (hmark : ∀ r, st.mark x.phase r = r.map (UnitRecord.fail x.phase))
    (hb : s'.buildstate = s.buildstate.markFailed x.fqn x.phase) (fqn : String) :
    s'.buildstate.record? fqn = if fqn = x.fqn then
      st.mark x.phase (s.buildstate.record? fqn) else s.buildstate.record? fqn := by
  rw [hb, hmark]
  by_cases hfqn : fqn = x.fqn
  · subst hfqn
    rw [if_pos rfl, Buildstate.markFailed]
    cases hr : s.buildstate.record? x.fqn with
    | none => rw [hr]; rfl
    | some r => exact Table.get?_set_self _ _ _
  · rw [if_neg hfqn, Buildstate.markFailed_other _ hfqn]

theorem record_saved {digest : String} {snapshot : Option Value} {outputs : Option Entries}
    (hmark : ∀ r, st.mark x.phase r =
      some ((r.getD {}).succeed x.phase digest snapshot outputs))
    (hb : s'.buildstate.units =
      (s.buildstate.markSucceeded x.fqn x.phase digest snapshot outputs).units) (fqn : String) :
    s'.buildstate.record? fqn = if fqn = x.fqn then
      st.mark x.phase (s.buildstate.record? fqn) else s.buildstate.record? fqn := by
  rw [Buildstate.record?, hb, hmark]
  by_cases hfqn : fqn = x.fqn
  · subst hfqn
    rw [if_pos rfl]
    exact Table.get?_set_self _ _ _
  · rw [if_neg hfqn]
    exact Buildstate.markSucceeded_other _ hfqn _ _ _ _

end Moved

/-- A failure is noted without touching the rest of the build state. -/
theorem Buildstate.markFailed_header (b : Buildstate) (fqn : String) (p : Phase) :
    (b.markFailed fqn p).version = b.version ∧ (b.markFailed fqn p).stack = b.stack ∧
      (b.markFailed fqn p).releaseName = b.releaseName := by
  unfold markFailed
  cases b.record? fqn <;> exact ⟨rfl, rfl, rfl⟩

/-- A save stamps the state and leaves the records as they are. -/
theorem Store.save_state (store : Store) (stack : String) (b : Buildstate) (files : Files) :
    (store.save stack b files).state =
      { b with stack := stack, updatedAt := some store.stamp } := by
  unfold save saveBy
  dsimp only
  split
  · rfl
  · split
    · rfl
    · split
      · rfl
      · rfl

end Rollout
