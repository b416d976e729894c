import Rollout.Proofs.Run.Tampering

/-!
# Runs without times

The time that something takes is written into outcomes and reports, and decides when a run goes
on. It decides nothing else: no verdict, no fingerprint, no context and no record depends on it. So
one can leave the times out of a state before or after anything that a run does, and the result is
the same.

Only waiting is different, since it is time that says what a run waits for.

**Operations.** `Progress.untimed`, `Entry.untimed`, `Task.untimed`, `Call.untimed`,
`RunState.untimed`, `untimedAttempt`: what they are applied to, without times; `Executor.still`,
`Executors.still`, `Setup.still`: executors that take no time and have no limit.

**Results.**
* `RunState.untimed_consider`, `RunState.untimed_start`, `RunState.untimed_deliver`: what a run
  does, with the times left out after it and before it.
-/

namespace Rollout

open RunState

/-! ### Leaving times out -/

/-- What is reported, without its time. -/
def Progress.untimed : Progress → Progress
  | .succeeded p _ => .succeeded p 0
  | .failed p _ cause timedOut => .failed p 0 cause timedOut
  | .finished status counts _ => .finished status counts 0
  | p => p

def Entry.untimed (e : Entry) : Entry := { e with progress := e.progress.untimed }

/-- A pair that was started at the beginning and has no deadline. -/
def Task.untimed (t : Task) : Task := { t with started := 0, deadline := none }

/-- A reply that took no time. -/
def Reply.still (r : Reply) : Reply := { r with seconds := 0 }

/-- A call that was made at the beginning and returns at once. -/
def Call.untimed (call : Call) : Call :=
  { call with started := 0, due := 0, reply := call.reply.still }

/-- An executor that takes no time and has no limit. -/
def Executor.still (e : Executor) : Executor :=
  { timeout := .null, run := e.run.map fun work ctx files => (work ctx files).still }

def Executors.still (executors : Executors) : Executors :=
  executors.map fun e => (e.1, e.2.still)

def Setup.still (c : Setup) : Setup := c.equip c.executors.still

/-- A state without its times: everything has happened at the beginning. -/
def RunState.untimed (s : RunState) : RunState :=
  { s with
    now := 0
    running := s.running.map fun e => (e.1, e.2.untimed)
    calls := s.calls.map Call.untimed
    outcomes := s.outcomes.map fun e => (e.1, e.2.untimed)
    journal := s.journal.map Entry.untimed }

/-- An attempt without its times. -/
def untimedAttempt : Except Halt RunState → Except Halt RunState
  | .ok s => .ok s.untimed
  | .error ⟨fault, s⟩ => .error ⟨fault, s.untimed⟩

theorem untimedAttempt_map {f g : RunState → RunState} (h : ∀ s, (f s).untimed = g s.untimed)
    (attempt : Except Halt RunState) :
    untimedAttempt (attempt.map f) = (untimedAttempt attempt).map g := by
  cases attempt with
  | ok s => exact congrArg Except.ok (h s)
  | error halt => rfl

theorem untimedAttempt_bind {f g : RunState → Except Halt RunState}
    (h : ∀ s, untimedAttempt (f s) = g s.untimed) (attempt : Except Halt RunState) :
    untimedAttempt (attempt.bind f) = (untimedAttempt attempt).bind g := by
  cases attempt with
  | ok s => exact h s
  | error halt => rfl

/-! ### What does not depend on times -/

namespace RunState

variable {c : Setup} (s : RunState) (p : Pair)

theorem untimed_report (progress : Progress) :
    (s.report progress).untimed = s.untimed.report progress.untimed := by
  simp [report, untimed, Entry.untimed]

theorem untimed_amend {f g : Outcome → Outcome} (h : ∀ o, (f o).untimed = g o.untimed) :
    (s.amend p f).untimed = s.untimed.amend p g := by
  simp only [amend, untimed, Table.modify_map_snd h]

theorem status_untimed : s.untimed.status p = s.status p := by
  have houtcomes : Table.get? p s.untimed.outcomes =
      (Table.get? p s.outcomes).map Outcome.untimed :=
    Table.get?_map_snd Outcome.untimed p s.outcomes
  rw [status, status, houtcomes]
  cases Table.get? p s.outcomes <;> rfl

theorem untimed_settle (plan : Plan) : (s.settle plan p).untimed = s.untimed.settle plan p := by
  simp only [settle, status_untimed]
  rfl

theorem untimed_skip (blocker : Pair) : (s.skip p blocker).untimed = s.untimed.skip p blocker := by
  rw [skip, skip, untimed_report]
  exact congrArg (report (.skipped p blocker)) (untimed_amend s p fun _ => rfl)

theorem untimed_fail (cause : String) (ms : Rat) (timedOut : Bool) :
    (s.fail p cause ms timedOut).untimed = s.untimed.fail p cause 0 timedOut := by
  rw [fail, fail, untimed_report]
  exact congrArg (report (.failed p 0 cause timedOut))
    (untimed_amend { s with buildstate := s.buildstate.markFailed p.fqn p.phase } p fun _ => rfl)

theorem untimed_recordOutputs (fqn : String) (outputs : Entries) :
    untimedAttempt (s.recordOutputs fqn outputs) = s.untimed.recordOutputs fqn outputs := by
  have hresolver : s.untimed.resolver = s.resolver := rfl
  rw [recordOutputs, recordOutputs, hresolver]
  cases s.resolver.record fqn outputs with
  | error fault => rfl
  | ok resolver =>
    dsimp only
    cases sortedKeys outputs with
    | error fault => rfl
    | ok keys => exact congrArg Except.ok (untimed_report _ _)

theorem untimed_confirm (digest : String) :
    (s.confirm p digest).untimed = s.untimed.confirm p digest := by
  rw [confirm, confirm, untimed_report]
  exact congrArg (report (.reused p digest)) (untimed_amend s p fun _ => rfl)

theorem untimed_reuse (digest : String) :
    untimedAttempt (s.reuse p digest) = s.untimed.reuse p digest := by
  rw [reuse_eq, reuse_eq, ← untimed_confirm]
  by_cases hd : p.phase = .deploy
  · rw [if_pos hd, if_pos hd]
    exact untimed_recordOutputs _ _ _
  · rw [if_neg hd, if_neg hd]
    rfl

theorem untimed_note (digest : String) : (s.note p digest).untimed = s.untimed.note p digest := by
  have hamend : (s.amend p fun o => { o with fingerprint := some digest }).untimed =
      s.untimed.amend p fun o => { o with fingerprint := some digest } :=
    untimed_amend s p fun _ => rfl
  exact congrArg (fun t : RunState =>
    { t with fingerprints := Table.set p digest t.fingerprints }) hamend

theorem untimed_enqueue (item : Ready) :
    (s.enqueue item).untimed = s.untimed.enqueue item := by
  have hamend : (s.amend item.pair (Outcome.move .ready)).untimed =
      s.untimed.amend item.pair (Outcome.move .ready) := untimed_amend s item.pair fun _ => rfl
  exact congrArg (fun t : RunState =>
    { t with ready := Sorting.insert readyLe item t.ready }) hamend

theorem untimed_compare (n : Node) (resolved : Option Resolved) :
    untimedAttempt (s.compare c p n resolved) = s.untimed.compare c p n resolved := by
  have hfingerprinted : s.untimed.fingerprinted c p n.unit resolved =
      s.fingerprinted c p n.unit resolved := rfl
  rw [RunState.compare, RunState.compare, hfingerprinted]
  cases Digest.fingerprint (s.fingerprinted c p n.unit resolved) with
  | error fault => rfl
  | ok digest =>
    change untimedAttempt
        (if (!(c.forced p.phase).contains p.fqn &&
            s.buildstate.isCurrent p.fqn p.phase digest) = true
          then ((s.note p digest).reuse p digest).map (settle c.plan p)
          else .ok ((s.note p digest).enqueue ⟨p, n.index, resolved⟩)) =
      if (!(c.forced p.phase).contains p.fqn && s.buildstate.isCurrent p.fqn p.phase digest) = true
        then ((s.untimed.note p digest).reuse p digest).map (settle c.plan p)
        else .ok ((s.untimed.note p digest).enqueue ⟨p, n.index, resolved⟩)
    rw [← untimed_note]
    split
    · rw [untimedAttempt_map fun s => untimed_settle s p c.plan, untimed_reuse]
    · exact congrArg Except.ok (untimed_enqueue _ _)

/-- **Considering a pair** does not depend on times. -/
theorem untimed_consider : untimedAttempt (s.consider c p) = s.untimed.consider c p := by
  have hblocker : s.untimed.blocker? c p = s.blocker? c p := by
    simp only [blocker?, status_untimed]
  have hresolver : s.untimed.resolver = s.resolver := rfl
  rw [consider, consider, hblocker, hresolver]
  cases s.blocker? c p with
  | some b => exact congrArg Except.ok ((untimed_settle _ p c.plan).trans
      (congrArg (settle c.plan p) (untimed_skip s p b)))
  | none =>
    cases c.graph.node? p.fqn with
    | none => rfl
    | some n =>
      dsimp only
      split
      · cases s.resolver.resolve p.fqn with
        | ok resolved => exact untimed_compare s p n (some resolved)
        | error fault =>
          cases fault with
          | missingOutput => exact congrArg Except.ok ((untimed_settle _ p c.plan).trans
              (congrArg (settle c.plan p) (untimed_fail s p _ 0 false)))
          | _ => rfl
      · exact untimed_compare s p n none

theorem untimed_saveSuccess (task : Task) (snapshot : Option Value) (outputs : Option Entries)
    (ms : Rat) : untimedAttempt (saveSuccess c p task snapshot outputs ms s) =
      saveSuccess c p task.untimed snapshot outputs 0 s.untimed := by
  have hconclude : (s.conclude c p task.fingerprint snapshot outputs ms).untimed =
      s.untimed.conclude c p task.fingerprint snapshot outputs 0 := by
    rw [conclude, conclude, untimed_report]
    exact congrArg (report (.succeeded p 0)) (untimed_amend _ p fun _ => rfl)
  have hsaved : c.store.save c.graph.stackName (s.untimed.buildstate.markSucceeded p.fqn p.phase
      task.untimed.fingerprint snapshot outputs) s.untimed.files =
    c.store.save c.graph.stackName (s.buildstate.markSucceeded p.fqn p.phase task.fingerprint
      snapshot outputs) s.files := rfl
  rw [saveSuccess, saveSuccess, hsaved]
  cases (c.store.save c.graph.stackName (s.buildstate.markSucceeded p.fqn p.phase task.fingerprint
    snapshot outputs) s.files).path with
  | error fault => rfl
  | ok path => exact congrArg Except.ok hconclude

theorem untimed_succeed (task : Task) (call : Call) (given : Option Entries) :
    untimedAttempt (s.succeed c p task call given) =
      s.untimed.succeed c p task.untimed call.untimed given := by
  have hms : (call.untimed.due - call.untimed.started) * 1000 = 0 := by simp [Call.untimed]
  rw [succeed_eq, succeed_eq, hms]
  by_cases hd : p.phase = .deploy
  · rw [if_pos hd, if_pos hd, untimedAttempt_bind fun s => untimed_saveSuccess s p task _ _ _,
      untimed_recordOutputs]
    rfl
  · rw [if_neg hd, if_neg hd, untimed_saveSuccess]

/-- **Taking in an answer** does not depend on times. -/
theorem untimed_deliver (call : Call) :
    untimedAttempt (s.deliver c call) = s.untimed.deliver c call.untimed := by
  obtain ⟨u, hu⟩ : ∃ u, u = s.untimed := ⟨_, rfl⟩
  have hrunning : Table.get? call.pair u.running =
      (Table.get? call.pair s.running).map Task.untimed := by
    rw [hu]
    exact Table.get?_map_snd Task.untimed call.pair s.running
  have hrelease : { u with running := Table.erase call.pair u.running } =
      { s with running := Table.erase call.pair s.running }.untimed := by
    subst hu
    simp only [untimed, Table.erase_map_snd]
  have habandoned : u.abandoned.contains call.pair = s.abandoned.contains call.pair := by
    rw [hu]
    rfl
  have hms : (call.untimed.due - call.untimed.started) * 1000 = 0 := by simp [Call.untimed]
  rw [← hu, deliver, deliver, show call.untimed.pair = call.pair from rfl, hrunning, hms,
    show call.untimed.reply.answer = call.reply.answer from rfl, habandoned]
  split
  · rw [hu]
    rfl
  · cases Table.get? call.pair s.running with
    | none => exact congrArg Except.ok hu.symm
    | some task =>
      dsimp only [Option.map_some]
      rw [hrelease]
      cases call.reply.answer.result with
      | ok given =>
        dsimp only
        rw [untimedAttempt_map fun s => untimed_settle s call.pair c.plan, untimed_succeed]
      | error cause => exact congrArg Except.ok ((untimed_settle _ call.pair c.plan).trans
          (congrArg (settle c.plan call.pair) (untimed_fail _ call.pair cause _ false)))

/-- After the times have been left out, an executor has been at work that takes no time. -/
theorem untimed_launch (item : Ready) (timeout : Value) (work : UnitContext → Files → Reply)
    (ctx : UnitContext) : (s.launch item timeout work ctx).untimed =
      s.untimed.launch item .null (fun ctx files => (work ctx files).still) ctx := by
  have hmove (o : Outcome) : (o.move .running).untimed = o.untimed.move .running := rfl
  simp only [launch, report, amend, untimed, Table.modify_map_snd hmove, Table.set_map_snd,
    List.map_append, List.map_cons, List.map_nil]
  simp [Task.untimed, Call.untimed, Reply.still, Entry.untimed, Progress.untimed, timeoutSeconds]

end RunState

theorem Executors.get?_still (executors : Executors) (p : Phase) :
    Table.get? p executors.still = (Table.get? p executors).map Executor.still :=
  Table.get?_map_snd Executor.still p executors

/-- **Starting a pair** with an executor that takes no time. -/
theorem RunState.untimed_start {c : Setup} (s : RunState) (item : Ready) :
    untimedAttempt (s.start c item) = s.untimed.start c.still item := by
  have hexecutor : Table.get? item.pair.phase c.still.executors =
      (Table.get? item.pair.phase c.executors).map Executor.still :=
    c.executors.get?_still item.pair.phase
  rw [start, start, hexecutor, show c.still.graph = c.graph from rfl]
  dsimp only
  cases c.graph.node? item.pair.fqn with
  | none => rfl
  | some n =>
    cases Table.get? item.pair.phase c.executors with
    | none => rfl
    | some e =>
      obtain ⟨timeout, run⟩ := e
      cases run with
      | none => rfl
      | some work =>
        have hcontext : context c.still item.pair n.unit item.resolved =
            context c item.pair n.unit item.resolved := rfl
        simp only [Option.map_some, Executor.still, hcontext]
        cases context c item.pair n.unit item.resolved with
        | error fault => rfl
        | ok ctx => exact congrArg Except.ok (untimed_launch s item timeout work ctx)

end Rollout
