import Rollout.Run.State
import Rollout.Sorting
import Rollout.Stack.Release
import Rollout.Text.Digest
import Rollout.Number.Decimal

/-!
# Steps of a run

One step of a run considers the next promoted pair; if there is none, it starts the next ready pair;
if that cannot be, it waits until an executor returns or a deadline is reached.

**Operations.** `consider`, `start`, `wait`, `step`.
-/

namespace Rollout

/-- The name of the output that every deployed unit has. -/
def hostOutput : String := "host"

namespace Setup

/-- The place of a unit in the order of declaration. -/
def index (c : Setup) (fqn : String) : Nat :=
  match c.graph.node? fqn with
  | some n => n.index
  | none => 0

def waits (c : Setup) (pair : Pair) : List Pair := (Table.get? pair c.plan).getD []

/-- Whether a pair comes before another one: by phase, then by declaration. -/
def rankLe (c : Setup) (a b : Pair) : Bool :=
  decide (a.phase.index < b.phase.index) ||
    (a.phase.index == b.phase.index && decide (c.index a.fqn ≤ c.index b.fqn))

def namespaceFor (c : Setup) (u : UnitDef) : String :=
  match c.graph.stack with
  | some s => s.namespaceFor u
  | none => (nonEmpty? u.namespaceName).getD (swapChar '_' '-' c.graph.stackName)

end Setup

/-- Whether a ready pair is started before another one. -/
def readyLe (a b : Ready) : Bool :=
  decide (a.pair.phase.index < b.pair.phase.index) ||
    (a.pair.phase.index == b.pair.phase.index &&
      (decide (a.index < b.index) || (a.index == b.index && decide (a.pair.fqn ≤ b.pair.fqn))))

namespace RunState

variable (c : Setup)

/-- The first of the pairs that a pair waits for and that have not succeeded. -/
def blocker? (s : RunState) (pair : Pair) : Option Pair :=
  (Sorting.sort c.rankLe ((c.waits pair).filter fun w => s.status w != .succeeded)).head?

/-- Skip a pair because of another one. -/
def skip (pair blockedBy : Pair) (s : RunState) : RunState :=
  (s.amend pair fun o =>
    { o with blockedBy := some blockedBy.text }.move .skipped).report (.skipped pair blockedBy)

/-- Let a pair fail. -/
def fail (pair : Pair) (cause : String) (durationMs : Rat) (timedOut : Bool) (s : RunState) :
    RunState :=
  let s := { s with buildstate := s.buildstate.markFailed pair.fqn pair.phase }
  (s.amend pair fun o =>
    { o with
      cause := some cause
      timedOut := timedOut
      durationMs := durationMs }.move .failed).report (.failed pair durationMs cause timedOut)

def recordOutputs (fqn : String) (outputs : Entries) (s : RunState) : Except Halt RunState :=
  match s.resolver.record fqn outputs with
  | .error fault => .error ⟨.resolve fault, s⟩
  | .ok resolver =>
    let s := { s with resolver := resolver }
    match sortedKeys outputs with
    | .error fault => .error ⟨.noText fault, s⟩
    | .ok keys => .ok (s.report (.outputs fqn (keys.map Key.display)))

/-- Let a pair succeed with what an earlier run left. -/
def reuse (pair : Pair) (digest : String) (s : RunState) : Except Halt RunState :=
  let s := (s.amend pair fun o => { o with reused := true }.move .succeeded).report
    (.reused pair digest)
  if pair.phase = .deploy then
    match s.buildstate.record? pair.fqn with
    | some r => s.recordOutputs pair.fqn r.outputs
    | none => s.recordOutputs pair.fqn []
  else .ok s

/-- The fingerprint of the build of a unit: of this run, else of the stored record. -/
def buildDigest? (s : RunState) (fqn : String) : Option String :=
  match Table.get? ⟨fqn, .build⟩ s.fingerprints with
  | some digest => some digest
  | none => (s.buildstate.record? fqn).bind fun r => r.fingerprint? .build

/-- What the fingerprint of a pair depends on. -/
def fingerprinted (s : RunState) (pair : Pair) (u : UnitDef) (resolved : Option Resolved) :
    Value :=
  if pair.phase = .deploy then
    let providers := (c.graph.incoming pair.fqn).filter fun e => e.kind = .deploy
    .object [
      ("phase", .text pair.phase.text),
      ("config", u.snapshot),
      ("resolved", match resolved with | some r => r.toValue | none => .null),
      ("release_name", .text c.releaseName),
      ("namespace", .text (c.namespaceFor u)),
      ("build", .ofText? (s.buildDigest? pair.fqn)),
      ("upstream", .object (providers.map fun e =>
        (e.source, .ofText? (Table.get? ⟨e.source, .deploy⟩ s.fingerprints))))]
  else .object [("phase", .text pair.phase.text), ("config", u.snapshot)]

/-- Compare a pair with what is known about it: reuse that, or make the pair ready. -/
def compare (pair : Pair) (n : Node) (resolved : Option Resolved) (s : RunState) :
    Except Halt RunState :=
  match Digest.fingerprint (s.fingerprinted c pair n.unit resolved) with
  | .error fault => .error ⟨.noText fault, s⟩
  | .ok digest =>
    let s := { s.amend pair fun o => { o with fingerprint := some digest } with
      fingerprints := Table.set pair digest s.fingerprints }
    if !(c.forced pair.phase).contains pair.fqn &&
        s.buildstate.isCurrent pair.fqn pair.phase digest then
      (s.reuse pair digest).map (settle c.plan pair)
    else
      .ok { s.amend pair (Outcome.move .ready) with
        ready := Sorting.insert readyLe ⟨pair, n.index, resolved⟩ s.ready }

/-- Consider a pair whose prerequisites are all settled. -/
def consider (pair : Pair) (s : RunState) : Except Halt RunState :=
  match s.blocker? c pair, c.graph.node? pair.fqn with
  | some b, _ => .ok ((s.skip pair b).settle c.plan pair)
  | none, none => .error ⟨.graph (.unknownUnit pair.fqn), s⟩
  | none, some n =>
    if pair.phase = .deploy then
      match s.resolver.resolve pair.fqn with
      | .ok resolved => s.compare c pair n (some resolved)
      | .error fault =>
        match fault with
        | .missingOutput .. =>
          let cause := match fault.failure? with | some f => f.message | none => ""
          .ok ((s.fail pair cause 0 false).settle c.plan pair)
        | _ => .error ⟨.resolve fault, s⟩
    else s.compare c pair n none

def context (pair : Pair) (u : UnitDef) (resolved : Option Resolved) :
    Except InitStep.Fault UnitContext :=
  let config := match resolved with
    | some r => u.configWith r.inputs r.values
    | none => u.configWith (.object u.inputs) (.object u.values)
  let steps := if pair.phase = .init then u.initSteps.mapM (InitStep.fill u.inputs) else .ok []
  steps.map fun steps =>
    { fqn := pair.fqn
      name := u.name
      kind := u.kind
      phase := pair.phase
      stackName := c.graph.stackName
      namespaceName := c.namespaceFor u
      releaseName := c.releaseName
      config := .object config
      displayName := u.displayName
      build := match u.buildSpec with | .ok spec => spec | .error _ => none
      initSteps := steps
      directory := c.directory }

/-- Start a ready pair, which has been taken off the ready pairs. -/
def start (item : Ready) (s : RunState) : Except Halt RunState :=
  let pair := item.pair
  match c.graph.node? pair.fqn, Table.get? pair.phase c.executors with
  | some n, some ⟨timeout, some work⟩ =>
    match context c pair n.unit item.resolved with
    | .error fault => .error ⟨.initStep fault, s⟩
    | .ok ctx =>
      let task : Task :=
        { started := s.now
          deadline := (timeoutSeconds timeout).map (s.now + ·)
          fingerprint := (Table.get? pair s.fingerprints).getD ""
          namespaceName := ctx.namespaceName }
      let s := { s with running := Table.set pair task s.running }
      let s := (s.amend pair (Outcome.move .running)).report (.started pair)
      let reply := work ctx s.files
      .ok { s with
        files := reply.files
        contexts := s.contexts ++ [ctx]
        calls := s.calls ++ [⟨pair, s.now, s.now + reply.seconds, reply⟩] }
  | none, _ => .error ⟨.graph (.unknownUnit pair.fqn), s⟩
  | _, _ => .error ⟨.executor (.notRunnable pair.phase), s⟩

/-- Let a pair succeed with the outputs of its executor. -/
def succeed (pair : Pair) (task : Task) (call : Call) (outputs : Option Entries) (s : RunState) :
    Except Halt RunState := do
  let ms := (call.due - call.started) * 1000
  let (s, snapshot, outputs) ←
    if pair.phase = .deploy then
      let given := outputs.getD []
      let host := match c.graph.node? pair.fqn with
        | some n => serviceHost c.releaseName n.unit task.namespaceName
        | none => ""
      let complete :=
        if Entries.has hostOutput given then given else given ++ [(Key.text hostOutput, .text host)]
      let s ← s.recordOutputs pair.fqn complete
      pure (s, some (Value.object [("inputs", call.reply.inputs), ("values", call.reply.values)]),
        some complete)
    else pure (s, none, none)
  let state := s.buildstate.markSucceeded pair.fqn pair.phase task.fingerprint snapshot outputs
  let saved := c.store.save c.graph.stackName state s.files
  let s := { s with buildstate := saved.state, files := saved.files }
  match saved.path with
  | .error fault => .error ⟨.store fault, s⟩
  | .ok _ =>
    .ok ((s.amend pair fun o => { o with durationMs := ms }.move .succeeded).report
      (.succeeded pair ms))

/-- Take in the answer of an executor. -/
def deliver (call : Call) (s : RunState) : Except Halt RunState :=
  if s.abandoned.contains call.pair then
    .ok { s with abandoned := s.abandoned.erase call.pair }
  else
    match Table.get? call.pair s.running with
    | none => .ok s
    | some task =>
      let s := { s with running := Table.erase call.pair s.running }
      match call.reply.answer.result with
      | .ok outputs => (s.succeed c call.pair task call outputs).map (settle c.plan call.pair)
      | .error cause =>
        .ok ((s.fail call.pair cause ((call.due - call.started) * 1000) false).settle c.plan
          call.pair)

/-- The text about a pair that ran out of time. -/
def timeoutCause (seconds : Rat) : String :=
  "timed out after " ++
    String.ofList (Decimal.general seconds.num.natAbs seconds.den) ++ "s"

/-- Let the running pairs fail whose time is up. -/
def expire (s : RunState) : RunState :=
  s.running.foldl (fun s e =>
    match e.2.deadline with
    | none => s
    | some deadline =>
      if deadline ≤ s.now then
        let s := { s with
          running := Table.erase e.1 s.running
          abandoned := s.abandoned ++ [e.1] }
        (s.fail e.1 (timeoutCause (deadline - e.2.started)) ((s.now - e.2.started) * 1000)
          true).settle c.plan e.1
      else s) s

/-- The later of two moments. -/
def later (a b : Rat) : Rat := if a ≤ b then b else a

def earliest? (moments : List Rat) : Option Rat :=
  moments.foldl
    (fun best t => some (match best with | some b => if b ≤ t then b else t | none => t)) none

/-- The call that returns first, the earlier made one of two that return together. -/
def firstCall? (calls : List Call) : Option Call :=
  calls.foldl (fun best call =>
    match best with
    | some b => if call.due < b.due then some call else best
    | none => some call) none

/-- The moment at which the wait ends at the latest. -/
def limit? (s : RunState) : Option Rat :=
  (earliest? (s.running.filterMap fun e => e.2.deadline)).map (later s.now)

/-- Wait until an executor returns or a deadline is reached. -/
def wait (s : RunState) : Except Halt RunState :=
  match firstCall? s.calls, s.limit? with
  | some call, limit =>
    if (limit.all fun t => decide (call.due ≤ t)) then
      let s := { s with
        now := later s.now call.due
        calls := s.calls.filter fun other => other.pair != call.pair }
      (s.deliver c call).map (expire c)
    else .ok ({ s with now := limit.getD s.now }.expire c)
  | none, limit => .ok ({ s with now := limit.getD s.now }.expire c)

/-- What a step leads to. -/
inductive Next
  | state (s : RunState)
  | halted (h : Halt)
  | finished

/-- What an attempt leads to. -/
def Next.of : Except Halt RunState → Next
  | .ok s => .state s
  | .error h => .halted h

/-- Whether a worker is free. -/
def hasWorker (s : RunState) : Bool :=
  decide (s.running.length + s.abandoned.length < c.maxWorkers)

def step (s : RunState) : Next :=
  match s.promoted with
  | pair :: rest => .of ({ s with promoted := rest }.consider c pair)
  | [] =>
    match s.ready with
    | item :: rest =>
      if s.hasWorker c then .of ({ s with ready := rest }.start c item)
      else if s.running.isEmpty && s.abandoned.isEmpty then .finished
      else .of (s.wait c)
    | [] => if s.running.isEmpty then .finished else .of (s.wait c)

/-- Take steps until the run ends, at most the given number. -/
def run : Nat → RunState → Except Halt RunState
  | 0, s => .ok s
  | fuel + 1, s =>
    match s.step c with
    | .state s => run fuel s
    | .halted h => .error h
    | .finished => .ok s

end RunState

end Rollout
