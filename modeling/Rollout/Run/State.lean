import Rollout.Event.Basic
import Rollout.Run.Fault
import Rollout.Run.Report
import Rollout.Run.Plan

/-!
# The state of a run

A run considers a pair when everything that the pair waits for is settled. It then skips the pair,
reuses what is known about it, lets it fail for a missing output, or makes it ready. Ready pairs are
started, the earliest phase and the earliest declared unit first, as long as there are workers. A
started pair runs until its executor returns; a pair whose time is up has failed, but its worker
stays occupied until the executor returns.

Time is exact, and starts at zero. Everything that is reported is kept in a journal, with the files
as they were at that moment.

**Types.** `Setup`, `Task`, `Call`, `Progress`, `RunState`.
-/

namespace Rollout

/-- What stays the same during a run. -/
structure Setup where
  graph : Graph
  plan : Plan
  executors : Executors
  store : Store
  releaseName : String
  maxWorkers : Nat
  /-- The units whose phase is carried out even if it is current. -/
  forced : Phase → List String
  /-- The project directory, which executors are told. -/
  directory : Option FilePath := none

/-- A pair that has been made ready, with its resolved configuration. -/
structure Ready where
  pair : Pair
  /-- The place of the unit in the order of declaration. -/
  index : Nat
  resolved : Option Resolved
  deriving Inhabited

/-- A pair that has been started. -/
structure Task where
  started : Rat
  deadline : Option Rat
  fingerprint : String
  namespaceName : String
  deriving DecidableEq, Inhabited

/-- A call of an executor that has not returned yet. -/
structure Call where
  pair : Pair
  started : Rat
  due : Rat
  reply : Reply
  deriving Inhabited

/-- What is reported about a run. -/
inductive Progress
  | planned (phases : List Phase) (pairs : List Pair) (releaseName : String) (maxWorkers : Value)
  | started (pair : Pair)
  | succeeded (pair : Pair) (durationMs : Rat)
  | reused (pair : Pair) (fingerprint : String)
  | failed (pair : Pair) (durationMs : Rat) (cause : String) (timedOut : Bool)
  | skipped (pair : Pair) (blockedBy : Pair)
  | outputs (fqn : String) (fields : List String)
  | finished (status : RunStatus) (counts : Table String Int) (durationMs : Rat)
  deriving DecidableEq, Inhabited

def Pair.text (p : Pair) : String := p.fqn ++ ":" ++ p.phase.text

namespace Progress

/-- What an event says about the progress of a run. -/
def body : Progress → EventBody
  | .planned phases pairs release workers =>
    .runPlanned (phases.map Phase.text) (pairs.map fun p => ⟨p.fqn, p.phase.text⟩) release workers
  | .started p => .unitStarted p.fqn p.phase.text
  | .succeeded p ms => .unitSucceeded p.fqn p.phase.text ms
  | .reused p digest => .unitReused p.fqn p.phase.text digest
  | .failed p ms cause timedOut => .unitFailed p.fqn p.phase.text ms cause timedOut
  | .skipped p blocker => .unitSkipped p.fqn p.phase.text blocker.text
  | .outputs fqn fields => .outputsRecorded fqn fields
  | .finished status counts ms => .runFinished status.text counts ms

end Progress

/-- Something that was reported, and the files at that moment. -/
structure Entry where
  progress : Progress
  files : Files
  deriving Inhabited

/-- The state of a run. -/
structure RunState where
  now : Rat := 0
  /-- The pairs to be considered, in order. -/
  promoted : List Pair := []
  /-- The ready pairs, the next one first. -/
  ready : List Ready := []
  running : Table Pair Task := []
  /-- The pairs whose time is up and whose executors have not returned. -/
  abandoned : List Pair := []
  /-- The calls that have not returned, in the order in which they were made. -/
  calls : List Call := []
  outcomes : Table Pair Outcome
  fingerprints : Table Pair String
  resolver : Resolver
  buildstate : Buildstate
  files : Files
  journal : List Entry := []
  /-- The contexts that executors were handed, in order. -/
  contexts : List UnitContext := []
  deriving Inhabited

/-- A run that has ended early, with the state in which it ended. -/
structure Halt where
  fault : RunFault
  state : RunState
  deriving Inhabited

namespace RunState

/-- Report something. -/
def report (p : Progress) (s : RunState) : RunState :=
  { s with journal := s.journal ++ [⟨p, s.files⟩] }

def amend (pair : Pair) (f : Outcome → Outcome) (s : RunState) : RunState :=
  { s with outcomes := Table.modify pair f s.outcomes }

def status (s : RunState) (pair : Pair) : PairStatus :=
  match Table.get? pair s.outcomes with
  | some o => o.status
  | none => .pending

/-- Let those pairs be considered that waited for a settled pair and wait for nothing else. -/
def settle (plan : Plan) (pair : Pair) (s : RunState) : RunState :=
  { s with promoted := s.promoted ++ ((plan.filter fun e =>
      e.2.contains pair && e.2.all fun w => (s.status w).terminal).map Prod.fst) }

end RunState

end Rollout
