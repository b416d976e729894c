import Rollout.Event.Basic
import Rollout.Run.Plan
import Rollout.Table

/-!
# Run reports

What became of every pair of a run. A pair moves from status to status, and its history keeps the
statuses that it had. A unit has failed when one of its pairs has, is skipped when one of its pairs
is, and has succeeded when all its pairs have. A run has succeeded when all units have, and has
failed when none has.

**Types.** `PairStatus`, `Outcome`, `RunStatus`, `Report`.

**Operations.** `Outcome.move`, `Report.unitStatus`, `Report.units`, `Report.status`,
`Report.failures`, `Report.counts`.

**Results.** `move_history`: a history ends in the status and only grows.
-/

namespace Rollout

/-- The status of a pair. -/
inductive PairStatus
  | pending
  | ready
  | running
  | succeeded
  | failed
  | skipped
  deriving DecidableEq, Inhabited

namespace PairStatus

def all : List PairStatus := [.pending, .ready, .running, .succeeded, .failed, .skipped]

def text : PairStatus → String
  | .pending => "pending"
  | .ready => "ready"
  | .running => "running"
  | .succeeded => "succeeded"
  | .failed => "failed"
  | .skipped => "skipped"

def ofText? (s : String) : Option PairStatus := all.find? fun p => p.text == s

/-- Whether a pair keeps the status for the rest of the run. -/
def terminal (s : PairStatus) : Bool := s == .succeeded || s == .failed || s == .skipped

end PairStatus

/-- What became of a pair. -/
structure Outcome where
  status : PairStatus := .pending
  history : List PairStatus := [.pending]
  cause : Option String := none
  timedOut : Bool := false
  blockedBy : Option String := none
  reused : Bool := false
  durationMs : Rat := 0
  fingerprint : Option String := none
  deriving DecidableEq, Inhabited

/-- Take on a status. -/
def Outcome.move (status : PairStatus) (o : Outcome) : Outcome :=
  { o with status := status, history := o.history ++ [status] }

theorem Outcome.move_history (o : Outcome) (status : PairStatus) :
    (o.move status).history = o.history ++ [status] ∧
      (o.move status).history.getLast? = some (o.move status).status := by
  simp [move]

/-- The status of a run. -/
inductive RunStatus
  | succeeded
  | partialFailure
  | failed
  deriving DecidableEq, Inhabited

def RunStatus.text : RunStatus → String
  | .succeeded => "succeeded"
  | .partialFailure => "partial_failure"
  | .failed => "failed"

/-- A failed pair. -/
structure PairFailure where
  pair : Pair
  cause : String
  timedOut : Bool
  deriving DecidableEq, Inhabited

/-- What became of a run. -/
structure Report where
  phases : List Phase
  releaseName : String
  pairs : Table Pair Outcome
  durationMs : Rat := 0
  deriving DecidableEq, Inhabited

namespace Report

def statusesOf (r : Report) (fqn : String) : List PairStatus :=
  (r.pairs.filter fun e => e.1.fqn == fqn).map fun e => e.2.status

def unitStatus (r : Report) (fqn : String) : PairStatus :=
  let statuses := r.statusesOf fqn
  if statuses.contains .failed then .failed
  else if statuses.contains .skipped then .skipped
  else if !statuses.isEmpty && statuses.all (· == .succeeded) then .succeeded
  else .pending

/-- The units of the run with their statuses, in the order of their first pairs. -/
def units (r : Report) : Table String PairStatus :=
  r.pairs.foldl (fun t e => Table.setNew e.1.fqn (r.unitStatus e.1.fqn) t) []

def status (r : Report) : RunStatus :=
  let units := r.units
  let succeeded := (units.filter fun e => e.2 == .succeeded).length
  if succeeded = units.length then .succeeded
  else if succeeded = 0 then .failed
  else .partialFailure

def failures (r : Report) : List PairFailure :=
  (r.pairs.filter fun e => e.2.status == .failed).map fun e =>
    ⟨e.1, e.2.cause.getD "", e.2.timedOut⟩

/-- The number of pairs of every terminal status, and of those that were reused. -/
def counts (r : Report) : Table String Int :=
  let count (p : Outcome → Bool) : Int := (r.pairs.filter fun e => p e.2).length
  [("succeeded", count fun o => o.status == .succeeded),
    ("failed", count fun o => o.status == .failed),
    ("skipped", count fun o => o.status == .skipped),
    ("reused", count fun o => o.reused)]

/-- The parts of the report. -/
def fields (r : Report) : List (String × Value) :=
  [("status", .text r.status.text),
    ("release_name", .text r.releaseName),
    ("phases", .texts (r.phases.map Phase.text)),
    ("units", .object (r.units.map fun e => (e.1, .text e.2.text))),
    ("pairs", .list (r.pairs.map fun e => .object [
      ("fqn", .text e.1.fqn),
      ("phase", .text e.1.phase.text),
      ("status", .text e.2.status.text),
      ("reused", .bool e.2.reused),
      ("cause", .ofText? e.2.cause),
      ("blocked_by", .ofText? e.2.blockedBy)]))]

def toValue (r : Report) : Value := .object r.fields

/-- The failed pairs as a value. -/
def failuresValue (r : Report) : Value :=
  .list (r.failures.map fun f =>
    .list [.text f.pair.fqn, .text f.pair.phase.text, .text f.cause, .bool f.timedOut])

/-- The history, time and fingerprint of every pair as a value. -/
def outcomesValue (r : Report) : Value :=
  .list (r.pairs.map fun e =>
    .list [.text e.1.fqn, .text e.1.phase.text, .texts (e.2.history.map PairStatus.text),
      EventBody.timeValue e.2.durationMs, .bool e.2.timedOut, .ofText? e.2.fingerprint])

/-- The parts of the report with its counts, its time, its failures and its outcomes. -/
def overview (r : Report) : List (String × Value) :=
  r.fields ++ [
    ("counts", .object (r.counts.map fun e => (e.1, .int e.2))),
    ("duration_ms", EventBody.timeValue r.durationMs),
    ("failures", r.failuresValue), ("outcomes", r.outcomesValue)]

end Report

end Rollout
