import Rollout.Command.Stage
import Rollout.Event.Basic
import Rollout.View.Wording

/-!
# The board of a command

Whoever follows the events of a command keeps a board: the state of every stage, the state of every
pair of a unit and a phase, and what has gone wrong so far.

**Types.** `UnitRow`, `Board`.

**Operations.** `Board.apply`: the board after an event.
-/

namespace Rollout.View

/-- What is known about a unit. -/
structure UnitRow where
  /-- The state of every phase. -/
  phases : Table String String := []
  /-- The time that phases took, in milliseconds. -/
  elapsed : Table String Rat := []
  note : Option String := none
  deriving DecidableEq, Inhabited

/-- A stage that has failed. -/
structure StageFailure where
  command : String
  stage : String
  code : String
  message : String
  hint : Option String
  deriving DecidableEq, Inhabited

/-- A phase of a unit that has failed. -/
structure UnitFailure where
  fqn : String
  phase : String
  cause : String
  timedOut : Bool
  deriving DecidableEq, Inhabited

/-- How a run has ended. -/
structure RunEnd where
  status : String
  counts : Table String Int
  deriving DecidableEq, Inhabited

/-- What is known about a command. -/
structure Board where
  command : String := ""
  /-- The stages of the command as identifiers and labels. -/
  stages : List (String × String) := []
  stageStatus : Table String String := []
  stageElapsed : Table String Rat := []
  units : Table String UnitRow := []
  releaseName : Option String := none
  stageFailure : Option StageFailure := none
  failures : List UnitFailure := []
  warnings : List String := []
  runEnd : Option RunEnd := none
  affected : Option (List String) := none
  savedPath : Option FilePath := none
  deriving DecidableEq, Inhabited

namespace Board

/-- Change the row of a unit; a unit without a row gets one. -/
def changeRow (fqn : String) (change : UnitRow → UnitRow) (b : Board) : Board :=
  { b with units := Table.modify fqn change (Table.setNew fqn {} b.units) }

def setPhase (fqn phase status : String) (b : Board) : Board :=
  b.changeRow fqn fun r => { r with phases := Table.set phase status r.phases }

/-- Set the state and the time of a phase of a unit. -/
def endPhase (fqn phase status : String) (ms : Rat) (b : Board) : Board :=
  (b.setPhase fqn phase status).changeRow fqn fun r =>
    { r with elapsed := Table.set phase ms r.elapsed }

/-- Set the state and the time of a stage. -/
def endStage (stage status : String) (ms : Rat) (b : Board) : Board :=
  { b with
    stageStatus := Table.set stage status b.stageStatus
    stageElapsed := Table.set stage ms b.stageElapsed }

/-- A note in place of none, or of an empty one. -/
def orNote (note : Option String) (other : String) : Option String :=
  match note with
  | some s => if s = "" then some other else some s
  | none => some other

def apply (b : Board) (e : Event) : Board :=
  match e.body with
  | .commandStarted .. =>
    { b with
      command := e.command
      stages := stageRows e.command
      stageStatus := (stageRows e.command).map fun r => (r.1, "pending") }
  | .stageStarted stage _ => { b with stageStatus := Table.set stage "running" b.stageStatus }
  | .stageCompleted stage ms status =>
    b.endStage stage (if status = "succeeded" then "success" else status) ms
  | .stageFailed stage ms code message hint =>
    { b.endStage stage "failed" ms with
      stageFailure := some ⟨e.command, stage, code, message, hint⟩ }
  | .graphResolved _ order _ _ =>
    { b with units := order.foldl (fun units fqn => Table.setNew fqn {} units) b.units }
  | .redeployPlanned _ affected => { b with affected := some affected }
  | .runPlanned _ pairs release _ =>
    pairs.foldl (fun b p => b.setPhase p.fqn p.phase "pending")
      { b with releaseName := some release }
  | .unitStarted fqn phase => b.setPhase fqn phase "running"
  | .unitSucceeded fqn phase ms => b.endPhase fqn phase "succeeded" ms
  | .unitReused fqn phase _ => b.setPhase fqn phase "reused"
  | .unitFailed fqn phase ms cause timedOut =>
    let b := (b.endPhase fqn phase "failed" ms).changeRow fqn fun r =>
      { r with note := some (redact cause) }
    { b with failures := b.failures ++ [⟨fqn, phase, cause, timedOut⟩] }
  | .unitSkipped fqn phase blockedBy =>
    (b.setPhase fqn phase "skipped").changeRow fqn fun r =>
      { r with note := orNote r.note ("blocked by " ++ blockedBy) }
  | .warning _ message _ => { b with warnings := b.warnings ++ [message] }
  | .buildstateSaved path _ => { b with savedPath := path }
  | .runFinished status counts _ => { b with runEnd := some ⟨status, counts⟩ }
  | .bare | .commandCompleted .. | .buildstateLoaded .. | .outputsRecorded .. | .debug .. => b

end Board

end Rollout.View
