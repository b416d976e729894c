import Rollout.Files.FilePath
import Rollout.Table
import Rollout.Value

/-!
# Events

What a command reports while it works, one event after the other. Every event has a level and the
name of its command; the rest depends on what is reported. Times are in milliseconds.

**Types.** `EventBody`, `Event`.

**Operations.** `EventBody.type`, `EventBody.level`, `Event.of`, `Event.toValue`.
-/

namespace Rollout

/-- A dependency as events show it. -/
structure EdgeLine where
  source : String
  target : String
  kind : String
  deriving DecidableEq, Inhabited

/-- A pair of a unit and a phase as events show it. -/
structure PairLine where
  fqn : String
  phase : String
  deriving DecidableEq, Inhabited

/-- What an event reports. -/
inductive EventBody
  | bare
  | commandStarted (projectDir configPath : Option FilePath) (options : Option Value)
  | commandCompleted (ok : Bool) (exitCode : Int)
  | stageStarted (stage label : String)
  | stageCompleted (stage : String) (durationMs : Rat) (status : String)
  | stageFailed (stage : String) (durationMs : Rat) (code message : String) (hint : Option String)
  | graphResolved (stack : String) (order : List String) (edges : List EdgeLine) (references : Int)
  | buildstateLoaded (path : Option FilePath) (units : Int) (releaseName : Option String)
  | buildstateSaved (path : Option FilePath) (units : Int)
  | redeployPlanned (changedPaths affected : List String)
  | runPlanned (phases : List String) (pairs : List PairLine) (releaseName : String)
      (maxWorkers : Value)
  | unitStarted (fqn phase : String)
  | unitSucceeded (fqn phase : String) (durationMs : Rat)
  | unitReused (fqn phase fingerprint : String)
  | unitFailed (fqn phase : String) (durationMs : Rat) (cause : String) (timedOut : Bool)
  | unitSkipped (fqn phase blockedBy : String)
  | outputsRecorded (fqn : String) (fields : List String)
  | runFinished (status : String) (counts : Table String Int) (durationMs : Rat)
  | warning (code message : String) (hint : Option String)
  | debug (message : String) (data : Option Value)
  deriving DecidableEq, Inhabited

namespace EventBody

/-- The name of the kind of event. -/
def type : EventBody → String
  | .bare => ""
  | .commandStarted .. => "CommandStarted"
  | .commandCompleted .. => "CommandCompleted"
  | .stageStarted .. => "StageStarted"
  | .stageCompleted .. => "StageCompleted"
  | .stageFailed .. => "StageFailed"
  | .graphResolved .. => "GraphResolved"
  | .buildstateLoaded .. => "BuildstateLoaded"
  | .buildstateSaved .. => "BuildstateSaved"
  | .redeployPlanned .. => "RedeployPlanned"
  | .runPlanned .. => "RunPlanned"
  | .unitStarted .. => "UnitPhaseStarted"
  | .unitSucceeded .. => "UnitPhaseSucceeded"
  | .unitReused .. => "UnitPhaseReused"
  | .unitFailed .. => "UnitPhaseFailed"
  | .unitSkipped .. => "UnitPhaseSkipped"
  | .outputsRecorded .. => "OutputsRecorded"
  | .runFinished .. => "RunFinished"
  | .warning .. => "Warning"
  | .debug .. => "Debug"

/-- The level at which an event of the kind is reported. -/
def level : EventBody → String
  | .unitFailed .. => "ERROR"
  | .unitSkipped .. | .warning .. => "WARNING"
  | .debug .. => "DEBUG"
  | _ => "INFO"

/-- A time as a value: an integer where it is one. -/
def timeValue (ms : Rat) : Value :=
  if ms.den = 1 then .int ms.num else .float (Binary64.ofRat ms)

def pathValue (p : Option FilePath) : Value := .ofText? (p.map FilePath.text)

/-- The fields of what is reported. -/
def fields : EventBody → List (String × Value)
  | .bare => []
  | .commandStarted project config options =>
    [("project_dir", pathValue project), ("config_path", pathValue config),
      ("options", options.getD .null)]
  | .commandCompleted ok code => [("ok", .bool ok), ("exit_code", .int code)]
  | .stageStarted stage label => [("stage_id", .text stage), ("label", .text label)]
  | .stageCompleted stage ms status =>
    [("stage_id", .text stage), ("duration_ms", timeValue ms), ("status", .text status)]
  | .stageFailed stage ms code message hint =>
    [("stage_id", .text stage), ("duration_ms", timeValue ms), ("error_code", .text code),
      ("message", .text message), ("hint", .ofText? hint)]
  | .graphResolved stack order edges references =>
    [("stack", .text stack), ("order", .texts order),
      ("edges", .list (edges.map fun e => .object
        [("from", .text e.source), ("to", .text e.target), ("kind", .text e.kind)])),
      ("references", .int references)]
  | .buildstateLoaded path units release =>
    [("path", pathValue path), ("units", .int units), ("release_name", .ofText? release)]
  | .buildstateSaved path units => [("path", pathValue path), ("units", .int units)]
  | .redeployPlanned changed affected =>
    [("changed_paths", .texts changed), ("affected", .texts affected)]
  | .runPlanned phases pairs release workers =>
    [("phases", .texts phases),
      ("pairs", .list (pairs.map fun p => .object
        [("fqn", .text p.fqn), ("phase", .text p.phase)])),
      ("release_name", .text release), ("max_workers", workers)]
  | .unitStarted fqn phase => [("fqn", .text fqn), ("phase", .text phase)]
  | .unitSucceeded fqn phase ms =>
    [("fqn", .text fqn), ("phase", .text phase), ("duration_ms", timeValue ms)]
  | .unitReused fqn phase digest =>
    [("fqn", .text fqn), ("phase", .text phase), ("fingerprint", .text digest)]
  | .unitFailed fqn phase ms cause timedOut =>
    [("fqn", .text fqn), ("phase", .text phase), ("duration_ms", timeValue ms),
      ("cause", .text cause), ("timed_out", .bool timedOut)]
  | .unitSkipped fqn phase blockedBy =>
    [("fqn", .text fqn), ("phase", .text phase), ("blocked_by", .text blockedBy)]
  | .outputsRecorded fqn names => [("fqn", .text fqn), ("fields", .texts names)]
  | .runFinished status counts ms =>
    [("status", .text status), ("counts", .object (counts.map fun e => (e.1, .int e.2))),
      ("duration_ms", timeValue ms)]
  | .warning code message hint =>
    [("code", .text code), ("message", .text message), ("hint", .ofText? hint)]
  | .debug message data => [("message", .text message), ("data", data.getD .null)]

end EventBody

/-- Something that a command reports. -/
structure Event where
  level : String
  command : String
  body : EventBody
  deriving DecidableEq, Inhabited

namespace Event

/-- The event of a command, at the level of its kind. -/
def of (command : String) (body : EventBody) : Event := ⟨body.level, command, body⟩

def toValue (e : Event) : Value :=
  .object ([("type", .text e.body.type), ("level", .text e.level), ("command", .text e.command)] ++
    e.body.fields)

end Event

end Rollout
