import Rollout.Event.Basic

/-!
# Reading events

An event is read from a mapping that names its type and gives some of its fields; the others have
the values that they have when nothing is reported.

**Types.** `EventFault`.

**Operations.** `Event.ofValue`.
-/

namespace Rollout

/-- Why a mapping is no event. -/
inductive EventFault
  | unknownType
  | unknownField
  deriving DecidableEq, Inhabited

namespace EventBody

def textField (v : Value) (name : String) : String :=
  match v.get? name with
  | some (.text s) => s
  | _ => ""

/-- A text field that may be missing. -/
def textField? (v : Value) (name : String) : Option String :=
  match v.get? name with
  | some (.text s) => some s
  | _ => none

/-- A field that may be missing. -/
def someField? (v : Value) (name : String) : Option Value :=
  match v.get? name with
  | some .null => none
  | found => found

def numberField (v : Value) (name : String) : Rat :=
  match v.get? name with
  | some (.int i) => i
  | some (.bool b) => if b then 1 else 0
  | some (.float x) => (x.toRat?).getD 0
  | _ => 0

/-- A mark, with its value for the case that it is missing. -/
def boolField (v : Value) (name : String) (missing : Bool) : Bool :=
  match v.get? name with
  | some x => x.truthy
  | none => missing

def itemsField (v : Value) (name : String) : List Value :=
  match v.get? name with
  | some (.list items) => items
  | _ => []

def textsField (v : Value) (name : String) : List String :=
  (itemsField v name).map fun | .text s => s | _ => ""

def pathField? (v : Value) (name : String) : Option FilePath :=
  (textField? v name).map FilePath.ofText

/-- The numbers of a mapping. -/
def countsField (v : Value) (name : String) : Table String Int :=
  match v.get? name with
  | some (.map entries) => entries.filterMap fun
    | (.text k, .int i) => some (k, i)
    | _ => none
  | _ => []

/-- What the event of a mapping reports. -/
def ofValue? (v : Value) : Option EventBody :=
  let t := textField v
  let n (name : String) : Int := (numberField v name).num
  let ms := numberField v "duration_ms"
  match t "type" with
  | "StackEvent" => some .bare
  | "CommandStarted" =>
    some (.commandStarted (pathField? v "project_dir") (pathField? v "config_path")
      (someField? v "options"))
  | "CommandCompleted" => some (.commandCompleted (boolField v "ok" true) (n "exit_code"))
  | "StageStarted" => some (.stageStarted (t "stage_id") (t "label"))
  | "StageCompleted" =>
    some (.stageCompleted (t "stage_id") ms ((textField? v "status").getD "success"))
  | "StageFailed" =>
    some (.stageFailed (t "stage_id") ms (t "error_code") (t "message") (textField? v "hint"))
  | "GraphResolved" =>
    some (.graphResolved (t "stack") (textsField v "order")
      ((itemsField v "edges").map fun e =>
        ⟨textField e "from", textField e "to", textField e "kind"⟩) (n "references"))
  | "BuildstateLoaded" =>
    some (.buildstateLoaded (pathField? v "path") (n "units") (textField? v "release_name"))
  | "BuildstateSaved" => some (.buildstateSaved (pathField? v "path") (n "units"))
  | "RedeployPlanned" =>
    some (.redeployPlanned (textsField v "changed_paths") (textsField v "affected"))
  | "RunPlanned" =>
    some (.runPlanned (textsField v "phases")
      ((itemsField v "pairs").map fun p => ⟨textField p "fqn", textField p "phase"⟩)
      (t "release_name") ((v.get? "max_workers").getD (.int 1)))
  | "UnitPhaseStarted" => some (.unitStarted (t "fqn") (t "phase"))
  | "UnitPhaseSucceeded" => some (.unitSucceeded (t "fqn") (t "phase") ms)
  | "UnitPhaseReused" => some (.unitReused (t "fqn") (t "phase") (t "fingerprint"))
  | "UnitPhaseFailed" =>
    some (.unitFailed (t "fqn") (t "phase") ms (t "cause") (boolField v "timed_out" false))
  | "UnitPhaseSkipped" => some (.unitSkipped (t "fqn") (t "phase") (t "blocked_by"))
  | "OutputsRecorded" => some (.outputsRecorded (t "fqn") (textsField v "fields"))
  | "RunFinished" => some (.runFinished (t "status") (countsField v "counts") ms)
  | "Warning" => some (.warning (t "code") (t "message") (textField? v "hint"))
  | "Debug" => some (.debug (t "message") (someField? v "data"))
  | _ => none

end EventBody

namespace Event

/-- Read an event; a field that its type does not have is refused. -/
def ofValue (v : Value) : Except EventFault Event :=
  match EventBody.ofValue? v with
  | none => .error .unknownType
  | some body =>
    let known := ["type", "level", "command"] ++ body.fields.map Prod.fst
    let keys := match v with | .map entries => entries.map Prod.fst | _ => []
    if keys.all fun k => known.any fun name => k == .text name then
      .ok ⟨(EventBody.textField? v "level").getD body.level, EventBody.textField v "command", body⟩
    else .error .unknownField

end Event

end Rollout
