import Rollout.Json.Writer
import Rollout.Stack.Kind
import Rollout.View.Failure
import Rollout.View.Renderer

/-!
# Reports of commands that run phases

A command that runs phases is reported in one of three ways: as tables that are kept up to date, line
by line, or as one document at its end.

**Operations.** `phaseTables`, `phaseLines`, `phaseDocument`.
-/

namespace Rollout.View

/-- A duration in milliseconds. -/
def msText (ms : Rat) : String := durationText (Binary64.ofRat ms)

/-- A text, or a dash in place of none and of an empty one. -/
def orDash : Option String → String
  | some s => if s = "" then "-" else s
  | none => "-"

/-! ## Tables -/

namespace Board

def statusOf (b : Board) (stage other : String) : String :=
  (Table.get? stage b.stageStatus).getD other

/-- The rows of the stages, numbered from a place on. -/
def stageLines (b : Board) : Nat → List (String × String) → List (List Cell)
  | _, [] => []
  | place, (id, label) :: rest =>
    let status := b.statusOf id "pending"
    let duration := match Table.get? id b.stageElapsed with
      | some ms => msText ms
      | none => ""
    [.text (toString place ++ "/" ++ toString b.stages.length), .text label,
      .styled (statusGlyph status ++ " " ++ Text.lower (statusWord status)) (statusStyle status),
      .text duration] :: b.stageLines (place + 1) rest

def phaseCell (r : UnitRow) (p : Phase) : Cell :=
  match Table.get? p.text r.phases with
  | none => .styled "-" "dim"
  | some status =>
    let duration := match Table.get? p.text r.elapsed with
      | some ms => " " ++ msText ms
      | none => ""
    .styled (statusGlyph status ++ " " ++ status ++ duration) (statusStyle status)

def unitLine (fqn : String) (r : UnitRow) : List Cell :=
  .text fqn :: Phase.all.map (phaseCell r) ++ [.text (r.note.getD "")]

/-- The stages and the units of a command. -/
def view (b : Board) : Block :=
  let stages : Block := .panel
    (.table ["#", "Stage", "Status", "Time"] (b.stageLines 1 b.stages)) "Stages"
  let units : List Block :=
    if b.units.isEmpty then []
    else
      [.panel
        (.table ("UNIT" :: Phase.all.map (fun p => Text.upper p.text) ++ ["NOTES"])
          (b.units.map fun (fqn, r) => unitLine fqn r))
        "Units"]
  .group (stages :: units)

def endPanel (b : Board) (ok : Bool) (e : RunEnd) : Block :=
  .panel
    (.text (joinLines [
      "Status:   " ++ e.status,
      "Release:  " ++ orDash b.releaseName,
      "Counts:   " ++ countsText e.counts,
      "State:    " ++ orDash (b.savedPath.map FilePath.text)]))
    (b.command ++ " " ++ if ok then "complete" else "finished with failures")

/-- What is shown after the tables when a command is completed. -/
def closing (b : Board) (ok : Bool) : List Output :=
  b.warnings.map (fun w => .line ("[yellow]warning:[/yellow] " ++ redact w)) ++
    match b.stageFailure with
    | some f => [.print f.panel]
    | none =>
      (if b.failures.isEmpty then [] else [.print (failuresPanel b.failures)]) ++
        match b.runEnd with
        | some e => [.print (b.endPanel ok e)]
        | none => []

end Board

/-- A board and whether a live view of it is shown. -/
structure LiveBoard where
  board : Board := {}
  live : Bool := false
  deriving Inhabited

/-- Keep a live view on a terminal, and show tables at the end elsewhere. -/
def LiveBoard.handle (terminal : Bool) (s : LiveBoard) (e : Event) : LiveBoard × List Output :=
  let board := s.board.apply e
  match e.body with
  | .commandStarted project config _ =>
    (⟨board, s.live || terminal⟩,
      header project config :: if terminal then [.startLive board.view] else [])
  | .commandCompleted ok _ =>
    (⟨board, false⟩,
      (if s.live then [.updateLive board.view, .stopLive] else [.print board.view]) ++
        board.closing ok)
  | _ => (⟨board, s.live⟩, if s.live then [.updateLive board.view] else [])

/-- Tables that are kept up to date. -/
def phaseTables (terminal : Bool) : Renderer where
  State := LiveBoard
  start := {}
  handle := LiveBoard.handle terminal
  close s := if s.live then [.stopLive] else []

/-! ## Lines -/

def endedLine (b : Board) (stage : String) (ms : Rat) : Output :=
  .line (stageLine (rowIndex stage b.stages) (rowLabel stage b.stages) (b.statusOf stage "failed")
    (some (Binary64.ofRat ms)) b.stages.length)

/-- The data of an event for diagnosis, as a text. -/
def dataText (data : Option Value) : String :=
  match Json.render Json.spaced (data.getD .null) with
  | .ok s => s
  | .error _ => ""

/-- The lines that an event is shown by, on the board after it. -/
def eventLines (b : Board) (e : Event) : List Output :=
  match e.body with
  | .commandStarted project config _ => [header project config]
  | .stageStarted stage _ =>
    [.line (stageStartLine (rowIndex stage b.stages) (rowLabel stage b.stages) b.stages.length)]
  | .stageCompleted stage ms _ | .stageFailed stage ms .. => [endedLine b stage ms]
  | .redeployPlanned _ affected =>
    [.line ("REDEPLOY affected=" ++
      if affected = [] ∨ affected = [""] then "none" else ", ".intercalate affected)]
  | .unitSucceeded fqn phase ms => [.line ("  " ++ fqn ++ " " ++ phase ++ " OK  " ++ msText ms)]
  | .unitReused fqn phase _ => [.line ("  " ++ fqn ++ " " ++ phase ++ " REUSED")]
  | .unitFailed fqn phase _ cause timedOut =>
    [.line ("  " ++ fqn ++ " " ++ phase ++ " FAIL" ++ (if timedOut then " (timeout)" else "") ++
      ": " ++ redact cause)]
  | .unitSkipped fqn phase blockedBy =>
    [.line ("  " ++ fqn ++ " " ++ phase ++ " SKIP (blocked by " ++ blockedBy ++ ")")]
  | .warning _ message _ => [.line ("Warning: " ++ redact message)]
  | .debug message data => [.line ("Debug: " ++ message ++ " " ++ dataText data)]
  | .runFinished status counts _ =>
    [.line ("RUN " ++ Text.upper status ++ " " ++ countsText counts)]
  | .commandCompleted ok _ =>
    match ok, b.stageFailure with
    | false, some f =>
      .line ("Error: " ++ redact f.message) :: (nonEmptyLine "Hint: " f.hint).map Output.line
    | _, _ => []
  | _ => []

/-- A report line by line. -/
def phaseLines : Renderer where
  State := Board
  start := {}
  handle b e := (b.apply e, eventLines (b.apply e) e)

/-! ## A document -/

def StageFailure.toValue (f : StageFailure) : Value :=
  .object [("stage", .text f.stage), ("code", .text f.code), ("message", .text (redact f.message))]

def UnitFailure.toValue (f : UnitFailure) : Value :=
  .object [("fqn", .text f.fqn), ("phase", .text f.phase), ("cause", .text (redact f.cause)),
    ("timed_out", .bool f.timedOut)]

def UnitRow.toValue (r : UnitRow) : Value :=
  .object [("phases", .object (r.phases.map fun p => (p.1, .text p.2))), ("note", .ofText? r.note)]

/-- The document about a command. -/
def Board.document (b : Board) (ok : Bool) (exitCode : Int) : Value :=
  .object [
    ("ok", .bool ok),
    ("exit_code", .int exitCode),
    ("command", .text b.command),
    ("status", .ofText? (b.runEnd.map RunEnd.status)),
    ("release_name", .ofText? b.releaseName),
    ("affected", match b.affected with | some fqns => .texts fqns | none => .null),
    ("stages", .object (b.stageStatus.map fun s => (s.1, .text s.2))),
    ("units", .object (b.units.map fun u => (u.1, u.2.toValue))),
    ("failures", .list (b.failures.map UnitFailure.toValue)),
    ("warnings", .texts (b.warnings.map redact)),
    ("errors", .list (b.stageFailure.toList.map StageFailure.toValue))]

/-- A report as one document at the end of the command. -/
def phaseDocument : Renderer where
  State := Board
  start := {}
  handle b e :=
    (b.apply e,
      match e.body with
      | .commandCompleted ok code => [.document ((b.apply e).document ok code)]
      | _ => [])

end Rollout.View
