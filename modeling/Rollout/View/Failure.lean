import Rollout.View.Board
import Rollout.View.Output

/-!
# Panels about failures

**Operations.** `StageFailure.panel`, `failuresPanel`.
-/

namespace Rollout.View

def joinLines (lines : List String) : String := "\n".intercalate lines

/-- An addition to a text unless it is empty. -/
def nonEmptyLine (lead : String) : Option String → List String
  | some s => if s = "" then [] else [lead ++ redact s]
  | none => []

def StageFailure.panel (f : StageFailure) : Block :=
  .panel
    (.text (joinLines (["stage: " ++ f.stage, "code: " ++ f.code, "error: " ++ redact f.message] ++
      nonEmptyLine "hint: " f.hint)))
    (f.command ++ " failed")

/-- The mark of a phase that ran out of time. -/
def UnitFailure.timeoutMark (f : UnitFailure) : String := if f.timedOut then " (timeout)" else ""

/-- The line about a phase of a unit that has failed. -/
def UnitFailure.line (f : UnitFailure) : String :=
  f.fqn ++ " [" ++ f.phase ++ "]" ++ f.timeoutMark ++ ": " ++ redact f.cause

def listedFailures : Nat := 20

/-- The panel about phases of units that have failed. -/
def failuresPanel (failures : List UnitFailure) : Block :=
  let more :=
    if listedFailures < failures.length then
      ["...and " ++ toString (failures.length - listedFailures) ++ " more"]
    else []
  .panel
    (.text (joinLines ((failures.take listedFailures).map UnitFailure.line ++ more ++
      ["", "hint: fix the cause and rerun; succeeded units are reused from buildstate"])))
    ("Unit failures (" ++ toString failures.length ++ ")")

end Rollout.View
