import Rollout.Reference.Basic

/-!
# Init steps

An init step is a command text in which `self.inputs.<name>` stands for an input of the unit. Names
reach as far as they can.

**Operations.**
* `InitStep.pieces`: the step split into names and other characters, in one pass;
* `InitStep.names`: the names it uses;
* `InitStep.fill`: the step with every name replaced by the text of its input, a text as it is and
  any other value as JSON.

Checking and filling go over the same pieces, so they see the same names.
-/

namespace Rollout.InitStep

/-- What stands in front of a name. -/
def marker : List Char := "self.inputs.".toList

/-- A name that starts here, with its marker. -/
def findName : Text.Finder String := fun _ cs =>
  match Text.dropStart? marker cs with
  | some rest =>
    match rest.takeWhile Reference.isNameChar with
    | [] => none
    | name => some (String.ofList name, marker.length + name.length - 1)
  | none => none

/-- The step split into names and other characters. -/
def pieces (step : String) : List (Text.Piece String) := Text.pieces findName step.toList

/-- The names that a step uses, in order. -/
def names (step : String) : List String :=
  (pieces step).filterMap fun
    | .found name => some name
    | .kept _ => none

/-- Why a step cannot be filled in. -/
inductive Fault
  | missing (name : String)
  | unwritable (fault : Json.Fault)
  deriving Inhabited

def inputText (inputs : Table String Value) (name : String) : Except Fault (List Char) :=
  match Table.get? name inputs with
  | none => .error (.missing name)
  | some (.text s) => .ok s.toList
  | some v =>
    match Json.write Json.spaced v with
    | .ok cs => .ok cs
    | .error fault => .error (.unwritable fault)

/-- The texts of the pieces of a step, in order. -/
def fillPieces (inputs : Table String Value) : List (Text.Piece String) → Except Fault (List Char)
  | [] => .ok []
  | .kept c :: rest => do
    let others ← fillPieces inputs rest
    return c :: others
  | .found name :: rest => do
    let first ← inputText inputs name
    let others ← fillPieces inputs rest
    return first ++ others

/-- The step with every name replaced by the text of its input. -/
def fill (inputs : Table String Value) (step : String) : Except Fault String :=
  (fillPieces inputs (pieces step)).map String.ofList

end Rollout.InitStep
