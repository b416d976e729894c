import Rollout.Text.Literal
import Rollout.Value.Parts

/-!
# Mappings from loose values

Options may give a mapping as a mapping, or as a list of pairs.

**Types.** `Exception`.

**Operations.** `mappingOf`.
-/

namespace Rollout

/-- An exception: its class and its text. -/
structure Exception where
  className : String
  text : String
  deriving DecidableEq, Inhabited

namespace Exception

def wrongType (text : String) : Exception := ⟨"TypeError", text⟩

def wrongValue (text : String) : Exception := ⟨"ValueError", text⟩

end Exception

def Value.asKey (v : Value) : Except Exception Key :=
  match v.key? with
  | some k => .ok k
  | none => .error (.wrongType ("unhashable type: '" ++ v.kindName ++ "'"))

def Key.toValue : Key → Value
  | .null => .null
  | .bool b => .bool b
  | .int i => .int i
  | .float x => .float x
  | .text s => .text s
  | .date d => .date d
  | .timestamp t => .timestamp t
  | .tuple items => .text (Key.literal (.tuple items))

/-- The parts of a value that can be gone through. -/
def Value.parts? : Value → Option (List Value)
  | .list items => some items
  | .text s => some (s.toList.map fun c => .text (String.singleton c))
  | .map entries => some (entries.map fun e => e.1.toValue)
  | _ => none

/-- Add the pairs of a list to a mapping; the number is the place of the first pair. -/
def addPairs (done : Entries) (place : Nat) : List Value → Except Exception Entries
  | [] => .ok done
  | v :: rest =>
    match v.parts? with
    | none => .error (.wrongType ("cannot convert dictionary update sequence element #" ++
        toString place ++ " to a sequence"))
    | some [k, x] =>
      match k.asKey with
      | .error e => .error e
      | .ok key => addPairs (Entries.set key x done) (place + 1) rest
    | some parts => .error (.wrongValue ("dictionary update sequence element #" ++ toString place ++
        " has length " ++ toString parts.length ++ "; 2 is required"))

/-- The mapping that a value gives. -/
def mappingOf : Value → Except Exception Entries
  | .map entries => .ok entries
  | v =>
    match v.parts? with
    | some parts => addPairs [] 0 parts
    | none => .error (.wrongType ("'" ++ v.kindName ++ "' object is not iterable"))

end Rollout
