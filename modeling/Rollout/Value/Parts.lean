import Rollout.Table
import Rollout.Value

/-!
# Parts of values

What is expected in a place of a document is taken out of it here; something of another kind counts
as absent.

**Operations.** `part`, `partOr`, `asText`, `asInt`, `asList`, `asTable`, `key?`.
-/

namespace Rollout.Value

/-- The key that a value can be; lists and mappings are no keys. -/
def key? : Value → Option Key
  | .null => some .null
  | .bool b => some (.bool b)
  | .int i => some (.int i)
  | .float x => some (.float x)
  | .text s => some (.text s)
  | .date d => some (.date d)
  | .timestamp t => some (.timestamp t)
  | .list _ | .map _ => none

/-- An entry of a mapping, or null. -/
def part (v : Value) (key : String) : Value := (v.get? key).getD .null

/-- An entry of a mapping, or something else in its place. -/
def partOr (v : Value) (key : String) (other : Value) : Value := (v.get? key).getD other

def asText? : Value → Option String
  | .text s => some s
  | _ => none

/-- A text; the empty one in the place of anything else. -/
def asText (v : Value) : String := v.asText?.getD ""

/-- The whole number that a number stands for. -/
def asInt : Value → Int
  | .int i => i
  | .bool b => if b then 1 else 0
  | .float x => x.toInt?.getD 0
  | _ => 0

/-- The exact value of a number. -/
def asRat : Value → Rat
  | .int i => i
  | .bool b => if b then 1 else 0
  | .float x => x.toRat?.getD 0
  | _ => 0

/-- The nearest floating-point number of a number. -/
def asFloat : Value → Binary64
  | .float x => x
  | .int i => Binary64.ofRat i
  | .bool true => Binary64.ofRat 1
  | _ => Binary64.zero false

/-- The items of a list. -/
def asList : Value → List Value
  | .list items => items
  | _ => []

def asEntries : Value → Entries
  | .map entries => entries
  | _ => []

/-- The entries of a mapping that have a text as their key. -/
def asTable (v : Value) : Table String Value :=
  v.asEntries.filterMap fun e => match e.1 with
    | .text s => some (s, e.2)
    | _ => none

def asTexts (v : Value) : List String := v.asList.map asText

end Rollout.Value
