import Rollout.Text.Calendar

/-!
# Values in JSON

JSON has no special numbers, no days and no keys other than texts. Where a value holds one, a
mapping with a marked key stands in its place.

**Operations.** `Value.tagged`.
-/

namespace Rollout

/-- A number, with special numbers marked. -/
def Binary64.tagged (x : Binary64) : Value :=
  match x.reading with
  | .finite .. => .float x
  | _ => .object [("$float", .text x.text)]

/-- A day, marked. -/
def Date.tagged (d : Date) : Value := .object [("$date", .text d.text)]

/-- A moment, marked. -/
def Timestamp.tagged (t : Timestamp) : Value := .object [("$date", .text (t.text "T"))]

namespace Key

mutual

/-- A key as a value in JSON. -/
def tagged : Key → Value
  | .null => .null
  | .bool b => .bool b
  | .int i => .int i
  | .float x => x.tagged
  | .text s => .text s
  | .date d => d.tagged
  | .timestamp t => t.tagged
  | .tuple items => .list (taggedAll items)

/-- The keys of a tuple as values in JSON. -/
def taggedAll : List Key → List Value
  | [] => []
  | k :: rest => tagged k :: taggedAll rest

end

def isText : Key → Bool
  | .text _ => true
  | _ => false

end Key

/-- A mapping whose values are in JSON; with other keys than texts it is a list of pairs. -/
def Entries.tagged (entries : Entries) : Value :=
  if entries.all fun e => e.1.isText then .map entries
  else .object [("$map", .list (entries.map fun e => .list [e.1.tagged, e.2]))]

namespace Value

mutual

/-- A value in JSON. -/
def tagged : Value → Value
  | .float x => x.tagged
  | .date d => d.tagged
  | .timestamp t => t.tagged
  | .list items => .list (taggedItems items)
  | .map entries => Entries.tagged (taggedEntries entries)
  | v => v

/-- Items in JSON. -/
def taggedItems : List Value → List Value
  | [] => []
  | v :: rest => tagged v :: taggedItems rest

/-- Entries with their values in JSON. -/
def taggedEntries : List (Key × Value) → Entries
  | [] => []
  | (k, v) :: rest => (k, tagged v) :: taggedEntries rest

end

end Value

end Rollout
