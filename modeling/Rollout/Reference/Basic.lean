import Rollout.Stack.Kind
import Rollout.Text.Literal
import Rollout.Table
import Rollout.Text.Scan

/-!
# References

A text leaf of a unit's configuration refers to an output of another unit when it reads
`self.<kind>.<unit>.output.<field>`. A backslash in front of such a text makes it literal.

**Types.** `Reference`, `Path`, `Site`.

**Operations.**
* `Reference.parse?` and `Reference.text`: reading and printing;
* `isEscaped`, `unescape`: the literal form;
* `Value.leaves`, `Value.references`: the text leaves and the references in a value, with the paths
  that lead to them;
* `Value.mapLeaves`: a change of every leaf that keeps all containers;
* `Value.setAt`: a write at the end of a path.
-/

namespace Rollout

/-- A reference to an output of a unit of the same stack. -/
structure Reference where
  kind : UnitKind
  unit : String
  field : String
  deriving DecidableEq, Inhabited

/-- The name of a unit across stacks. -/
def qualifiedName (stack : String) (kind : UnitKind) (name : String) : String :=
  stack ++ "." ++ kind.text ++ "." ++ name

namespace Reference

/-- The name of the unit that a reference of a stack points to. -/
def target (r : Reference) (stack : String) : String := qualifiedName stack r.kind r.unit

def text (r : Reference) : String :=
  "self." ++ r.kind.text ++ "." ++ r.unit ++ ".output." ++ r.field

/-- Characters of names: ASCII letters and digits, the low line and the hyphen. -/
def isNameChar (c : Char) : Bool := c.isAlphanum || c == '_' || c == '-'

/-- Whether a part of a reference is a name; a line break may follow it. -/
def isName (cs : List Char) : Bool :=
  let body := if cs.getLast? = some '\n' then cs.dropLast else cs
  !body.isEmpty && body.all isNameChar

/-- The parts of a text between its points. -/
def parts : List Char → List (List Char)
  | [] => [[]]
  | c :: rest =>
    if c = '.' then [] :: parts rest
    else
      match parts rest with
      | first :: others => (c :: first) :: others
      | [] => [[c]]

def parse? (s : String) : Option Reference :=
  match parts s.toList with
  | [self, kind, unit, output, field] =>
    if self = "self".toList ∧ output = "output".toList then
      match UnitKind.ofText? (String.ofList kind) with
      | some kind =>
        if isName unit && isName field then
          some ⟨kind, String.ofList unit, String.ofList field⟩
        else none
      | none => none
    else none
  | _ => none

end Reference

/-- The mark that makes a reference literal. -/
def escapeMark : Char := '\\'

/-- The reference that a text would be without its escape mark. -/
def escaped? (s : String) : Option Reference :=
  match s.toList with
  | c :: rest => if c = escapeMark then Reference.parse? (String.ofList rest) else none
  | [] => none

/-- Whether a value is an escaped reference. -/
def Value.isEscaped : Value → Bool
  | .text s => (escaped? s).isSome
  | _ => false

/-- An escaped reference without its mark; every other value as it is. -/
def Value.unescape : Value → Value
  | .text s => if (escaped? s).isSome then .text (String.ofList (s.toList.drop 1)) else .text s
  | v => v

/-- The way from a value to a part of it: keys of mappings, and positions in lists as integers. -/
abbrev Path := List Key

/-- A path as text: its parts after slashes. -/
def Path.pointer (path : Path) : String :=
  "/" ++ "/".intercalate (path.map Key.display)

/-- A place in a unit's configuration that holds a reference. -/
structure Site where
  /-- The qualified name of the unit. -/
  unit : String
  path : Path
  reference : Reference
  deriving DecidableEq, Inhabited

namespace Value

mutual

/-- The text leaves of a value in document order, with the paths to them. -/
def leaves (path : Path) : Value → List (Path × String)
  | .text s => [(path, s)]
  | .list items => itemLeaves path 0 items
  | .map entries => entryLeaves path entries
  | .null | .bool _ | .int _ | .float _ | .date _ | .timestamp _ => []

/-- The text leaves of the items of a list, the first of which has the given position. -/
def itemLeaves (path : Path) (position : Nat) : List Value → List (Path × String)
  | [] => []
  | v :: rest => leaves (path ++ [.int position]) v ++ itemLeaves path (position + 1) rest

def entryLeaves (path : Path) : List (Key × Value) → List (Path × String)
  | [] => []
  | (k, v) :: rest => leaves (path ++ [k]) v ++ entryLeaves path rest

end

/-- The references in a value in document order, with the paths to them. -/
def references (path : Path) (v : Value) : List (Path × Reference) :=
  (v.leaves path).filterMap fun (p, s) => (Reference.parse? s).map fun r => (p, r)

mutual

/-- The value with every leaf changed; containers, keys and order stay. -/
def mapLeaves (f : Value → Value) : Value → Value
  | .list items => .list (mapItems f items)
  | .map entries => .map (mapEntries f entries)
  | v => f v

/-- The items of a list with every leaf changed. -/
def mapItems (f : Value → Value) : List Value → List Value
  | [] => []
  | v :: rest => mapLeaves f v :: mapItems f rest

/-- The entries of a mapping with every leaf changed. -/
def mapEntries (f : Value → Value) : List (Key × Value) → List (Key × Value)
  | [] => []
  | (k, v) :: rest => (k, mapLeaves f v) :: mapEntries f rest

end

/-- Why a write at a path fails. -/
inductive PathFault
  /-- The path is empty: the document itself cannot be replaced. -/
  | root
  /-- A mapping has no entry with the key. -/
  | noEntry
  /-- A list or a text has no such position. -/
  | noPosition
  /-- The value cannot be entered or written by such a key. -/
  | wrongKind
  deriving DecidableEq, Inhabited

/-- A position, counted from the end when it is negative, if it lies within the length. -/
def position? (length : Nat) (i : Int) : Option Nat :=
  let p := if i < 0 then i + length else i
  if 0 ≤ p ∧ p < length then some p.toNat else none

/-- The document with a value written at the end of a path. The last key of the path may be new to
its mapping; everything before it must exist. -/
def setAt (doc : Value) (path : Path) (value : Value) : Except PathFault Value :=
  match path with
  | [] => .error .root
  | [last] =>
    match doc, last with
    | .map entries, key => .ok (.map (Entries.set key value entries))
    | .list items, .int i =>
      match position? items.length i with
      | some p => .ok (.list (items.set p value))
      | none => .error .noPosition
    | _, _ => .error .wrongKind
  | key :: rest =>
    match doc, key with
    | .map entries, key =>
      match Entries.get? key entries with
      | some inner => do
        let changed ← setAt inner rest value
        return .map (Entries.set key changed entries)
      | none => .error .noEntry
    | .list items, .int i =>
      match position? items.length i with
      | some p => do
        let changed ← setAt (items.getD p .null) rest value
        return .list (items.set p changed)
      | none => .error .noPosition
    | .text s, .int i =>
      match position? s.length i with
      | some p => setAt (.text (String.ofList [s.toList.getD p ' '])) rest value
      | none => .error .noPosition
    | _, _ => .error .wrongKind

end Value

end Rollout
