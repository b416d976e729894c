import Rollout.Text.Literal
import Rollout.Value.Parts
import Rollout.Yaml.Node

/-!
# The value of a document

The tree of a document stands for a value. An entry whose key is the mark of taken over entries
brings in the entries of other mappings, which the own entries of the mapping override. The faults
of a tree are looked for from the top down, level by level: a key that is no key, a scalar that has
no value, and two entries with one key.

**Types.** `Fault`.

**Operations.** `Node.fault?`, `Node.toValue`, `readValue`.
-/

namespace Rollout.Yaml

/-- Why a text stands for no value. -/
inductive Fault
  | unreadable
  /-- Two entries with one key: the key, the later value and the earlier one, as they are shown. -/
  | duplicate (key later earlier : String)
  /-- A second mark of taken over entries. -/
  | duplicateMark (key : String)
  deriving DecidableEq, Inhabited

/-- The text about two entries with one key. -/
def Fault.problem? : Fault → Option String
  | .unreadable => none
  | .duplicate key later earlier =>
    some ("found duplicate key \"" ++ key ++ "\" with value \"" ++ later ++
      "\" (original value: \"" ++ earlier ++ "\")")
  | .duplicateMark key => some ("found duplicate key \"" ++ key ++ "\"")

/-- Entries that are taken over, and the entries of a mapping itself. -/
structure Flat where
  taken : List (Node × Node) := []
  own : List (Node × Node) := []
  deriving Inhabited

/-- All entries, those that are taken over first. -/
def Flat.all (f : Flat) : List (Node × Node) := f.taken ++ f.own

/-- The text of a key that marks entries that are taken over. -/
def Node.takeMark? : Node → Option String
  | .scalar .merge text => some text
  | _ => none

/-- A key; the mark of a default value is a text as a key. -/
def Node.asKey : Node → Node
  | .scalar .default_ text => .scalar .text text
  | n => n

mutual

/-- The entries of a mapping, with those that it takes over. -/
def flatten (f : Flat) : List (Node × Node) → Except Fault Flat
  | [] => .ok f
  | (key, value) :: rest =>
    match key.takeMark? with
    | some mark =>
      if f.taken.isEmpty then do
        flatten { f with taken := ← takenFrom value } rest
      else .error (.duplicateMark mark)
    | none => flatten { f with own := f.own ++ [(key.asKey, value)] } rest

/-- The entries that a mapping or a list of mappings gives; those of an earlier mapping override
those of a later one. -/
def takenFrom : Node → Except Fault (List (Node × Node))
  | .mapping _ entries => (flatten {} entries).map Flat.all
  | .sequence _ items => takenFromAll items
  | .scalar .. => .error .unreadable

/-- The entries that a list of mappings gives. -/
def takenFromAll : List Node → Except Fault (List (Node × Node))
  | [] => .ok []
  | .mapping _ entries :: rest => do
    let front ← (flatten {} entries).map Flat.all
    return (← takenFromAll rest) ++ front
  | _ :: _ => .error .unreadable

end

/-- The key that a scalar stands for. -/
def Node.scalarKey? : Node → Option Key
  | .scalar tag text => (tag.value? text).bind Value.key?
  | _ => none

/-- The key that a node stands for: a scalar, or a sequence of scalars. -/
def Node.key? : Node → Option Key
  | .sequence .sequence items => (items.mapM Node.scalarKey?).map .tuple
  | n => n.scalarKey?

/-- How a value is shown before the content of collections is known. -/
def Node.outline? : Node → Option String
  | .scalar tag text => (tag.value? text).bind fun v => v.key?.map Key.display
  | .sequence tag _ => if tag = .sequence then some "[]" else none
  | .mapping tag _ => if tag = .mapping then some "\x7b\x7d" else none

/-- The first fault in the entries of a mapping, given the entries before them; with `distinct`, no
key may occur twice. -/
def entriesFault? (distinct : Bool) (before : List (Key × String)) :
    List (Node × Node) → Option Fault
  | [] => none
  | (k, v) :: rest =>
    match k.key?, v.outline? with
    | some key, some shown =>
      match before.find? fun e => key.same e.1 with
      | some (_, earlier) =>
        if distinct then some (.duplicate key.display shown earlier)
        else entriesFault? distinct before rest
      | none => entriesFault? distinct (before ++ [(key, shown)]) rest
    | _, _ => some .unreadable

/-- The first fault of a node, without those inside its items. -/
def Node.ownFault? : Node → Option Fault
  | .scalar tag text => if (tag.value? text).isSome then none else some .unreadable
  | .sequence tag items =>
    if tag = .sequence && items.all fun n => n.outline?.isSome then none else some .unreadable
  | .mapping tag entries =>
    if tag = .mapping then
      match flatten {} entries with
      | .error e => some e
      | .ok f => entriesFault? f.taken.isEmpty [] f.all
    else some .unreadable

/-- Whether a node has items. -/
def Node.isCollection : Node → Bool
  | .scalar .. => false
  | _ => true

def Node.collections : Node → List Node
  | .scalar .. => []
  | .sequence _ items => items.filter Node.isCollection
  | .mapping _ entries =>
    match flatten {} entries with
    | .ok f => (f.all.map Prod.snd).filter Node.isCollection
    | .error _ => []

/-- The first fault on a level of a tree or below it. -/
def levelFault? : Nat → List Node → Option Fault
  | 0, _ => none
  | fuel + 1, nodes =>
    match nodes.findSome? Node.ownFault? with
    | some f => some f
    | none =>
      let next := nodes.flatMap Node.collections
      if next.isEmpty then none else levelFault? fuel next

mutual

/-- The number of levels of a tree. -/
def Node.depth : Node → Nat
  | .scalar .. => 1
  | .sequence _ items => depthOfItems items + 1
  | .mapping _ entries => depthOfEntries entries + 1

/-- The number of levels of the deepest item. -/
def depthOfItems : List Node → Nat
  | [] => 0
  | n :: rest => max n.depth (depthOfItems rest)

/-- The number of levels of the deepest value. -/
def depthOfEntries : List (Node × Node) → Nat
  | [] => 0
  | (_, v) :: rest => max v.depth (depthOfEntries rest)

end

/-- The first fault of a tree. -/
def Node.fault? (n : Node) : Option Fault := levelFault? (n.depth + 1) [n]

/-- The entries that values of taken over mappings give; an earlier mapping overrides a later
one. -/
def entriesGiven : Value → Entries
  | .map entries => entries
  | .list items =>
    items.reverse.flatMap fun v => match v with
      | .map entries => entries
      | _ => []
  | _ => []

mutual

/-- The value of a tree without faults. -/
def Node.toValue : Node → Value
  | .scalar tag text => (tag.value? text).getD .null
  | .sequence _ items => .list (itemValues items)
  | .mapping _ entries =>
    .map ((takenValues entries ++ ownValues entries).foldl (fun es e => Entries.set e.1 e.2 es) [])

def itemValues : List Node → List Value
  | [] => []
  | n :: rest => n.toValue :: itemValues rest

def takenValues : List (Node × Node) → Entries
  | [] => []
  | (k, v) :: rest =>
    if k.takeMark?.isSome then entriesGiven v.toValue ++ takenValues rest else takenValues rest

/-- The entries of the mapping itself. -/
def ownValues : List (Node × Node) → Entries
  | [] => []
  | (k, v) :: rest =>
    if k.takeMark?.isSome then ownValues rest
    else (k.asKey.key?.getD .null, v.toValue) :: ownValues rest

end

def readValue (text : String) : Except Fault Value :=
  match Node.ofText? text with
  | none => .error .unreadable
  | some n =>
    match n.fault? with
    | some f => .error f
    | none => .ok n.toValue

end Rollout.Yaml
