import Rollout.Number.Binary64

/-!
# Document values

The values that stack files, unit configurations, outputs and stored states are made of. A mapping
keeps its entries in the order in which they were written.

**Types.** `Key`, `Value`, and the calendar types `Date` and `Timestamp`.

**Operations.**
* `Key.same`: two keys name the same entry (`1`, `true` and `1.0` are one key);
* `Value.get?`, `Value.set`: one entry of a mapping;
* `Value.IsPlain`: the JSON part of the type, with text keys only and no calendar values.
-/

namespace Rollout

/-- A day of the calendar. -/
structure Date where
  year : Nat
  month : Nat
  day : Nat
  deriving DecidableEq, Inhabited

/-- A moment: a day with a time of day, to the microsecond. -/
structure Timestamp where
  date : Date
  hour : Nat
  minute : Nat
  second : Nat
  microsecond : Nat
  deriving DecidableEq, Inhabited

/-- The key of a mapping entry. -/
inductive Key
  | null
  | bool (value : Bool)
  | int (value : Int)
  | float (value : Binary64)
  | text (value : String)
  | date (value : Date)
  | timestamp (value : Timestamp)
  | tuple (items : List Key)
  deriving Inhabited

/-- A document value. -/
inductive Value
  | null
  | bool (value : Bool)
  | int (value : Int)
  | float (value : Binary64)
  | text (value : String)
  | date (value : Date)
  | timestamp (value : Timestamp)
  | list (items : List Value)
  | map (entries : List (Key × Value))
  deriving Inhabited

abbrev Entries := List (Key × Value)

instance : Coe String Key := ⟨Key.text⟩

namespace Key

mutual

/-- Equality of keys, decided by structure. -/
def decEq : (a b : Key) → Decidable (a = b)
  | .null, .null => isTrue rfl
  | .bool a, .bool b => if h : a = b then isTrue (by rw [h]) else isFalse (by simpa using h)
  | .int a, .int b => if h : a = b then isTrue (by rw [h]) else isFalse (by simpa using h)
  | .float a, .float b => if h : a = b then isTrue (by rw [h]) else isFalse (by simpa using h)
  | .text a, .text b => if h : a = b then isTrue (by rw [h]) else isFalse (by simpa using h)
  | .date a, .date b => if h : a = b then isTrue (by rw [h]) else isFalse (by simpa using h)
  | .timestamp a, .timestamp b =>
    if h : a = b then isTrue (by rw [h]) else isFalse (by simpa using h)
  | .tuple a, .tuple b =>
    match decEqList a b with
    | isTrue h => isTrue (by rw [h])
    | isFalse h => isFalse (by simpa using h)
  | .null, .bool _ | .null, .int _ | .null, .float _ | .null, .text _ | .null, .date _
  | .null, .timestamp _ | .null, .tuple _ | .bool _, .null | .bool _, .int _ | .bool _, .float _
  | .bool _, .text _ | .bool _, .date _ | .bool _, .timestamp _ | .bool _, .tuple _
  | .int _, .null | .int _, .bool _ | .int _, .float _ | .int _, .text _ | .int _, .date _
  | .int _, .timestamp _ | .int _, .tuple _ | .float _, .null | .float _, .bool _
  | .float _, .int _ | .float _, .text _ | .float _, .date _ | .float _, .timestamp _
  | .float _, .tuple _ | .text _, .null | .text _, .bool _ | .text _, .int _ | .text _, .float _
  | .text _, .date _ | .text _, .timestamp _ | .text _, .tuple _ | .date _, .null
  | .date _, .bool _ | .date _, .int _ | .date _, .float _ | .date _, .text _
  | .date _, .timestamp _ | .date _, .tuple _ | .timestamp _, .null | .timestamp _, .bool _
  | .timestamp _, .int _ | .timestamp _, .float _ | .timestamp _, .text _ | .timestamp _, .date _
  | .timestamp _, .tuple _ | .tuple _, .null | .tuple _, .bool _ | .tuple _, .int _
  | .tuple _, .float _ | .tuple _, .text _ | .tuple _, .date _ | .tuple _, .timestamp _ =>
    isFalse (by simp)

/-- Equality of key lists, item by item. -/
def decEqList : (a b : List Key) → Decidable (a = b)
  | [], [] => isTrue rfl
  | [], _ :: _ => isFalse (by simp)
  | _ :: _, [] => isFalse (by simp)
  | a :: as, b :: bs =>
    match decEq a b, decEqList as bs with
    | isTrue h, isTrue hs => isTrue (by rw [h, hs])
    | isFalse h, _ => isFalse (by simp [h])
    | _, isFalse hs => isFalse (by simp [hs])

end

instance : DecidableEq Key := decEq

/-- The number that a key stands for: a truth value counts as 0 or 1. -/
def number? : Key → Option Rat
  | .bool b => some (if b then 1 else 0)
  | .int i => some i
  | .float x => x.toRat?
  | _ => none

/-- Whether two keys name the same entry: numbers are compared by value across their kinds, all
other keys by structure. Tuples are compared item by item. -/
def same (a b : Key) : Bool :=
  match a, b with
  | .tuple as, .tuple bs => sameList as bs
  | a, b =>
    match a.number?, b.number? with
    | some p, some q => decide (p = q)
    | _, _ => decide (a = b)
where
  /-- Item by item comparison. -/
  sameList : List Key → List Key → Bool
    | [], [] => true
    | a :: as, b :: bs => same a b && sameList as bs
    | _, _ => false

end Key

namespace Entries

def get? (key : Key) : Entries → Option Value
  | [] => none
  | (k, v) :: rest => if key.same k then some v else get? key rest

def has (key : Key) (entries : Entries) : Bool := (get? key entries).isSome

/-- Write the entry that a key names; a present entry keeps its key and its place. -/
def set (key : Key) (value : Value) : Entries → Entries
  | [] => [(key, value)]
  | (k, v) :: rest => if key.same k then (k, value) :: rest else (k, v) :: set key value rest

def keys (entries : Entries) : List Key := entries.map Prod.fst

end Entries

namespace Value

/-- The entry of a mapping that a text key names. -/
def get? (v : Value) (key : String) : Option Value :=
  match v with
  | .map entries => Entries.get? key entries
  | _ => none

/-- A mapping with text keys. -/
def object (entries : List (String × Value)) : Value :=
  .map (entries.map fun e => (Key.text e.1, e.2))

def texts (items : List String) : Value := .list (items.map .text)

/-- A text, or nothing. -/
def ofText? : Option String → Value
  | some s => .text s
  | none => .null

/-- Whether a value counts as true: not null, false, zero or empty. -/
def truthy : Value → Bool
  | .null => false
  | .bool b => b
  | .int i => i != 0
  | .float x => !x.isZero
  | .text s => !s.isEmpty
  | .list items => !items.isEmpty
  | .map entries => !entries.isEmpty
  | .date _ | .timestamp _ => true

mutual

/-- The JSON values: text keys, finite or special numbers, no calendar values. -/
def IsPlain : Value → Prop
  | .null | .bool _ | .int _ | .float _ | .text _ => True
  | .date _ | .timestamp _ => False
  | .list items => ArePlain items
  | .map entries => EntriesPlain entries

/-- Every item is a JSON value. -/
def ArePlain : List Value → Prop
  | [] => True
  | v :: rest => v.IsPlain ∧ ArePlain rest

/-- Every key is a text and every value a JSON value. -/
def EntriesPlain : List (Key × Value) → Prop
  | [] => True
  | (k, v) :: rest => (∃ s, k = .text s) ∧ v.IsPlain ∧ EntriesPlain rest

end

mutual

/-- Equality of values, decided by structure. -/
def decEq : (a b : Value) → Decidable (a = b)
  | .null, .null => isTrue rfl
  | .bool a, .bool b => if h : a = b then isTrue (by rw [h]) else isFalse (by simpa using h)
  | .int a, .int b => if h : a = b then isTrue (by rw [h]) else isFalse (by simpa using h)
  | .float a, .float b => if h : a = b then isTrue (by rw [h]) else isFalse (by simpa using h)
  | .text a, .text b => if h : a = b then isTrue (by rw [h]) else isFalse (by simpa using h)
  | .date a, .date b => if h : a = b then isTrue (by rw [h]) else isFalse (by simpa using h)
  | .timestamp a, .timestamp b =>
    if h : a = b then isTrue (by rw [h]) else isFalse (by simpa using h)
  | .list a, .list b =>
    match decEqList a b with
    | isTrue h => isTrue (by rw [h])
    | isFalse h => isFalse (by simpa using h)
  | .map a, .map b =>
    match decEqEntries a b with
    | isTrue h => isTrue (by rw [h])
    | isFalse h => isFalse (by simpa using h)
  | .null, .bool _ | .null, .int _ | .null, .float _ | .null, .text _ | .null, .date _
  | .null, .timestamp _ | .null, .list _ | .null, .map _ | .bool _, .null | .bool _, .int _
  | .bool _, .float _ | .bool _, .text _ | .bool _, .date _ | .bool _, .timestamp _
  | .bool _, .list _ | .bool _, .map _ | .int _, .null | .int _, .bool _ | .int _, .float _
  | .int _, .text _ | .int _, .date _ | .int _, .timestamp _ | .int _, .list _ | .int _, .map _
  | .float _, .null | .float _, .bool _ | .float _, .int _ | .float _, .text _ | .float _, .date _
  | .float _, .timestamp _ | .float _, .list _ | .float _, .map _ | .text _, .null
  | .text _, .bool _ | .text _, .int _ | .text _, .float _ | .text _, .date _
  | .text _, .timestamp _ | .text _, .list _ | .text _, .map _ | .date _, .null | .date _, .bool _
  | .date _, .int _ | .date _, .float _ | .date _, .text _ | .date _, .timestamp _
  | .date _, .list _ | .date _, .map _ | .timestamp _, .null | .timestamp _, .bool _
  | .timestamp _, .int _ | .timestamp _, .float _ | .timestamp _, .text _ | .timestamp _, .date _
  | .timestamp _, .list _ | .timestamp _, .map _ | .list _, .null | .list _, .bool _
  | .list _, .int _ | .list _, .float _ | .list _, .text _ | .list _, .date _
  | .list _, .timestamp _ | .list _, .map _ | .map _, .null | .map _, .bool _ | .map _, .int _
  | .map _, .float _ | .map _, .text _ | .map _, .date _ | .map _, .timestamp _ | .map _, .list _ =>
    isFalse (by simp)

/-- Equality of value lists, item by item. -/
def decEqList : (a b : List Value) → Decidable (a = b)
  | [], [] => isTrue rfl
  | [], _ :: _ => isFalse (by simp)
  | _ :: _, [] => isFalse (by simp)
  | a :: as, b :: bs =>
    match decEq a b, decEqList as bs with
    | isTrue h, isTrue hs => isTrue (by rw [h, hs])
    | isFalse h, _ => isFalse (by simp [h])
    | _, isFalse hs => isFalse (by simp [hs])

/-- Equality of entries, entry by entry. -/
def decEqEntries : (a b : List (Key × Value)) → Decidable (a = b)
  | [], [] => isTrue rfl
  | [], _ :: _ => isFalse (by simp)
  | _ :: _, [] => isFalse (by simp)
  | (ka, a) :: as, (kb, b) :: bs =>
    match Key.decEq ka kb, decEq a b, decEqEntries as bs with
    | isTrue hk, isTrue h, isTrue hs => isTrue (by rw [hk, h, hs])
    | isFalse hk, _, _ => isFalse (by simp [hk])
    | _, isFalse h, _ => isFalse (by simp [h])
    | _, _, isFalse hs => isFalse (by simp [hs])

end

instance : DecidableEq Value := decEq

end Value

end Rollout
