import Rollout.Sorting
import Rollout.Text.Calendar

/-!
# JSON text of values

**Styles.** Entries are sorted by key. A `Style` fixes the gaps, whether characters outside ASCII are
escaped, and what becomes of calendar values.
* `stable`: no gaps, calendar values as texts. This is the text that is hashed and stored.
* `spaced`: gaps after commas and colons, ASCII only, calendar values refused.

**Failures.** Keys of different kinds cannot be sorted; calendar days and tuples cannot be keys; a
calendar value is refused where the style says so.

**Results.** For JSON values no failure arises (`sortEntries_text`).
-/

namespace Rollout

/-- The name of a kind of value, as messages use it. -/
def Key.kindName : Key → String
  | .null => "NoneType"
  | .bool _ => "bool"
  | .int _ => "int"
  | .float _ => "float"
  | .text _ => "str"
  | .date _ => "datetime.date"
  | .timestamp _ => "datetime.datetime"
  | .tuple _ => "tuple"

namespace Json

/-- Why a value has no JSON text. -/
inductive Fault
  /-- Two neighbouring keys have no common order. -/
  | unordered (left right : Key)
  /-- A key of a kind that has no text. -/
  | badKey (key : Key)
  /-- A value of a kind that has no text. -/
  | refused (kind : String)
  deriving Inhabited

/-- The last part of a dotted kind name. -/
def shortKind (kind : String) : String :=
  match kind with
  | "datetime.date" => "date"
  | "datetime.datetime" => "datetime"
  | other => other

def Fault.message : Fault → String
  | .unordered (.timestamp _) (.date _) | .unordered (.date _) (.timestamp _) =>
    "can't compare datetime.datetime to datetime.date"
  | .unordered a b =>
    "'<' not supported between instances of '" ++ a.kindName ++ "' and '" ++ b.kindName ++ "'"
  | .badKey k =>
    "keys must be str, int, float, bool or None, not " ++ k.kindName
  | .refused kind => "Object of type " ++ shortKind kind ++ " is not JSON serializable"

/-- What a JSON text looks like. -/
structure Style where
  itemGap : List Char
  keyGap : List Char
  asciiOnly : Bool
  /-- Calendar values are written as texts instead of being refused. -/
  calendar : Bool

/-- Sorted by key, without gaps, calendar values as texts. -/
def stable : Style := ⟨[], [], false, true⟩

/-- Sorted by key, with gaps, in ASCII. -/
def spaced : Style := ⟨[' '], [' '], true, false⟩

/-- A digit of base sixteen, in lower case. -/
def hexDigit (n : Nat) : Char := Nat.digitChar (n % 16)

/-- The escape of a 16-bit unit. -/
def unitEscape (n : Nat) : List Char :=
  ['\\', 'u', hexDigit (n / 4096), hexDigit (n / 256), hexDigit (n / 16), hexDigit n]

/-- The escape of a character, as one unit or as a pair. -/
def charEscape (c : Char) : List Char :=
  let n := c.toNat
  if n < 0x10000 then unitEscape n
  else unitEscape (0xD800 + (n - 0x10000) / 0x400) ++ unitEscape (0xDC00 + (n - 0x10000) % 0x400)

/-- A character inside quotes. -/
def quotedChar (asciiOnly : Bool) (c : Char) : List Char :=
  match c with
  | '"' => ['\\', '"']
  | '\\' => ['\\', '\\']
  | '\n' => ['\\', 'n']
  | '\r' => ['\\', 'r']
  | '\t' => ['\\', 't']
  | '\x08' => ['\\', 'b']
  | '\x0c' => ['\\', 'f']
  | c =>
    if c.toNat < 0x20 ∨ (asciiOnly ∧ 0x7F ≤ c.toNat) then charEscape c else [c]

def quoted (asciiOnly : Bool) (s : String) : List Char :=
  '"' :: s.toList.flatMap (quotedChar asciiOnly) ++ ['"']

/-- A number of the 64-bit format; the special ones have names. -/
def floatText (x : Binary64) : List Char :=
  match x.reading with
  | .notANumber => "NaN".toList
  | .infinite negative => if negative then "-Infinity".toList else "Infinity".toList
  | .finite .. => x.text.toList

/-- An integer in decimal digits. -/
def intText : Int → List Char
  | .ofNat n => Decimal.ofNat n
  | .negSucc n => '-' :: Decimal.ofNat (n + 1)

def boolText (b : Bool) : List Char := if b then "true".toList else "false".toList

def keyText : Key → Except Fault String
  | .text s => .ok s
  | .null => .ok "null"
  | .bool b => .ok (String.ofList (boolText b))
  | .int i => .ok (String.ofList (intText i))
  | .float x => .ok (String.ofList (floatText x))
  | k => .error (.badKey k)

/-- The keys that can be compared with one another. -/
inductive KeyClass
  | none | number | text | date | timestamp | tuple
  deriving DecidableEq

def keyClass : Key → KeyClass
  | .null => .none
  | .bool _ | .int _ | .float _ => .number
  | .text _ => .text
  | .date _ => .date
  | .timestamp _ => .timestamp
  | .tuple _ => .tuple

/-- The order of two keys of one class. -/
def keyLe (a b : Key) : Bool :=
  match a, b with
  | .text s, .text t => decide (s ≤ t)
  | .date s, .date t => decide (s.text ≤ t.text)
  | .timestamp s, .timestamp t => decide (s.text "T" ≤ t.text "T")
  | a, b =>
    match a.number?, b.number? with
    | some p, some q => decide (p ≤ q)
    | _, _ => true

/-- The first key that has no order with the one before it, and that one. -/
def firstClash : List Key → Option (Key × Key)
  | a :: b :: rest => if keyClass a = keyClass b then firstClash (b :: rest) else some (b, a)
  | _ => none

/-- Entries in the order of their keys. -/
def sortEntries {α : Type} (entries : List (Key × α)) : Except Fault (List (Key × α)) :=
  match firstClash (entries.map Prod.fst) with
  | some (b, a) => .error (.unordered b a)
  | none => .ok (Sorting.sort (fun x y => keyLe x.1 y.1) entries)

/-- Written items with commas between them. -/
def joined (gap : List Char) : List (List Char) → List Char
  | [] => []
  | [x] => x
  | x :: rest => x ++ ',' :: gap ++ joined gap rest

/-- The text of an entry whose value has been written. -/
def entryText (style : Style) (entry : Key × Except Fault (List Char)) :
    Except Fault (List Char) := do
  let key ← keyText entry.1
  let value ← entry.2
  return quoted style.asciiOnly key ++ ':' :: style.keyGap ++ value

mutual

/-- The JSON text of a value.

An entry is written before its mapping is sorted; a failure counts only when its turn comes. -/
def write (style : Style) : Value → Except Fault (List Char)
  | .null => .ok "null".toList
  | .bool b => .ok (boolText b)
  | .int i => .ok (intText i)
  | .float x => .ok (floatText x)
  | .text s => .ok (quoted style.asciiOnly s)
  | .date d =>
    if style.calendar then .ok (quoted style.asciiOnly d.text)
    else .error (.refused "datetime.date")
  | .timestamp t =>
    if style.calendar then .ok (quoted style.asciiOnly (t.text " "))
    else .error (.refused "datetime.datetime")
  | .list items => do
    let written ← writeItems style items
    return '[' :: joined style.itemGap written ++ [']']
  | .map entries => do
    let written := writeEntries style entries
    let texts ← (← sortEntries written).mapM (entryText style)
    return '{' :: joined style.itemGap texts ++ ['}']

/-- The texts of the items of a list. -/
def writeItems (style : Style) : List Value → Except Fault (List (List Char))
  | [] => .ok []
  | v :: rest => do
    let first ← write style v
    let others ← writeItems style rest
    return first :: others

/-- The keys of the entries of a mapping, each with the outcome of writing its value. -/
def writeEntries (style : Style) : List (Key × Value) → List (Key × Except Fault (List Char))
  | [] => []
  | (k, v) :: rest => (k, write style v) :: writeEntries style rest

end

def render (style : Style) (v : Value) : Except Fault String :=
  (write style v).map String.ofList

theorem firstClash_text {keys : List Key} (h : ∀ k ∈ keys, ∃ s, k = Key.text s) :
    firstClash keys = none := by
  induction keys with
  | nil => rfl
  | cons a rest ih =>
    cases rest with
    | nil => rfl
    | cons b rest =>
      obtain ⟨s, rfl⟩ := h _ List.mem_cons_self
      obtain ⟨t, rfl⟩ := h b (by simp)
      simpa [firstClash, keyClass] using ih fun k hk => h k (by simp [hk])

/-- Text keys always have an order. -/
theorem sortEntries_text {α : Type} {entries : List (Key × α)}
    (h : ∀ e ∈ entries, ∃ s, e.1 = Key.text s) :
    sortEntries entries = .ok (Sorting.sort (fun x y => keyLe x.1 y.1) entries) := by
  have : firstClash (entries.map Prod.fst) = none := by
    refine firstClash_text ?_
    intro k hk
    obtain ⟨e, he, rfl⟩ := List.mem_map.1 hk
    exact h e he
  simp [sortEntries, this]

end Json

end Rollout
