import Rollout.Json.Writer
import Rollout.Text.Printable

/-!
# Literals

Values and keys the way messages show them.

**Operations.**
* `quote`: a text in single quotes, or in double quotes when it holds a single quote and no double
  one; hidden characters are escaped;
* `Value.literal`, `Key.literal`: a value as a literal, texts in quotes;
* `Key.display`: a key as plain text.
-/

namespace Rollout

namespace Text

/-- Digits of base sixteen, filled up with zeros. -/
def hexText (width n : Nat) : List Char :=
  let digits := Nat.toDigits 16 n
  List.replicate (width - digits.length) '0' ++ digits

/-- A character of a quoted text. -/
def literalChar (mark c : Char) : List Char :=
  if c = mark ∨ c = '\\' then ['\\', c]
  else if c = '\n' then ['\\', 'n']
  else if c = '\r' then ['\\', 'r']
  else if c = '\t' then ['\\', 't']
  else if isPrintable c then [c]
  else if c.toNat < 0x100 then '\\' :: 'x' :: hexText 2 c.toNat
  else if c.toNat < 0x10000 then '\\' :: 'u' :: hexText 4 c.toNat
  else '\\' :: 'U' :: hexText 8 c.toNat

def quote (s : String) : String :=
  let cs := s.toList
  let mark := if cs.contains '\'' && !cs.contains '"' then '"' else '\''
  String.ofList (mark :: cs.flatMap (literalChar mark) ++ [mark])

end Text

/-- A day as a literal. -/
def Date.literal (d : Date) : String :=
  "datetime.date(" ++ toString d.year ++ ", " ++ toString d.month ++ ", " ++ toString d.day ++ ")"

/-- A moment as a literal; seconds and microseconds are left out when they are zero. -/
def Timestamp.literal (t : Timestamp) : String :=
  let fields := [t.date.year, t.date.month, t.date.day, t.hour, t.minute] ++
    (if t.microsecond ≠ 0 then [t.second, t.microsecond]
     else if t.second ≠ 0 then [t.second] else [])
  "datetime.datetime(" ++ ", ".intercalate (fields.map toString) ++ ")"

/-- A truth value as a literal. -/
def boolLiteral (b : Bool) : String := if b then "True" else "False"

/-- The items of a tuple between brackets; a lone item is followed by a comma. -/
def tupleText : List String → String
  | [item] => "(" ++ item ++ ",)"
  | items => "(" ++ ", ".intercalate items ++ ")"

namespace Key

mutual

def literal : Key → String
  | .null => "None"
  | .bool b => boolLiteral b
  | .int i => toString i
  | .float x => x.text
  | .text s => Text.quote s
  | .date d => d.literal
  | .timestamp t => t.literal
  | .tuple items => tupleText (literals items)

/-- The keys of a tuple as literals. -/
def literals : List Key → List String
  | [] => []
  | k :: rest => literal k :: literals rest

end

/-- A key as plain text. -/
def display : Key → String
  | .text s => s
  | .date d => d.text
  | .timestamp t => t.text " "
  | k => k.literal

end Key

namespace Value

mutual

def literal : Value → String
  | .null => "None"
  | .bool b => boolLiteral b
  | .int i => toString i
  | .float x => x.text
  | .text s => Text.quote s
  | .date d => d.literal
  | .timestamp t => t.literal
  | .list items => "[" ++ ", ".intercalate (literals items) ++ "]"
  | .map entries => "\x7b" ++ ", ".intercalate (entryLiterals entries) ++ "\x7d"

/-- The items of a list as literals. -/
def literals : List Value → List String
  | [] => []
  | v :: rest => literal v :: literals rest

def entryLiterals : List (Key × Value) → List String
  | [] => []
  | (k, v) :: rest => (k.literal ++ ": " ++ literal v) :: entryLiterals rest

end

/-- The name of a kind of value, as messages use it. -/
def kindName : Value → String
  | .null => "NoneType"
  | .bool _ => "bool"
  | .int _ => "int"
  | .float _ => "float"
  | .text _ => "str"
  | .date _ => "date"
  | .timestamp _ => "datetime"
  | .list _ => "list"
  | .map _ => "dict"

end Value

end Rollout
