import Rollout.Text.Calendar
import Rollout.Value

/-!
# The values of plain scalars

A plain scalar stands for a truth value, a number, nothing, a day or a moment, or a mark of
mappings, if its text has the form of one, and for its text otherwise. An explicit tag asks for one
of these. By the rules of version 1.1 there are more words for truth values, a leading zero stands
for the base eight, and numbers may be written with digits of base sixty.

**Types.** `Tag`.

**Operations.** `Tag.ofPlain`, `Tag.ofName`, `Tag.value?`.
-/

namespace Rollout.Yaml

/-- What a node stands for. -/
inductive Tag
  | null
  | bool
  | int
  | float
  /-- An integer by the rules of version 1.1. -/
  | oldInt
  /-- Another number by the rules of version 1.1. -/
  | oldFloat
  | timestamp
  | text
  /-- The mark of entries that are taken over from other mappings. -/
  | merge
  /-- The mark of a default value. -/
  | default_
  | sequence
  | mapping
  | unknown
  deriving DecidableEq, Inhabited

/-! ## Forms of numbers -/

/-- A text without its sign. -/
def unsigned : List Char → List Char
  | '-' :: rest => rest
  | '+' :: rest => rest
  | cs => cs

/-- Whether a text is not empty and holds only the given characters. -/
def consistsOf (p : Char → Bool) (cs : List Char) : Bool := !cs.isEmpty && cs.all p

def isOctal (c : Char) : Bool := '0' ≤ c && c ≤ '7'

def isHex (c : Char) : Bool := c.isDigit || ('a' ≤ c && c ≤ 'f') || ('A' ≤ c && c ≤ 'F')

/-- Whether a text without its sign has the form of an integer; low lines may stand in it. -/
def isInt (cs : List Char) : Bool :=
  match cs with
  | '0' :: 'b' :: rest => consistsOf (fun c => c == '0' || c == '1' || c == '_') rest
  | '0' :: 'o' :: rest => consistsOf (fun c => isOctal c || c == '_') rest
  | '0' :: 'x' :: rest => consistsOf (fun c => isHex c || c == '_') rest
  | cs => consistsOf (fun c => c.isDigit || c == '_') cs

/-- Whether a text has the form of digits of base sixty with colons between them. -/
def isSixties (cs : List Char) : Bool :=
  let digit (c : Char) : Bool := c.isDigit || c == '_'
  cs.head?.any Char.isDigit && go (cs.length + 1) (cs.dropWhile digit)
where
  /-- Whether digits of base sixty follow, each after a colon. -/
  go : Nat → List Char → Bool
    | 0, _ => false
    | fuel + 1, ':' :: rest =>
      let digits := rest.takeWhile Char.isDigit
      let small := match digits with
        | [_] => true
        | [d, _] => d ≤ '5'
        | _ => false
      let rest := rest.drop digits.length
      small && (rest.isEmpty || go fuel rest)
    | _, _ => false

/-- Whether a text without its sign has the form of an integer by the rules of version 1.1. -/
def isOldInt (cs : List Char) : Bool :=
  match cs with
  | '0' :: 'b' :: rest => consistsOf (fun c => c == '0' || c == '1' || c == '_') rest
  | '0' :: 'x' :: rest => consistsOf (fun c => isHex c || c == '_') rest
  | cs =>
    consistsOf (fun c => isOctal c || c == '_') cs ||
      (cs.head?.any (fun c => '1' ≤ c && c ≤ '9') &&
        (cs.all (fun c => c.isDigit || c == '_') || isSixties cs))

/-- Whether a text is an exponent; its sign may be left out if that is allowed. -/
def isExponent (signed : Bool) : List Char → Bool
  | e :: '+' :: rest | e :: '-' :: rest => (e == 'e' || e == 'E') && consistsOf Char.isDigit rest
  | e :: rest => (e == 'e' || e == 'E') && !signed && consistsOf Char.isDigit rest
  | [] => false

/-- Whether a text without its sign has the form of a decimal fraction. -/
def isDecimal (cs : List Char) : Bool :=
  let digit (c : Char) : Bool := c.isDigit || c == '_'
  match cs with
  | '.' :: rest =>
    let front := rest.takeWhile digit
    let after := rest.drop front.length
    !front.isEmpty && (after.isEmpty || isExponent true after)
  | c :: _ =>
    if !c.isDigit then false
    else
      let front := cs.takeWhile digit
      match cs.drop front.length with
      | '.' :: rest =>
        let after := rest.dropWhile digit
        after.isEmpty || isExponent false after
      | after => isExponent false after
  | [] => false

/-- Whether a text without its sign is a decimal fraction by the rules of version 1.1 alone. -/
def isOldDecimal (cs : List Char) : Bool :=
  let whole := cs.takeWhile (· ≠ '.')
  isSixties whole && cs.length != whole.length &&
    (cs.drop (whole.length + 1)).all fun c => c.isDigit || c == '_'

/-- Whether a text has the form of a number that is no integer. By the rules of version 1.1, a sign
may not stand directly before a point. -/
def isFloat (modern : Bool) (cs : List Char) : Bool :=
  let body := unsigned cs
  (isDecimal body && (modern || body.head? != some '.' || body == cs)) ||
    (!modern && isOldDecimal body) ||
    [".inf", ".Inf", ".INF"].contains (String.ofList body) ||
    [".nan", ".NaN", ".NAN"].contains (String.ofList cs)

/-! ## Days and moments -/

/-- A number with a least and a greatest number of digits, and what follows it. -/
def digits? (least most : Nat) (cs : List Char) : Option (Nat × List Char) :=
  let front := (cs.take most).takeWhile Char.isDigit
  if front.length < least then none
  else some (front.foldl (fun n d => n * 10 + (d.toNat - 48)) 0, cs.drop front.length)

/-- What follows a character. -/
def after? (c : Char) : List Char → Option (List Char)
  | d :: rest => if d = c then some rest else none
  | [] => none

/-- The fields of a day or moment. -/
structure Clock where
  date : Date
  /-- The time of day: hour, minute, second and the digits of the fraction. -/
  time : Option (Nat × Nat × Nat × List Char) := none
  /-- The seconds by which the time is ahead of universal time. -/
  ahead : Int := 0
  /-- Whether the zone has the sign of a time ahead of universal time. -/
  east : Bool := false
  deriving DecidableEq, Inhabited

/-- A time zone at the end of a moment: seconds ahead of universal time, and whether it has the sign
of such a zone. -/
def zone? (cs : List Char) : Option (Int × Bool) :=
  match cs.dropWhile fun c => c == ' ' || c == '\t' with
  | [] => if cs.isEmpty then some (0, false) else none
  | ['Z'] => some (0, false)
  | sign :: rest =>
    if sign = '+' ∨ sign = '-' then do
      let (hours, rest) ← digits? 1 2 rest
      let minutes ← match rest with
        | [] => some 0
        | rest => do
          let rest ← after? ':' rest
          let (minutes, rest) ← digits? 2 2 rest
          if rest.isEmpty then some minutes else none
      let seconds : Int := (hours * 3600 + minutes * 60 : Nat)
      return if sign = '-' then (-seconds, false) else (seconds, true)
    else none

/-- The fields of a text that has the form of a day or moment. Only in a moment may months and days
have one digit. -/
def clock? (cs : List Char) : Option Clock := do
  let (year, rest) ← digits? 4 4 cs
  let rest ← after? '-' rest
  let (month, monthRest) ← digits? 1 2 rest
  let dayStart ← after? '-' monthRest
  let (day, dayRest) ← digits? 1 2 dayStart
  let wide := rest.length - monthRest.length == 2 && dayStart.length - dayRest.length == 2
  match dayRest with
  | [] => if wide then some { date := ⟨year, month, day⟩ } else none
  | c :: more =>
    let more ←
      if c = 'T' ∨ c = 't' then some more
      else if c = ' ' ∨ c = '\t' then some (more.dropWhile fun c => c == ' ' || c == '\t')
      else none
    let (hour, rest) ← digits? 1 2 more
    let rest ← after? ':' rest
    let (minute, rest) ← digits? 2 2 rest
    let rest ← after? ':' rest
    let (second, rest) ← digits? 2 2 rest
    let (fraction, rest) := match rest with
      | '.' :: rest => (rest.takeWhile Char.isDigit, rest.dropWhile Char.isDigit)
      | rest => ([], rest)
    let (ahead, east) ← zone? rest
    return ⟨⟨year, month, day⟩, some (hour, minute, second, fraction), ahead, east⟩

/-- The microseconds of a fraction, rounded by its seventh digit. -/
def microseconds (fraction : List Char) : Nat :=
  let front := fraction.take 6
  let n := front.foldl (fun n d => n * 10 + (d.toNat - 48)) 0 * Nat.pow 10 (6 - front.length)
  match fraction.drop 6 with
  | d :: _ => if d.toNat - 48 > 4 then n + 1 else n
  | [] => n

/-- The day or moment with some fields, in universal time, if the calendar has it. A fraction that is
rounded up to a second makes the time a second later, or a second earlier in a zone that is ahead of
universal time. -/
def Clock.value? (c : Clock) : Option Value :=
  match c.time with
  | none => if c.date.valid then some (.date c.date) else none
  | some (hour, minute, second, fraction) =>
    let micro := microseconds fraction
    let carried := 999999 < micro
    let t : Timestamp := ⟨c.date, hour, minute, second, if carried then 0 else micro⟩
    if t.valid then
      let shift : Int := (if !carried then 0 else if c.east then -1 else 1) - c.ahead
      if shift = 0 then some (.timestamp t) else (t.shift shift).map .timestamp
    else none

/-! ## Tags -/

namespace Tag

/-- Whether a text is a word for a truth value. -/
def isBool (modern : Bool) (text : String) : Bool :=
  ["true", "True", "TRUE", "false", "False", "FALSE"].contains text ||
    (!modern && ["y", "Y", "yes", "Yes", "YES", "n", "N", "no", "No", "NO", "on", "On", "ON", "off",
      "Off", "OFF"].contains text)

/-- What a plain scalar stands for. -/
def ofPlain (modern : Bool) (text : String) : Tag :=
  let cs := text.toList
  if isBool modern text then .bool
  else if isFloat modern cs then (if modern then .float else .oldFloat)
  else if cs.head? != some '_' && (if modern then isInt else isOldInt) (unsigned cs) then
    (if modern then .int else .oldInt)
  else if text == "<<" then .merge
  else if ["~", "null", "Null", "NULL", ""].contains text then .null
  else if (clock? cs).isSome then .timestamp
  else if text == "=" then .default_
  else .text

/-- The text in front of the names of tags. -/
def leader : String := "tag:yaml.org,2002:"

def ofName (modern : Bool) (name : String) : Tag :=
  match (([("null", .null), ("bool", .bool), ("int", if modern then .int else .oldInt),
    ("float", if modern then .float else .oldFloat), ("timestamp", .timestamp), ("str", .text),
    ("merge", .merge), ("value", .default_), ("seq", .sequence), ("map", .mapping)] :
      List (String × Tag)).find? fun e => leader ++ e.1 == name) with
  | some (_, tag) => tag
  | none => .unknown

/-- The value of digits in a base. -/
def digitsIn (base : Nat) (digits : List Char) : Option Nat :=
  digits.foldl (fun n d => do
    let n ← n
    let v ← if d.isDigit then some (d.toNat - 48)
      else if 'a' ≤ d ∧ d ≤ 'f' then some (d.toNat - 87)
      else if 'A' ≤ d ∧ d ≤ 'F' then some (d.toNat - 55) else none
    if v < base then some (n * base + v) else none) (if digits.isEmpty then none else some 0)

/-- The most digits that a decimal integer may have. -/
def digitLimit : Nat := 4300

/-- The value of decimal digits. -/
def decimalDigits (digits : List Char) : Option Nat :=
  if digitLimit < digits.length then none else digitsIn 10 digits

/-- The value of groups of decimal digits that are digits of base sixty. -/
def sixties (groups : List (List Char)) : Option Nat :=
  groups.foldl (fun n g => do return (← n) * 60 + (← decimalDigits g)) (some 0)

/-- The integer that a text stands for. -/
def intValue? (modern : Bool) (cs : List Char) : Option Int :=
  let cs := cs.filter (· ≠ '_')
  let negative := cs.head? == some '-'
  let magnitude : Option Nat :=
    match unsigned cs with
    | ['0'] => some 0
    | '0' :: 'b' :: rest => digitsIn 2 rest
    | '0' :: 'x' :: rest => digitsIn 16 rest
    | '0' :: 'o' :: rest => digitsIn 8 rest
    | rest =>
      if modern then decimalDigits rest
      else if rest.head? == some '0' then digitsIn 8 rest
      else sixties (rest.splitOn ':')
  magnitude.map fun n => if negative then -(n : Int) else n

/-- The number that a text stands for. Before a decimal fraction there may be digits of base sixty
with colons between them. -/
def floatValue? (modern : Bool) (cs : List Char) : Option Binary64 :=
  let cs := (cs.filter (· ≠ '_')).map Char.toLower
  let negative := cs.head? == some '-'
  let body := unsigned cs
  match String.ofList body with
  | ".inf" | "inf" | "infinity" => some (Binary64.infinity negative)
  | ".nan" | "nan" => some Binary64.nan
  | _ =>
    let groups := if modern then [body] else body.splitOn ':'
    let body := groups.getLast?.getD []
    let whole := body.takeWhile Char.isDigit
    let rest := body.drop whole.length
    let (fraction, rest) := match rest with
      | '.' :: rest => (rest.takeWhile Char.isDigit, rest.dropWhile Char.isDigit)
      | rest => ([], rest)
    if whole.isEmpty && fraction.isEmpty then none
    else
      let exponent? : Option Int := match rest with
        | [] => some 0
        | 'e' :: rest =>
          (digitsIn 10 (unsigned rest)).map fun n =>
            if rest.head? == some '-' then -(n : Int) else n
        | _ => none
      match exponent?, sixties groups.dropLast with
      | some e, some front =>
        some (Binary64.ofDecimal negative
          (front * 60 * Nat.pow 10 fraction.length + (digitsIn 10 (whole ++ fraction)).getD 0)
          (e - fraction.length))
      | _, _ => none

def value? (tag : Tag) (text : String) : Option Value :=
  match tag with
  | .null => some .null
  | .text => some (.text text)
  | .bool =>
    let word := text.toLower
    if ["true", "yes", "y", "on"].contains word then some (.bool true)
    else if ["false", "no", "n", "off"].contains word then some (.bool false)
    else none
  | .int => (intValue? true text.toList).map .int
  | .oldInt => (intValue? false text.toList).map .int
  | .float => (floatValue? true text.toList).map .float
  | .oldFloat => (floatValue? false text.toList).map .float
  | .timestamp => (clock? text.toList).bind Clock.value?
  | _ => none

end Tag

end Rollout.Yaml
