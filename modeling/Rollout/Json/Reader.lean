import Rollout.Json.Writer

/-!
# Reading JSON text

A reader for one JSON value, with nothing but blanks around it. Entries keep the order of the text;
a repeated key keeps its first place and its last value. The names `NaN`, `Infinity` and
`-Infinity` are numbers.

**Algorithm.** Recursive descent over a list of characters. Every nested value consumes a
character, so the length of the text bounds the depth of the recursion.

**Failures.** `malformed`: the text is no JSON value. `tooDeep`: brackets are nested deeper than
`depthLimit`. `tooLong`: an integer has more than `digitLimit` digits.
-/

namespace Rollout.Json

/-- Why a text cannot be read. -/
inductive ReadError
  | malformed
  | tooDeep
  | tooLong (digits : Nat)
  deriving DecidableEq, Inhabited

/-- The number of decimal digits that an integer may have. -/
def digitLimit : Nat := 4300

/-- The number of brackets that may be open at the same time. -/
def depthLimit : Nat := 990

/-- A blank between tokens. -/
def isBlank (c : Char) : Bool :=
  c == ' ' || c == '\t' || c == '\n' || c == '\r'

/-- The text after its leading blanks. -/
def skipBlanks (cs : List Char) : List Char := cs.dropWhile isBlank

/-- The value of a digit of base sixteen. -/
def hexValue? (c : Char) : Option Nat :=
  if '0' ≤ c ∧ c ≤ '9' then some (c.toNat - '0'.toNat)
  else if 'a' ≤ c ∧ c ≤ 'f' then some (c.toNat - 'a'.toNat + 10)
  else if 'A' ≤ c ∧ c ≤ 'F' then some (c.toNat - 'A'.toNat + 10)
  else none

/-- Four digits of base sixteen, and the rest. -/
def hexUnit? : List Char → Option (Nat × List Char)
  | a :: b :: c :: d :: rest => do
    let a ← hexValue? a
    let b ← hexValue? b
    let c ← hexValue? c
    let d ← hexValue? d
    return (((a * 16 + b) * 16 + c) * 16 + d, rest)
  | _ => none

/-- The character of an escaped 16-bit unit: a high surrogate joins a low one that follows it, and
a lone surrogate is replaced. -/
def unitChar (unit : Nat) (rest : List Char) : Char × List Char :=
  if 0xD800 ≤ unit ∧ unit < 0xDC00 then
    match rest with
    | '\\' :: 'u' :: more =>
      match hexUnit? more with
      | some (low, after) =>
        if 0xDC00 ≤ low ∧ low < 0xE000 then
          (Char.ofNat (0x10000 + (unit - 0xD800) * 0x400 + (low - 0xDC00)), after)
        else ('\uFFFD', rest)
      | none => ('\uFFFD', rest)
    | _ => ('\uFFFD', rest)
  else if 0xDC00 ≤ unit ∧ unit < 0xE000 then ('\uFFFD', rest)
  else (Char.ofNat unit, rest)

/-- The characters up to the closing quote, and the rest. -/
def readQuoted : Nat → List Char → List Char → Option (List Char × List Char)
  | 0, _, _ => none
  | fuel + 1, done, cs =>
    match cs with
    | [] => none
    | '"' :: rest => some (done.reverse, rest)
    | '\\' :: '"' :: rest => readQuoted fuel ('"' :: done) rest
    | '\\' :: '\\' :: rest => readQuoted fuel ('\\' :: done) rest
    | '\\' :: '/' :: rest => readQuoted fuel ('/' :: done) rest
    | '\\' :: 'b' :: rest => readQuoted fuel ('\x08' :: done) rest
    | '\\' :: 'f' :: rest => readQuoted fuel ('\x0c' :: done) rest
    | '\\' :: 'n' :: rest => readQuoted fuel ('\n' :: done) rest
    | '\\' :: 'r' :: rest => readQuoted fuel ('\r' :: done) rest
    | '\\' :: 't' :: rest => readQuoted fuel ('\t' :: done) rest
    | '\\' :: 'u' :: rest =>
      match hexUnit? rest with
      | none => none
      | some (unit, after) =>
        let (c, after) := unitChar unit after
        readQuoted fuel (c :: done) after
    | '\\' :: _ => none
    | c :: rest => if c.toNat < 0x20 then none else readQuoted fuel (c :: done) rest

/-- A quoted text without its opening quote. -/
def readText (cs : List Char) : Except ReadError (String × List Char) :=
  match readQuoted (cs.length + 1) [] cs with
  | some (text, rest) => .ok (String.ofList text, rest)
  | none => .error .malformed

/-- The value of decimal digits. -/
def digitsValue (digits : List Char) : Nat :=
  digits.foldl (fun n d => n * 10 + (d.toNat - '0'.toNat)) 0

/-- The digits of a fraction, if a point with a digit after it comes next. -/
def readFraction : List Char → Option (List Char × List Char)
  | '.' :: rest =>
    match rest.takeWhile Char.isDigit with
    | [] => none
    | digits => some (digits, rest.dropWhile Char.isDigit)
  | _ => none

/-- An exponent, if one comes next. -/
def readExponent : List Char → Option (Int × List Char)
  | 'e' :: rest | 'E' :: rest =>
    let (negative, unsigned) : Bool × List Char :=
      match rest with
      | '-' :: more => (true, more)
      | '+' :: more => (false, more)
      | _ => (false, rest)
    match unsigned.takeWhile Char.isDigit with
    | [] => none
    | digits =>
      let n : Int := digitsValue digits
      some (if negative then -n else n, unsigned.dropWhile Char.isDigit)
  | _ => none

/-- A number without its sign. -/
def readNumber (negative : Bool) (cs : List Char) : Except ReadError (Value × List Char) :=
  let whole := cs.takeWhile Char.isDigit
  let whole := if whole.head? = some '0' then ['0'] else whole
  let rest := cs.drop whole.length
  if whole = [] then .error .malformed
  else
    let (fraction, rest') : List Char × List Char := (readFraction rest).getD ([], rest)
    let exponent := readExponent rest'
    if fraction = [] ∧ exponent = none then
      if digitLimit < whole.length then .error (.tooLong whole.length)
      else
        let n : Int := digitsValue whole
        .ok (.int (if negative then -n else n), rest)
    else
      let (e, rest'') : Int × List Char := exponent.getD (0, rest')
      let digits := digitsValue (whole ++ fraction)
      .ok (.float (Binary64.ofDecimal negative digits (e - fraction.length)), rest'')

/-- The rest after a name, if the text starts with it. -/
def afterName? (name : String) (cs : List Char) : Option (List Char) :=
  if name.toList.isPrefixOf cs then some (cs.drop name.length) else none

/-- A value that is no text, list or mapping. -/
def readScalar (cs : List Char) : Except ReadError (Value × List Char) :=
  match afterName? "null" cs with
  | some rest => .ok (.null, rest)
  | none =>
  match afterName? "true" cs with
  | some rest => .ok (.bool true, rest)
  | none =>
  match afterName? "false" cs with
  | some rest => .ok (.bool false, rest)
  | none =>
  match afterName? "NaN" cs with
  | some rest => .ok (.float .nan, rest)
  | none =>
  match afterName? "Infinity" cs with
  | some rest => .ok (.float (.infinity false), rest)
  | none =>
  match afterName? "-Infinity" cs with
  | some rest => .ok (.float (.infinity true), rest)
  | none =>
  match cs with
  | '-' :: rest => readNumber true rest
  | _ => readNumber false cs

mutual

/-- A value, without blanks in front; `depth` brackets are open around it. -/
def readValue : Nat → Nat → List Char → Except ReadError (Value × List Char)
  | 0, _, _ => .error .malformed
  | fuel + 1, depth, cs =>
    match cs with
    | '"' :: rest => do
      let (text, rest) ← readText rest
      return (.text text, rest)
    | '[' :: rest =>
      if depthLimit ≤ depth then .error .tooDeep
      else
        match skipBlanks rest with
        | ']' :: rest => .ok (.list [], rest)
        | rest => do
          let (items, rest) ← readItems fuel (depth + 1) rest
          return (.list items, rest)
    | '{' :: rest =>
      if depthLimit ≤ depth then .error .tooDeep
      else
        match skipBlanks rest with
        | '}' :: rest => .ok (.map [], rest)
        | rest => do
          let (entries, rest) ← readEntries fuel (depth + 1) [] rest
          return (.map entries, rest)
    | _ => readScalar cs

/-- The items of a list up to its closing bracket; the first item comes next. -/
def readItems : Nat → Nat → List Char → Except ReadError (List Value × List Char)
  | 0, _, _ => .error .malformed
  | fuel + 1, depth, cs => do
    let (first, rest) ← readValue fuel depth cs
    match skipBlanks rest with
    | ']' :: rest => return ([first], rest)
    | ',' :: rest => do
      let (others, rest) ← readItems fuel depth (skipBlanks rest)
      return (first :: others, rest)
    | _ => .error .malformed

/-- The entries of a mapping up to its closing bracket, added to those read before. -/
def readEntries : Nat → Nat → Entries → List Char → Except ReadError (Entries × List Char)
  | 0, _, _, _ => .error .malformed
  | fuel + 1, depth, done, cs =>
    match cs with
    | '"' :: rest => do
      let (key, rest) ← readText rest
      match skipBlanks rest with
      | ':' :: rest => do
        let (value, rest) ← readValue fuel depth (skipBlanks rest)
        let done := Entries.set key value done
        match skipBlanks rest with
        | '}' :: rest => return (done, rest)
        | ',' :: rest => readEntries fuel depth done (skipBlanks rest)
        | _ => .error .malformed
      | _ => .error .malformed
    | _ => .error .malformed

end

/-- The value that a whole text stands for. -/
def read (text : String) : Except ReadError Value := do
  let cs := skipBlanks text.toList
  let (value, rest) ← readValue (cs.length + 1) 0 cs
  if (skipBlanks rest).isEmpty then return value else .error .malformed

end Rollout.Json
