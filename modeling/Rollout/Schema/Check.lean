import Rollout.Reference.Basic

/-!
# Checked reading of documents

A reader turns a document value into a typed one or reports issues. Readers of the parts of a value
are combined so that the issues of all parts come together, in the order of the parts.

**Types.** `Issue` (a location and a complaint) and `Check`.

**Operations.**
* readers of single values: `Check.text`, `Check.int`, `Check.bool`, `Check.list`, `Check.dict`,
  `Check.optional`;
* readers of records: `Check.record`, `Check.field`, `Check.required`, `Check.unknownKeys`.

**Results.** `Check.issues_seq`: a combination has exactly the issues of its two parts, in order.
-/

namespace Rollout

/-- What is wrong with a part of a document. -/
inductive Complaint
  | missing
  | notText
  | notList
  | notMapping
  | notRecord (recordName : String)
  | unknownKey
  | keyNotText
  | notInt
  | intText
  | intFraction
  | intSize
  | notFinite
  | notBool
  | boolWord
  | notKind
  /-- A rule about the document as a whole. -/
  | rule (text : String)
  deriving DecidableEq, Inhabited

namespace Complaint

/-- The short name of the complaint. -/
def code : Complaint → String
  | .missing => "missing"
  | .notText => "string_type"
  | .notList => "list_type"
  | .notMapping => "dict_type"
  | .notRecord _ => "model_type"
  | .unknownKey => "extra_forbidden"
  | .keyNotText => "invalid_key"
  | .notInt => "int_type"
  | .intText => "int_parsing"
  | .intFraction => "int_from_float"
  | .intSize => "int_parsing_size"
  | .notFinite => "finite_number"
  | .notBool => "bool_type"
  | .boolWord => "bool_parsing"
  | .notKind => "enum"
  | .rule _ => "value_error"

def message : Complaint → String
  | .missing => "Field required"
  | .notText => "Input should be a valid string"
  | .notList => "Input should be a valid list"
  | .notMapping => "Input should be a valid dictionary"
  | .notRecord name => "Input should be a valid dictionary or instance of " ++ name
  | .unknownKey => "Extra inputs are not permitted"
  | .keyNotText => "Keys should be strings"
  | .notInt => "Input should be a valid integer"
  | .intText => "Input should be a valid integer, unable to parse string as an integer"
  | .intFraction => "Input should be a valid integer, got a number with a fractional part"
  | .intSize => "Unable to parse input string as an integer, exceeded maximum size"
  | .notFinite => "Input should be a finite number"
  | .notBool => "Input should be a valid boolean"
  | .boolWord => "Input should be a valid boolean, unable to interpret input"
  | .notKind => "Input should be 'service' or 'project'"
  | .rule text => "Value error, " ++ text

end Complaint

/-- A complaint about the part of a document at a location. -/
structure Issue where
  location : Path
  complaint : Complaint
  deriving DecidableEq, Inhabited

/-- The outcome of reading: a value, or the issues found. -/
inductive Check (α : Type)
  | ok (value : α)
  | bad (issues : List Issue)

namespace Check

variable {α β : Type}

/-- Change a value that was read. -/
def map (f : α → β) : Check α → Check β
  | .ok a => .ok (f a)
  | .bad issues => .bad issues

/-- Read two parts; the issues of both are kept. -/
def seq (f : Check (α → β)) (a : Check α) : Check β :=
  match f, a with
  | .ok f, .ok a => .ok (f a)
  | .ok _, .bad issues => .bad issues
  | .bad issues, .ok _ => .bad issues
  | .bad first, .bad second => .bad (first ++ second)

instance : Functor Check where
  map := map

instance : Applicative Check where
  pure := .ok
  seq f a := seq f (a ())

/-- The issues found. -/
def issues : Check α → List Issue
  | .ok _ => []
  | .bad issues => issues

/-- A single complaint about the value itself. -/
def fail (complaint : Complaint) : Check α := .bad [⟨[], complaint⟩]

/-- The way a key is shown in a location: truth values count as integers, other keys that are
neither texts nor integers are shown as literals. -/
def locationKey : Key → Key
  | .text s => .text s
  | .int i => .int i
  | .bool b => .int (if b then 1 else 0)
  | k => .text k.literal

/-- The issues of a part, located within the whole. -/
def inside (key : Key) : Check α → Check α
  | .ok a => .ok a
  | .bad issues => .bad (issues.map fun i => { i with location := locationKey key :: i.location })

/-- Further issues make a value unusable. -/
def withIssues (c : Check α) (more : List Issue) : Check α :=
  match c, more with
  | c, [] => c
  | .ok _, more => .bad more
  | .bad issues, more => .bad (issues ++ more)

/-- Read on once a value is there. -/
def andThen (c : Check α) (f : α → Check β) : Check β :=
  match c with
  | .ok a => f a
  | .bad issues => .bad issues

/-- Every check of a list, in order. -/
def all : List (Check α) → Check (List α)
  | [] => .ok []
  | c :: rest => seq (map List.cons c) (all rest)

def text : Value → Check String
  | .text s => .ok s
  | _ => fail .notText

/-- Digits without the zeros in front of them and the low lines among these, given the character
before them. The character before a point or the end is kept. -/
def dropZeros (before : Char) : List Char → Option (List Char)
  | [] => some [before]
  | c :: rest =>
    if c = '0' ∨ c = '_' then dropZeros c rest
    else if '1' ≤ c ∧ c ≤ '9' then some (c :: rest)
    else if c = '.' then some (before :: c :: rest)
    else none

/-- The text of an integer after a plus sign, without zeros in front of its digits. After a minus sign
zeros are left as they are. -/
def trimInt : List Char → Option (List Char)
  | '0' :: rest => dropZeros '0' rest
  | c :: rest => if c = '-' ∨ ('1' ≤ c ∧ c ≤ '9') then some (c :: rest) else none
  | [] => none

/-- A text without a fraction of zeros at its end. -/
def dropFraction (cs : List Char) : List Char :=
  let whole := cs.takeWhile (· != '.')
  if (cs.drop (whole.length + 1)).all (· == '0') then whole else cs

/-- Whether two low lines follow each other. -/
def hasDoubleLine : List Char → Bool
  | '_' :: '_' :: _ => true
  | _ :: rest => hasDoubleLine rest
  | [] => false

/-- A text without its low lines, if these stand alone between other characters. -/
def dropLines (cs : List Char) : List Char :=
  if cs.head? == some '_' || cs.getLast? == some '_' || hasDoubleLine cs then cs
  else cs.filter (· != '_')

/-- The most digits that the text of an integer may have. -/
def intDigitLimit : Nat := 4300

/-- The integer that a text reads as: blanks around it, a sign, zeros in front of it, single low lines
between digits and a fraction of zeros are allowed. -/
def intOfText (s : String) : Check Int :=
  let cs := match Text.strip s.toList with
    | '+' :: '-' :: _ => none
    | '+' :: rest => trimInt rest
    | cs => trimInt cs
  match cs.map fun cs => dropLines (dropFraction cs) with
  | none => fail .intText
  | some cs =>
    let negative := cs.head? == some '-'
    let digits := if negative then cs.drop 1 else cs
    if digits.isEmpty || !digits.all Char.isDigit || (digits.head? == some '0' && digits != ['0'])
    then fail .intText
    else if intDigitLimit < digits.length then fail .intSize
    else
      let n : Int := (digits.foldl (fun n d => n * 10 + (d.toNat - '0'.toNat)) 0 : Nat)
      .ok (if negative then -n else n)

/-- The integers that a number with a point may stand for, signs aside. -/
def wholeLimit : Nat := Nat.pow 2 63

/-- The integer that a number without a fraction stands for. -/
def wholeInt (i : Int) : Check Int := if i.natAbs < wholeLimit then .ok i else fail .intSize

/-- An integer; truth values, whole numbers and texts of integers are taken too. -/
def int : Value → Check Int
  | .int i => .ok i
  | .bool b => .ok (if b then 1 else 0)
  | .float x =>
    match x.reading with
    | .finite .. =>
      match x.toInt? with
      | some i => wholeInt i
      | none => fail .intFraction
    | _ => fail .notFinite
  | .text s => intOfText s
  | _ => fail .notInt

/-- The texts that are read as true. -/
def trueWords : List String := ["1", "t", "true", "y", "yes", "on"]

/-- The texts that are read as false. -/
def falseWords : List String := ["0", "f", "false", "n", "no", "off"]

/-- The truth value that an integer stands for. -/
def boolOfInt (i : Int) : Check Bool :=
  if i = 0 then .ok false else if i = 1 then .ok true else fail .boolWord

/-- A truth value; the numbers 0 and 1 and some words in any letter case are taken too. -/
def bool : Value → Check Bool
  | .bool b => .ok b
  | .int i => boolOfInt i
  | .float x =>
    match x.toInt?.map wholeInt with
    | some (.ok i) => boolOfInt i
    | _ => fail .notBool
  | .text s =>
    let word := String.ofList (s.toList.map Char.toLower)
    if trueWords.contains word then .ok true
    else if falseWords.contains word then .ok false
    else fail .boolWord
  | _ => fail .notBool

/-- The items of a list, each read on its own and located by its position. -/
def items (item : Value → Check α) (position : Nat) : List Value → Check (List α)
  | [] => .ok []
  | v :: rest => seq (map List.cons (inside (.int position) (item v))) (items item (position + 1) rest)

def list (item : Value → Check α) : Value → Check (List α)
  | .list vs => items item 0 vs
  | _ => fail .notList

/-- The key of an entry, which must be a text. -/
def entryKey : Key → Check String
  | .text s => .ok s
  | k => inside k (inside "[key]" (fail .notText))

/-- The entries of a mapping, each read on its own and located by its key. -/
def entries (value : Value → Check α) : List (Key × Value) → Check (Table String α)
  | [] => .ok []
  | (k, v) :: rest =>
    seq (seq (map (fun k v rest => (k, v) :: rest) (entryKey k)) (inside k (value v)))
      (entries value rest)

/-- A mapping with text keys. -/
def dict (value : Value → Check α) : Value → Check (Table String α)
  | .map es => entries value es
  | _ => fail .notMapping

def any : Value → Check Value := .ok

/-- Null or a value. -/
def optional (read : Value → Check α) : Value → Check (Option α)
  | .null => .ok none
  | v => map some (read v)

/-- The first of some names under which a record has an entry, with the value. -/
def present? (names : List String) (record : Entries) : Option (String × Value) :=
  names.findSome? fun (name : String) => (Entries.get? name record).map fun v => (name, v)

/-- A field that must be there, under the first of its names that is present. -/
def required (names : List String) (read : Value → Check α) (record : Entries) : Check α :=
  match present? names record with
  | some (name, v) => inside name (read v)
  | none => inside (names.headD "") (fail .missing)

/-- A field with a value for the case that it is missing. -/
def field (names : List String) (missing : α) (read : Value → Check α) (record : Entries) :
    Check α :=
  match present? names record with
  | some (name, v) => inside name (read v)
  | none => .ok missing

/-- The issues of the entries that are no field: a field takes one entry only. -/
def unknownKeys (fields : List (List String)) (record : Entries) : List Issue :=
  let used := fields.filterMap fun names => (present? names record).map Prod.fst
  record.filterMap fun (k, _) =>
    match k with
    | .text s => if used.contains s then none else some ⟨[.text s], .unknownKey⟩
    | k => some ⟨[locationKey k], .keyNotText⟩

/-- A record of the given name. -/
def record (name : String) (read : Entries → Check α) : Value → Check α
  | .map es => read es
  | _ => fail (.notRecord name)

theorem issues_seq (f : Check (α → β)) (a : Check α) :
    (seq f a).issues = f.issues ++ a.issues := by
  cases f <;> cases a <;> simp [seq, issues]

end Check

end Rollout
