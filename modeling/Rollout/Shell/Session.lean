import Rollout.Files.Tree
import Rollout.Text.Encoding
import Rollout.Shell.Script

/-!
# Shell sessions

What commands see and change: files, the current directory, variables, the status of the latest
command. Time spent asleep is counted, and a session may have been ended by a command or a signal.

**Types.** `Session`, `Piece`.

**Operations.** `expand`: the fields that a word stands for.
-/

namespace Rollout.Shell

/-- Bytes that commands read and write. -/
abbrev Bytes := List UInt8

def bytesOf (s : String) : Bytes := s.toUTF8.toList

/-- The text of bytes; a byte that is no text is taken for the character of its number. -/
def textOf (bs : Bytes) : String :=
  match String.fromUTF8? ⟨bs.toArray⟩ with
  | some s => s
  | none => String.ofList (bs.map fun b => Char.ofNat b.toNat)

/-- What commands see and change. -/
structure Session where
  files : Files
  folder : FilePath
  environment : Table String String
  /-- The name of the session and its arguments. -/
  arguments : List String := ["sh"]
  status : Int := 0
  /-- The seconds spent asleep. -/
  slept : Rat := 0
  /-- The exit code with which the session has ended. -/
  ended : Option Int := none
  /-- Whether a command that fails ends the session. -/
  strict : Bool := false
  deriving Inhabited

/-- The number under which a session knows itself. -/
def processNumber : String := "4242"

namespace Session

/-- The path that a word stands for. -/
def path (s : Session) (word : String) : FilePath := s.folder.join (FilePath.ofText word)

/-- The value of a variable or a special parameter. -/
def valueOf? (s : Session) (name : String) : Option String :=
  match name with
  | "?" => some (toString s.status)
  | "$" => some processNumber
  | "#" => some (toString (s.arguments.length - 1))
  | "@" | "*" => some (" ".intercalate (s.arguments.drop 1))
  | _ =>
    match name.toNat? with
    | some n => s.arguments[n]?
    | none => Table.get? name s.environment

end Session

/-- A piece of an expanded word. -/
inductive Piece
  /-- Text that stays in one field. -/
  | kept (text : List Char)
  /-- Text that is split at its blanks. -/
  | split (text : List Char)
  deriving Inhabited

/-- Whether a character may stand in the name of a variable. -/
def isNameChar (c : Char) : Bool := c.isAlphanum || c == '_'

/-- The mark around a script whose output is inserted. -/
def backquote : Char := Char.ofNat 96

/-- The name of a parameter in front of characters, and what follows it. -/
def parameterName (cs : List Char) : List Char × List Char :=
  match cs with
  | c :: rest =>
    if "?$#@*".toList.contains c || c.isDigit then ([c], rest)
    else (cs.takeWhile isNameChar, cs.dropWhile isNameChar)
  | [] => ([], [])

/-- The text of a list of pieces. -/
def joinPieces (ps : List Piece) : List Char :=
  ps.flatMap fun
    | .kept t => t
    | .split t => t

/-- The pieces of a word, or of a quoted part of one. `substitute` gives the output of a script. -/
def pieces (s : Session) (substitute : List Char → List Char) :
    Nat → Bool → List Char → List Piece
  | 0, _, _ => []
  | _, _, [] => []
  | fuel + 1, quoted, c :: rest =>
    let go := pieces s substitute fuel
    let value (text : List Char) : Piece := if quoted then .kept text else .split text
    if c = '\'' ∧ !quoted then
      let body := rest.takeWhile (· ≠ '\'')
      .kept body :: go false (rest.drop (body.length + 1))
    else if c = '"' then .kept [] :: go (!quoted) rest
    else if c = '\\' then
      match rest with
      | d :: rest =>
        if d = '\n' then go quoted rest
        else if quoted ∧ !(backquote :: "$\"\\".toList).contains d then .kept ['\\', d] :: go quoted rest
        else .kept [d] :: go quoted rest
      | [] => [.kept ['\\']]
    else if c = '$' then
      match rest with
      | '(' :: rest =>
        match closing '(' ')' (rest.length + 1) 0 rest with
        | some (body, rest) => value (substitute body) :: go quoted rest
        | none => []
      | '\x7b' :: rest =>
        match closing '\x7b' '\x7d' (rest.length + 1) 0 rest with
        | none => []
        | some (body, rest) =>
          let (name, change) := parameterName body
          let found := s.valueOf? (String.ofList name)
          let present := match found with | some v => v != "" | none => false
          let text : List Char :=
            match change with
            | [] => (found.getD "").toList
            | ':' :: '-' :: word | ':' :: '=' :: word =>
              if present then (found.getD "").toList else joinPieces (go quoted word)
            | '-' :: word | '=' :: word =>
              match found with | some v => v.toList | none => joinPieces (go quoted word)
            | ':' :: '+' :: word => if present then joinPieces (go quoted word) else []
            | '+' :: word => if found.isSome then joinPieces (go quoted word) else []
            | _ =>
              match body with
              | '#' :: name =>
                (toString ((s.valueOf? (String.ofList name)).getD "").length).toList
              | _ => (found.getD "").toList
          value text :: go quoted rest
      | _ =>
        match parameterName rest with
        | ([], _) => .kept ['$'] :: go quoted rest
        | (name, rest) => value ((s.valueOf? (String.ofList name)).getD "").toList :: go quoted rest
    else if c = backquote then
      let body := rest.takeWhile (· ≠ backquote)
      value (substitute body) :: go quoted (rest.drop (body.length + 1))
    else .kept [c] :: go quoted rest

/-- Put pieces together to fields: the field in work, if there is one, and the fields after it. -/
def fieldsOf (current : Option (List Char)) : List Piece → List (List Char)
  | [] => current.toList
  | .kept t :: rest => fieldsOf (some (current.getD [] ++ t)) rest
  | .split t :: rest =>
    let blank (c : Char) : Bool := c == ' ' || c == '\t' || c == '\n'
    let words := ((t.splitOnP blank).filter fun w => !w.isEmpty)
    match words with
    | [] =>
      if t.isEmpty then fieldsOf current rest
      else current.toList ++ fieldsOf none rest
    | first :: others =>
      let starts := (t.head?.map blank).getD false
      let ends := (t.getLast?.map blank).getD false
      let before := if starts then current.toList else []
      let first := if starts then first else current.getD [] ++ first
      let all := first :: others
      if ends then before ++ all ++ fieldsOf none rest
      else before ++ all.dropLast ++ fieldsOf all.getLast? rest

/-- The fields that a word stands for. -/
def expand (s : Session) (substitute : List Char → List Char) (raw : List Char) : List String :=
  (fieldsOf none (pieces s substitute (raw.length + 1) false raw)).map String.ofList

/-- The text that a word stands for, without splitting. -/
def expandText (s : Session) (substitute : List Char → List Char) (raw : List Char) : String :=
  String.ofList (joinPieces (pieces s substitute (raw.length + 1) false raw))

end Rollout.Shell
