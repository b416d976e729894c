import Rollout.Command.Stage
import Rollout.Files.FilePath
import Rollout.Text.WordChar
import Rollout.Value.Parts

/-!
# Arguments

The words after the name of the program: a command, options with and without a value, and the paths
of a redeployment. Options and paths may stand in any order; after two dashes every word is a path.
An option that is given twice has its last value.

**Types.** `OptionName`, `Given`, `Request`.

**Operations.** `Given.read`, `Request.ofArguments?`: none if the words make no sense.
-/

namespace Rollout.Cli

/-- The options of commands. -/
inductive OptionName
  | config
  | project
  | workers
  | json
  | debug
  | help
  deriving DecidableEq, Inhabited

namespace OptionName

def all : List OptionName := [.config, .project, .workers, .json, .debug, .help]

def long : OptionName → String
  | .config => "--config"
  | .project => "--project"
  | .workers => "--workers"
  | .json => "--json"
  | .debug => "--debug"
  | .help => "--help"

/-- The letter of the short name. -/
def short? : OptionName → Option Char
  | .config => some 'c'
  | .project => some 'p'
  | .workers => some 'j'
  | .json | .debug | .help => none

/-- Whether a value belongs to the option. -/
def takesValue (o : OptionName) : Bool := o.short?.isSome

end OptionName

/-- What a word says: an option with its value, an option whose value is the next word, something
else, or nothing that is known. -/
inductive Word
  | setting (option : OptionName) (value : String)
  | opening (option : OptionName)
  | argument
  | unknown
  deriving DecidableEq, Inhabited

namespace Word

/-- A word that starts with two dashes. -/
def ofLong (allowed : List OptionName) (word : String) : Word :=
  let cs := word.toList
  let name := String.ofList (cs.takeWhile (· ≠ '='))
  let value? := (cs.dropWhile (· ≠ '=')).tail?.map String.ofList
  match allowed.find? fun o => o.long == name with
  | none => .unknown
  | some o =>
    match o.takesValue, value? with
    | true, some value => .setting o value
    | true, none => .opening o
    | false, none => .setting o ""
    | false, some _ => .unknown

/-- A word that starts with one dash, without the dash. -/
def ofShort (allowed : List OptionName) : List Char → Word
  | [] => .argument
  | c :: rest =>
    match allowed.find? fun o => o.short? == some c with
    | none => .unknown
    | some o => if rest.isEmpty then .opening o else .setting o (String.ofList rest)

/-- What a word says where some options are allowed. -/
def of (allowed : List OptionName) (word : String) : Word :=
  match word.toList with
  | '-' :: '-' :: _ => ofLong allowed word
  | '-' :: rest => ofShort allowed rest
  | _ => .argument

end Word

/-- What the words after a command give. -/
structure Given where
  /-- The options in the order in which they were given. -/
  settings : List (OptionName × String) := []
  arguments : List String := []
  deriving DecidableEq, Inhabited

namespace Given

/-- Read words, after those that have been read; none if one of them makes no sense. -/
def read (allowed : List OptionName) (g : Given) : List String → Option Given
  | [] => some g
  | word :: rest =>
    if word = "--" then some { g with arguments := g.arguments ++ rest }
    else
      match Word.of allowed word with
      | .unknown => none
      | .argument => read allowed { g with arguments := g.arguments ++ [word] } rest
      | .setting o value => read allowed { g with settings := g.settings ++ [(o, value)] } rest
      | .opening o =>
        match rest with
        | [] => none
        | value :: rest => read allowed { g with settings := g.settings ++ [(o, value)] } rest

def has (g : Given) (o : OptionName) : Bool := g.settings.any fun s => s.1 == o

/-- The last value of an option. -/
def value? (g : Given) (o : OptionName) : Option String :=
  (g.settings.reverse.find? fun s => s.1 == o).map Prod.snd

def path (g : Given) (o : OptionName) (usual : String) : FilePath :=
  FilePath.ofText ((g.value? o).getD usual)

end Given

/-! ## Numbers -/

/-- The number of digits, which single low lines may part. -/
def digitsValue? (n : Nat) : List Char → Option Nat
  | [] => some n
  | '_' :: d :: rest =>
    if d.isDigit then digitsValue? (n * 10 + (d.toNat - 48)) rest else none
  | d :: rest => if d.isDigit then digitsValue? (n * 10 + (d.toNat - 48)) rest else none

/-- A number of digits, of which there is at least one in front. -/
def unsignedValue? : List Char → Option Nat
  | d :: rest => if d.isDigit then digitsValue? 0 (d :: rest) else none
  | [] => none

/-- The whole number that a text stands for, with blanks around it allowed. -/
def wholeNumber? (s : String) : Option Int :=
  match Text.strip s.toList with
  | '-' :: cs => (unsignedValue? cs).map fun n => -(n : Int)
  | '+' :: cs => (unsignedValue? cs).map fun n => (n : Int)
  | cs => (unsignedValue? cs).map fun n => (n : Int)

/-- The number of workers that is meant; at least one. -/
def workers? : Option String → Option Int
  | none => some 4
  | some s => (wholeNumber? s).filter fun n => decide (1 ≤ n)

/-! ## Requests -/

/-- What the user asks for. -/
structure Order where
  command : Command
  config : FilePath
  project : FilePath
  workers : Int
  json : Bool
  debug : Bool
  paths : List FilePath
  deriving DecidableEq, Inhabited

/-- What the words ask for. -/
inductive Request
  | help
  | version
  | order (order : Order)
  deriving DecidableEq, Inhabited

namespace Request

def optionsOf (c : Command) : List OptionName :=
  if c = .graph then [.config, .project, .json, .debug, .help] else OptionName.all

/-- Whether a command may be given some paths. -/
def acceptsPaths (c : Command) (paths : List String) : Bool :=
  if c = .redeploy then !paths.isEmpty else paths.isEmpty

/-- The order that a command and the words after it give. -/
def ofGiven? (c : Command) (g : Given) : Option Request :=
  if g.has .help then some .help
  else if acceptsPaths c g.arguments then
    (workers? (g.value? .workers)).map fun workers =>
      .order {
        command := c
        config := g.path .config "stack.yaml"
        project := g.path .project "."
        workers := workers
        json := g.has .json
        debug := g.has .debug
        paths := g.arguments.map FilePath.ofText }
  else none

def ofCommand? (name : String) (words : List String) : Option Request :=
  if name = "version" then do
    let g ← Given.read [.help] {} words
    if g.has .help then some .help
    else if g.arguments.isEmpty then some .version else none
  else do
    let c ← Command.ofText? name
    ofGiven? c (← Given.read (optionsOf c) {} words)

/-- The request of the words in front of the name of a command and of all that follow. -/
def readFront (helped : Bool) : List String → Option Request
  | [] => if helped then some .help else none
  | word :: rest =>
    if word = "--" then
      match helped, rest with
      | true, _ => some .help
      | false, [] => none
      | false, name :: words => ofCommand? name words
    else
      match Word.of [.help] word with
      | .setting _ _ => readFront true rest
      | .argument => if helped then some .help else ofCommand? word rest
      | .opening _ | .unknown => none

/-- The request that words make; none if they make no sense. -/
def ofArguments? (words : List String) : Option Request := readFront false words

end Request

end Rollout.Cli
