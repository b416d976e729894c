import Rollout.Executor.Mapping
import Rollout.Executor.Placeholder
import Rollout.Json.Reader
import Rollout.Json.Writer
import Rollout.Shell.Run
import Rollout.Text.WordChar
import Rollout.Run.Fault

/-!
# Built-in executors

Two executors are built in. One does nothing and gives configured outputs. The other one runs a
command for each unit: the context is its input, and the output of a deployment is read as a JSON
object.

**Types.** `BuiltIn`.

**Operations.** `BuiltIn.create`, `BuiltIn.reply`, `BuiltIn.executor`, `loadExecutors`.
-/

namespace Rollout

/-- A built-in executor with its options. -/
inductive BuiltIn
  | noop (outputs : Entries) (timeout : Value)
  | command (words : List String) (env : Entries) (timeout : Value)
  deriving Inhabited

/-- The types of the built-in executors. -/
inductive BuiltInType
  | noop
  | exec
  deriving DecidableEq, Inhabited

namespace BuiltInType

def all : List BuiltInType := [.exec, .noop]

def text : BuiltInType → String
  | .noop => "noop"
  | .exec => "exec"

/-- The name of the class of executors, as messages show it. -/
def className : BuiltInType → String
  | .noop => "NoopExecutor"
  | .exec => "ExecExecutor"

/-- Where the class is found. -/
def impl (t : BuiltInType) : String := "stackctl.executors." ++ t.text ++ ":" ++ t.className

def ofText? (s : String) : Option BuiltInType := all.find? fun t => t.text == s

end BuiltInType

namespace BuiltIn

def type : BuiltIn → BuiltInType
  | .noop .. => .noop
  | .command .. => .exec

def timeout : BuiltIn → Value
  | .noop _ t => t
  | .command _ _ t => t

/-- The words of a command: a list of texts that is not empty. -/
def commandWords (v : Value) : Except Exception (List String) :=
  let texts? : Option (List String) := match v with
    | .list items => items.mapM fun | .text s => some s | _ => none
    | _ => none
  match texts? with
  | none => .error (.wrongValue "exec executor requires cmd as a list of strings")
  | some [] => .error (.wrongValue "exec executor requires a non-empty cmd")
  | some words => .ok words

/-- An executor of a type with options; options that it does not know are ignored. -/
def create (t : BuiltInType) (options : Table String Value) : Except Exception BuiltIn := do
  let option (name : String) : Value := (Table.get? name options).getD .null
  match options.find? fun e => e.1 == "project_dir" || e.1 == "self" with
  | some (name, _) =>
    .error (.wrongType (t.className ++ ".__init__() got multiple values for argument '" ++ name ++
      "'"))
  | none =>
    match t with
    | .noop =>
      match option "outputs" with
      | .null => .ok (.noop [] (option "timeout_s"))
      | .map entries => .ok (.noop entries (option "timeout_s"))
      | _ => .error (.wrongValue "noop executor outputs must map unit names to mappings")
    | .exec =>
      if !Table.has "cmd" options then
        .error (.wrongType
          "ExecExecutor.__init__() missing 1 required keyword-only argument: 'cmd'")
      else
        let words ← commandWords (option "cmd")
        let env ← if (option "env").truthy then mappingOf (option "env") else pure []
        .ok (.command words env (option "timeout_s"))

def configured (outputs : Entries) (c : UnitContext) : Answer :=
  if c.phase = .deploy then
    match (Entries.get? c.name outputs).getD (.map []) with
    | .null => .succeeded none
    | v =>
      match mappingOf v with
      | .ok entries => .succeeded (some entries)
      | .error e => .raised e.className e.text
  else .succeeded none

/-- The variables that every command sees. -/
def baseVariables : Table String String := [
  ("PATH", "/usr/local/bin:/usr/local/sbin:/usr/local/bin:/usr/sbin:/usr/bin:/sbin:/bin"),
  ("HOME", "/root")]

/-- A name or value of a variable. -/
def variableText (kind : String) : Value → Except Exception String
  | .text s => .ok s
  | _ => .error (.wrongType ("expected str, bytes or os.PathLike object, not " ++ kind))

/-- The variables of a command. -/
def variablesWith : Entries → Table String String → Except Exception (Table String String)
  | [], vs => .ok vs
  | (k, v) :: rest, vs => do
    let name ← variableText k.kindName k.toValue
    if name.toList.contains '=' then .error (.wrongValue "illegal environment variable name")
    else
      let value ← variableText v.kindName v
      variablesWith rest (Table.set name value vs)

/-- The seconds after which a command is stopped. -/
def commandLimit : Value → Except Exception (Option Rat)
  | .null => .ok none
  | .int i => .ok (some i)
  | .bool b => .ok (some (if b then 1 else 0))
  | .float x => .ok x.toRat?
  | v => .error (.wrongType ("unsupported operand type(s) for +: 'float' and '" ++ v.kindName ++ "'"))

/-- What a deployment has written, read as outputs. -/
def outputsOf (written : String) : Answer :=
  let text := Text.strip (Files.lineFeeds written.toList)
  if text.isEmpty then .succeeded (some [])
  else
    match Json.read (String.ofList text) with
    | .error .malformed => .failed (some "Deploy command output is not valid JSON.")
    | .error (.tooLong digits) => .raised "ValueError" (Json.ReadError.tooLong digits).text
    | .error .tooDeep => .raised "RecursionError" Json.ReadError.tooDeep.text
    | .ok (.map entries) => .succeeded (some entries)
    | .ok _ => .failed (some "Deploy command output must be a JSON object.")

/-- What a command that has ended in time says about a unit. -/
def judge (c : UnitContext) (status : Int) (output error : Shell.Bytes) : Answer :=
  match Text.decode ⟨output.toArray⟩, Text.decode ⟨error.toArray⟩ with
  | .error text, _ | _, .error text => .raised "UnicodeDecodeError" text
  | .ok output, .ok error =>
    if status ≠ 0 then
      .failed (some ("Command failed with exit code " ++ toString status ++ ": " ++
        String.ofList (Text.strip (Files.lineFeeds error.toList))))
    else if c.phase = .deploy then outputsOf output
    else .succeeded none

/-- Run a command for a unit in a directory. -/
def runCommand (folder : FilePath) (words : List String) (env : Entries) (timeout : Value)
    (c : UnitContext) (files : Files) : Except Exception (Answer × Files) := do
  let input ← match Json.render Json.spaced c.toValue with
    | .ok text => pure text
    | .error fault => .error (.wrongType fault.message)
  let command := commandFor words c
  if command.any fun w => w.toList.contains (Char.ofNat 0) then
    .error (.wrongValue "embedded null byte")
  let environment ← variablesWith env baseVariables
  let session : Shell.Session := ⟨files, folder, environment, ["sh"], 0, 0, none, false⟩
  match Shell.launch command (Shell.bytesOf input) session with
  | .error fault => return (.failed (some ("Command could not start: " ++ fault.message)), files)
  | .ok ran =>
    let limit ← commandLimit timeout
    let late := match limit with
      | some seconds => decide (seconds ≤ ran.session.slept)
      | none => false
    if late then
      return (.failed (some ("Command timed out after " ++ timeout.literal ++ "s")),
        ran.session.files)
    else
      return (judge c ran.exitStatus (Shell.written false ran.chunks)
        (Shell.written true ran.chunks), ran.session.files)

/-- What an executor of a project does with a unit. -/
def answer (folder : FilePath) (b : BuiltIn) (c : UnitContext) (files : Files) : Answer × Files :=
  match b with
  | .noop outputs _ => (configured outputs c, files)
  | .command words env timeout =>
    match runCommand folder words env timeout c files with
    | .ok (answer, files) => (answer, files)
    | .error e => (.raised e.className e.text, files)

/-- The reply of an executor of a project. -/
def reply (folder : FilePath) (b : BuiltIn) (c : UnitContext) (files : Files) : Reply :=
  let (answer, files) := b.answer folder c files
  .plain c files answer

/-- The executor of a project. -/
def executor (folder : FilePath) (b : BuiltIn) : Executor := ⟨b.timeout, some (b.reply folder)⟩

end BuiltIn

/-- Why configured executors cannot be made. -/
inductive LoadFault
  /-- A name that is no phase; this is no failure to report. -/
  | noPhase (name : String)
  | executor (fault : ExecutorFault)
  deriving Inhabited

def loadExecutors : Table String ExecutorConfig → Except LoadFault (Table Phase BuiltIn)
  | [] => .ok []
  | (name, config) :: rest =>
    match Phase.ofText? name with
    | none => .error (.noPhase name)
    | some p =>
      match BuiltInType.ofText? config.type with
      | none => .error (.executor (.unknownType p config.type))
      | some t =>
        match BuiltIn.create t config.options with
        | .error e => .error (.executor (.badOptions p config.type e.text))
        | .ok b => (loadExecutors rest).map ((p, b) :: ·)

end Rollout
