import Rollout.Buildstate.Store
import Rollout.Stack.Document
import Rollout.Yaml.Document

/-!
# Stack files

A stack is described by a file in the directory of its project, or in the place that the user names.

**Types.** `StackFileFault`.

**Operations.** `StackFile.path`, `StackFile.value`, `StackFile.load`.
-/

namespace Rollout

/-- Why a file gives no stack. -/
inductive StackFileFault
  | missing (path : FilePath)
  | unreadable (path : FilePath)
  | duplicateKey (path : FilePath) (problem : String)
  | noMapping
  | invalid (issues : List Issue)
  deriving Inhabited

/-- The message about a file that gives no stack. -/
def StackFileFault.message : StackFileFault → String
  | .missing path => "Missing stack file: " ++ path.text
  | .unreadable path => "Failed to parse YAML: " ++ path.text
  | .duplicateKey path problem => "Duplicate key in " ++ path.text ++ ": " ++ problem
  | .noMapping => "Stack file must be a YAML mapping at the top level."
  | .invalid issues => issueSummary issues.length "Stack"

/-- The failure to report. -/
def StackFileFault.failure (f : StackFileFault) : Failure := ⟨.config, f.message⟩

namespace StackFile

/-- The stack file of a project, seen from the project's directory. -/
def path (project config : FilePath) : FilePath := project.join config

/-- The value of a text that was found in a file. -/
def textValue (path : FilePath) (text : String) : Except StackFileFault Value :=
  match Yaml.readValue (String.ofList (Files.lineFeeds text.toList)) with
  | .ok v => .ok v
  | .error f =>
    match f.problem? with
    | some problem => .error (.duplicateKey path problem)
    | none => .error (.unreadable path)

def value (path : FilePath) (files : Files) : Except StackFileFault Value :=
  match files.item? path with
  | none => .error (.missing path)
  | some .folder => .error (.unreadable path)
  | some (.file content) =>
    match Text.decode content with
    | .ok text => textValue path text
    | .error _ => .error (.unreadable path)

/-- The stack that a value describes. -/
def ofValue (v : Value) : Except StackFileFault Stack :=
  match v with
  | .map _ =>
    match Stack.ofValue v with
    | .ok s => .ok s
    | .bad issues => .error (.invalid issues)
  | _ => .error .noMapping

def load (project config : FilePath) (files : Files) : Except StackFileFault Stack :=
  value (path project config) files >>= ofValue

end StackFile

end Rollout
