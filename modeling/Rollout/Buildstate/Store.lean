import Rollout.Buildstate.Document
import Rollout.Failure
import Rollout.Files.Tree
import Rollout.Json.Reader
import Rollout.Text.Encoding

/-!
# Stores of build states

A store keeps one file for each stack in a directory of its own below the project. A store without
a directory keeps nothing: loading gives the empty state, and saving only stamps the state.

**Types.** `Store`, `StoreFault`, `Saved`.

**Operations.** `Store.path`, `Store.load`, `Store.save`.
-/

namespace Rollout

/-- Where build states are kept. -/
structure Store where
  /-- The project directory; without one, states are kept in memory only. -/
  root : Option FilePath
  /-- The time that is written into a state when it is saved. -/
  stamp : String
  deriving Inhabited

/-- Why a state cannot be loaded or saved. -/
inductive StoreFault
  | memoryOnly
  | unreadable (path : FilePath)
  | invalid (path : FilePath) (issues : List Issue)
  | wrongVersion (path : FilePath) (found : Int)
  | unwritable (path : FilePath) (reason : FileFault)
  /-- The file system refuses before anything is written. -/
  | refused (reason : FileFault)
  /-- The file nests too deeply, or holds a number that is too long. -/
  | excessive (reason : Json.ReadError)
  | noText (fault : Json.Fault)
  /-- A value of the state is nested too deeply. -/
  | tooNested
  /-- An integer of the state has too many digits. -/
  | tooLong
  deriving Inhabited

/-- The summary of the issues of a document. -/
def issueSummary (count : Nat) (model : String) : String :=
  toString count ++ " validation error" ++ (if count = 1 then "" else "s") ++ " for " ++ model

/-- The failure to report; there is none for the faults that end the whole command. -/
def StoreFault.failure? : StoreFault → Option Failure
  | .memoryOnly => some ⟨.buildstate, "This buildstate store is memory-only."⟩
  | .unreadable path => some ⟨.buildstate, "Unreadable buildstate: " ++ path.text⟩
  | .invalid path issues =>
    some ⟨.buildstate, "Invalid buildstate " ++ path.text ++ ": " ++
      issueSummary issues.length "PersistedState"⟩
  | .wrongVersion path found =>
    some ⟨.buildstate, "Buildstate " ++ path.text ++ " has version " ++ toString found ++
      "; expected " ++ toString Buildstate.currentVersion ++ "."⟩
  | .unwritable path reason =>
    some ⟨.buildstate, "Failed to write buildstate " ++ path.text ++ ": " ++ reason.message⟩
  | .refused _ | .excessive _ | .noText _ | .tooNested | .tooLong => none

/-- The state after an attempt to save it, with the files and what came of the attempt. -/
structure Saved where
  state : Buildstate
  files : Files
  /-- The path of the file, if states are kept in files. -/
  path : Except StoreFault (Option FilePath)

namespace Store

/-- The directory of the stored states. -/
def folder? (s : Store) : Option FilePath := s.root.map fun r => r.child ".stackctl_buildstate"

/-- The file of a stack; a slash in the name of the stack leads into a directory. -/
def pathIn (folder : FilePath) (stack : String) : FilePath :=
  folder.join (FilePath.ofText (stack ++ ".json"))

def path (s : Store) (stack : String) : Except StoreFault FilePath :=
  match s.folder? with
  | some folder => .ok (pathIn folder stack)
  | none => .error .memoryOnly

/-- The state in the content of a file. -/
def ofContent (path : FilePath) (content : ByteArray) : Except StoreFault Buildstate :=
  match Text.decode content with
  | .error message => .error (.refused (.badText message))
  | .ok text =>
    match Json.read text with
    | .error .malformed => .error (.unreadable path)
    | .error reason => .error (.excessive reason)
    | .ok v =>
      match Buildstate.ofValue v with
      | .bad issues => .error (.invalid path issues)
      | .ok b =>
        if b.version = Buildstate.currentVersion then .ok b
        else .error (.wrongVersion path b.version)

/-- The state of a stack; without a file it is the empty one. -/
def load (s : Store) (stack : String) (files : Files) : Except StoreFault Buildstate :=
  match s.folder? with
  | none => .ok (Buildstate.empty stack)
  | some folder =>
    let path := pathIn folder stack
    match files.item? path with
    | none => .ok (Buildstate.empty stack)
    | some .folder => .error (.unreadable path)
    | some (.file content) => ofContent path content

/-- The path of the file that a state is written to before it replaces the earlier one; a token tells
it from other files. -/
def draftIn (folder : FilePath) (stack token : String) : FilePath :=
  folder.join (FilePath.ofText ("." ++ stack ++ "." ++ token ++ ".tmp"))

/-- How the file system names two paths of which the first is to replace the second. -/
def shownMove (draft path : FilePath) : String :=
  Text.quote draft.text ++ " -> " ++ Text.quote path.text

/-- Write the text of a state into a folder that is there. What stands in the way of its file is
noticed when the draft has been written. -/
def place (folder : FilePath) (stack token text : String) (files : Files) :
    Files × Except StoreFault (Option FilePath) :=
  let path := pathIn folder stack
  let draft := draftIn folder stack token
  match files.locate? draft with
  | none => (files, .error (.refused (files.obstacle (Text.quote draft.text) [] draft.names)))
  | some held =>
    match files.locate? path with
    | none =>
      let written := files.put held (.file (Text.encode text))
      (files, .error (.unwritable path
        (written.obstacle (shownMove draft path) [] path.names)))
    | some target =>
      if files.at? target = some .folder then
        (files, .error (.unwritable path (.isFolder (shownMove draft path))))
      else (files.put target (.file (Text.encode text)), .ok (some path))

/-- The text of a state, if its values keep to the limits of what can be stored. -/
def payload (state : Buildstate) : Except StoreFault String :=
  if !(state.units.all fun e => e.2.isShallow) then .error .tooNested
  else if !state.toValue.stored.isLegible then .error .tooLong
  else state.text.mapError .noText

/-- A state with the name of its stack and the time. -/
def stamped (s : Store) (stack : String) (state : Buildstate) : Buildstate :=
  { state with stack := stack, updatedAt := some s.stamp }

/-- Stamp a state with the name of its stack and the time, and write its text into the folder of the
store, which is made if it is missing. -/
def saveBy (write : FilePath → String → Files → Files × Except StoreFault (Option FilePath))
    (s : Store) (stack : String) (state : Buildstate) (files : Files) : Saved :=
  let state := s.stamped stack state
  match s.folder? with
  | none => ⟨state, files, .ok none⟩
  | some folder =>
    match payload state with
    | .error fault => ⟨state, files, .error fault⟩
    | .ok text =>
      match files.makeFolders folder.names with
      | .error reason => ⟨state, files, .error (.refused reason)⟩
      | .ok files =>
        let (files, path) := write folder text files
        ⟨state, files, path⟩

/-- Stamp a state with the name of its stack and the time, and write it to its file. -/
def save (s : Store) (stack : String) (state : Buildstate) (files : Files)
    (token : String := "xxxxxxxx") : Saved :=
  s.saveBy (fun folder text files => place folder stack token text files) stack state files

end Store

end Rollout
