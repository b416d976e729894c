import Rollout.Buildstate.Store

/-!
# The steps of a save

A state is not written to its file at once. Its text is written to a new file in the same folder, the
draft, and the draft then replaces the file. If it cannot, the draft is removed.

**Operations.** `Files.create`, `Files.replace`, `Store.saveThrough`.
-/

namespace Rollout

namespace Files

/-- The place of a new, empty file, and the files with it. -/
def create (p : FilePath) (files : Files) : Except FileFault (List String × Files) :=
  match files.locate? p with
  | none => .error (files.obstacle (Text.quote p.text) [] p.names)
  | some place =>
    if (files.at? place).isSome then .error (.present (Text.quote p.text))
    else .ok (place, files.put place (.file ByteArray.empty))

/-- Move a file from its place to where a path leads; what the file system says about it if it
refuses shows both. -/
def replace (shown : String) (place : List String) (content : ByteArray) (p : FilePath)
    (files : Files) : Except FileFault Files :=
  match files.locate? p with
  | none => .error (files.obstacle shown [] p.names)
  | some target =>
    if files.at? target = some .folder then .error (.isFolder shown)
    else .ok (put target (.file content) (Table.erase place files))

end Files

namespace Store

/-- Write the text of a state into a folder that is there, by way of a draft. -/
def placeThrough (folder : FilePath) (stack token text : String) (files : Files) :
    Files × Except StoreFault (Option FilePath) :=
  let path := pathIn folder stack
  let draft := draftIn folder stack token
  match files.create draft with
  | .error reason => (files, .error (.refused reason))
  | .ok (held, created) =>
    let content := Text.encode text
    let written := created.put held (.file content)
    match written.replace (shownMove draft path) held content path with
    | .ok files => (files, .ok (some path))
    | .error reason => (Table.erase held written, .error (.unwritable path reason))

/-- Save a state step by step. -/
def saveThrough (s : Store) (stack : String) (state : Buildstate) (files : Files)
    (token : String) : Saved :=
  s.saveBy (fun folder text files => placeThrough folder stack token text files) stack state files

end Store

end Rollout
