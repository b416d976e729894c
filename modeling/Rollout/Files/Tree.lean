import Rollout.Table
import Rollout.Files.FilePath
import Rollout.Text.Literal

/-!
# File trees

The files and directories that commands read and write, as a table from places to what is found
there. A place is the list of names from the root; the root itself is always a directory.

**Types.** `Item`, `Files`, `FileFault`.

**Operations.** `Files.item?`, `Files.put`, `Files.remove`, `Files.makeFolders`.

**Results.** `at?_put`: what is put in a place is found there, and other places do not change.
-/

namespace Rollout

/-- What a path leads to. -/
inductive Item
  | file (content : ByteArray)
  | folder
  deriving Inhabited

instance : DecidableEq Item
  | .folder, .folder => isTrue rfl
  | .file a, .file b =>
    if h : a.data = b.data then isTrue (by cases a; cases b; simpa using h)
    else isFalse fun e => h (by cases e; rfl)
  | .file _, .folder | .folder, .file _ => isFalse nofun

/-- Files and directories by their places. -/
abbrev Files := Table (List String) Item

/-- Why the file system refuses an operation. -/
inductive FileFault
  | missing (path : String)
  | present (path : String)
  | notFolder (path : String)
  | isFolder (path : String)
  | badText (message : String)
  deriving DecidableEq, Inhabited

/-- The message of the file system. -/
def FileFault.message : FileFault → String
  | .missing path => "[Errno 2] No such file or directory: " ++ path
  | .present path => "[Errno 17] File exists: " ++ path
  | .notFolder path => "[Errno 20] Not a directory: " ++ path
  | .isFolder path => "[Errno 21] Is a directory: " ++ path
  | .badText message => message

namespace Files

/-- What is found in a place. -/
def at? (files : Files) : List String → Option Item
  | [] => some .folder
  | place => Table.get? place files

/-- Follow names from a place; a double point leads back up, and only a directory leads on. -/
def walk (files : Files) (place : List String) : List String → Option (List String)
  | [] => some place
  | n :: rest =>
    if files.at? place = some .folder then
      files.walk (if n = ".." then place.dropLast else place ++ [n]) rest
    else none

/-- Why names lead nowhere from a place: a file is on the way, or something is missing. -/
def obstacle (files : Files) (shown : String) (place : List String) : List String → FileFault
  | [] => .missing shown
  | n :: rest =>
    match files.at? place with
    | some .folder => files.obstacle shown (if n = ".." then place.dropLast else place ++ [n]) rest
    | some (.file _) => .notFolder shown
    | none => .missing shown

/-- The place that an absolute path leads to, if all directories on the way are there. -/
def locate? (files : Files) (p : FilePath) : Option (List String) := files.walk [] p.names

/-- What a path leads to. -/
def item? (files : Files) (p : FilePath) : Option Item := (files.locate? p).bind files.at?

/-- Whether a path leads to a file or directory. -/
def isThere (files : Files) (p : FilePath) : Bool := (files.item? p).isSome

/-- Put something in a place, in which a directory or nothing may be so far. -/
def put (place : List String) (item : Item) (files : Files) : Files := Table.set place item files

/-- The places above a place, the root excepted, from the top down. -/
def above (place : List String) : List (List String) :=
  (List.range place.length).filterMap fun n => if n = 0 then none else some (place.take n)

/-- Make a directory on the way to a place, if it is missing. -/
def makeFolder (place : List String) (files : Files) (p : List String) : Except FileFault Files :=
  match files.at? p with
  | none => .ok (files.put p .folder)
  | some .folder => .ok files
  | some (.file _) =>
    let shown := Text.quote (FilePath.text ⟨.root, place⟩)
    .error (if p = place then .present shown else .notFolder shown)

/-- Make a directory and those above it. -/
def makeFolders (place : List String) (files : Files) : Except FileFault Files :=
  (above place ++ [place]).foldlM (makeFolder place) files

/-- Write a file; missing directories above it are made, and what stood in their way is replaced. -/
def write (place : List String) (item : Item) (files : Files) : Files :=
  ((above place).foldl
    (fun fs p => if fs.at? p = some .folder then fs else fs.put p .folder) files).put place item

/-- Remove a place and all below it. -/
def remove (place : List String) (files : Files) : Files :=
  files.filter fun e => !place.isPrefixOf e.1

/-- The places below a place, seen from there. -/
def below (place : List String) (files : Files) : List (List String × Item) :=
  files.filterMap fun e =>
    if place.isPrefixOf e.1 && e.1.length != place.length then
      some (e.1.drop place.length, e.2)
    else none

/-- A line break of any system becomes a line feed. -/
def lineFeeds : List Char → List Char
  | '\r' :: '\n' :: rest => '\n' :: lineFeeds rest
  | '\r' :: rest => '\n' :: lineFeeds rest
  | c :: rest => c :: lineFeeds rest
  | [] => []

theorem at?_put (files : Files) {place other : List String} (item : Item) (hp : other ≠ []) :
    (files.put place item).at? other = if other = place then some item else files.at? other := by
  cases other with
  | nil => exact absurd rfl hp
  | cons n rest =>
    by_cases h : (n :: rest) = place
    · subst h
      simp [at?, put, Table.get?_set_self]
    · simp [at?, put, h, Table.get?_set_of_ne h]

end Files

end Rollout
