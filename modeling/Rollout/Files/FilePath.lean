/-!
# File paths

Paths of files as a root and names. Blank names and single points are dropped when a path is read,
double points are kept. A path may start at the root, at a second root written with exactly two
slashes, or nowhere in particular.

**Operations.** `FilePath.ofText`, `FilePath.text`, `join`, `normalize`, `contains`.

**Results.**
* `contains_iff`: one path contains another when they have one root and the names of the first are
  the first names of the second;
* `contains_refl`, `contains_trans`.
-/

namespace Rollout

/-- Where a path starts. -/
inductive Root
  | relative
  | root
  | doubleRoot
  deriving DecidableEq, Inhabited

def Root.text : Root → String
  | .relative => ""
  | .root => "/"
  | .doubleRoot => "//"

/-- A path of a file or directory. -/
structure FilePath where
  start : Root
  names : List String
  deriving DecidableEq, Inhabited

namespace FilePath

/-- The parts of a text between its slashes. -/
def splitSlashes : List Char → List (List Char)
  | [] => [[]]
  | c :: rest =>
    if c = '/' then [] :: splitSlashes rest
    else
      match splitSlashes rest with
      | first :: others => (c :: first) :: others
      | [] => [[c]]

/-- The start that the slashes in front of a path stand for. -/
def startOf : List Char → Root
  | '/' :: '/' :: '/' :: _ => .root
  | '/' :: '/' :: _ => .doubleRoot
  | '/' :: _ => .root
  | _ => .relative

def ofText (s : String) : FilePath :=
  let cs := s.toList
  ⟨startOf cs, ((splitSlashes cs).map String.ofList).filter fun n => n != "" && n != "."⟩

def text (p : FilePath) : String :=
  if p.start = .relative ∧ p.names = [] then "."
  else p.start.text ++ "/".intercalate p.names

def isAbsolute (p : FilePath) : Bool := p.start != .relative

/-- The second path, seen from the first. -/
def join (base p : FilePath) : FilePath :=
  if p.isAbsolute then p else ⟨base.start, base.names ++ p.names⟩

/-- Names with every double point resolved against the name before it; the names done so far come
last first. -/
def resolveNames (start : Root) (done : List String) : List String → List String
  | [] => done.reverse
  | n :: rest =>
    if n = ".." then
      match done with
      | [] => if start = .relative then resolveNames start [n] rest else resolveNames start [] rest
      | d :: earlier =>
        if d = ".." then resolveNames start (n :: done) rest else resolveNames start earlier rest
    else resolveNames start (n :: done) rest

/-- The path without double points, as far as its text tells. -/
def normalize (p : FilePath) : FilePath := ⟨p.start, resolveNames p.start [] p.names⟩

/-- Whether a path is another one or lies above it. -/
def contains (parent child : FilePath) : Bool :=
  parent.start == child.start && parent.names.isPrefixOf child.names

theorem contains_iff {parent child : FilePath} :
    parent.contains child = true ↔ parent.start = child.start ∧ parent.names <+: child.names := by
  simp [contains]

theorem contains_refl (p : FilePath) : p.contains p = true :=
  contains_iff.2 ⟨rfl, List.prefix_refl _⟩

theorem contains_trans {a b c : FilePath} (hab : a.contains b = true) (hbc : b.contains c = true) :
    a.contains c = true := by
  rw [contains_iff] at *
  exact ⟨hab.1.trans hbc.1, hab.2.trans hbc.2⟩

/-- The path seen from a directory, without double points. -/
def within (directory p : FilePath) : FilePath := (directory.join p).normalize

def name (p : FilePath) : String := p.names.getLastD ""

/-- The path without its last name. -/
def parent (p : FilePath) : FilePath := ⟨p.start, p.names.dropLast⟩

/-- A name inside a directory. -/
def child (p : FilePath) (name : String) : FilePath := ⟨p.start, p.names ++ [name]⟩

end FilePath

end Rollout
