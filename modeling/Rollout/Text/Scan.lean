/-!
# Scanning texts

One pass over a text from left to right. At every place a finder may recognise something that
starts there; what it recognised is consumed as a whole and never looked at again.

**Operations.** `pieces`, `replace`.

**Results.**
* `pieces_nothing`: a finder that recognises nothing keeps every character.
-/

namespace Rollout.Text

/-- A part of a scanned text: something recognised, or a character kept as it is. -/
inductive Piece (α : Type)
  | found (what : α)
  | kept (c : Char)
  deriving DecidableEq

/-- What a finder says about a place: what starts there, and how many characters it has beyond its
first one. It sees the character before the place. -/
abbrev Finder (α : Type) := Option Char → List Char → Option (α × Nat)

/-- The parts of a text. The number counts the characters that still belong to the last find. -/
def piecesFrom {α : Type} (find : Finder α) (before : Option Char) :
    Nat → List Char → List (Piece α)
  | _, [] => []
  | n + 1, c :: rest => piecesFrom find (some c) n rest
  | 0, c :: rest =>
    match find before (c :: rest) with
    | some (what, more) => .found what :: piecesFrom find (some c) more rest
    | none => .kept c :: piecesFrom find (some c) 0 rest

/-- The parts of a text, from its start. -/
def pieces {α : Type} (find : Finder α) (cs : List Char) : List (Piece α) :=
  piecesFrom find none 0 cs

def replace {α : Type} (find : Finder α) (write : α → List Char) (cs : List Char) : List Char :=
  (pieces find cs).flatMap fun
    | .found what => write what
    | .kept c => [c]

/-- The rest of a text that starts with the given characters. -/
def dropStart? : List Char → List Char → Option (List Char)
  | [], cs => some cs
  | _ :: _, [] => none
  | p :: ps, c :: cs => if p = c then dropStart? ps cs else none

theorem piecesFrom_nothing {α : Type} {find : Finder α} (h : ∀ b cs, find b cs = none)
    (before : Option Char) (cs : List Char) :
    piecesFrom find before 0 cs = cs.map Piece.kept := by
  induction cs generalizing before with
  | nil => rfl
  | cons c rest ih => simp [piecesFrom, h, ih]

theorem pieces_nothing {α : Type} {find : Finder α} (h : ∀ b cs, find b cs = none)
    (cs : List Char) : pieces find cs = cs.map Piece.kept :=
  piecesFrom_nothing h none cs

end Rollout.Text
