import Rollout.Text.Scan

/-!
# What a scan makes of a text

A scan goes over a text once. At each place it either keeps a character or writes something for what
is found there, and goes on behind the find. So what becomes of a text is said here step by step, for
a text that stands behind a character: the finder may look at that character, and nothing else that
lies behind the scan matters.

**Operations.** `replaceBehind`, `lastOf`.

**Results.**
* `takeWhile_append_of_head`, `dropWhile_append_of_head`: a text is cut where a property ends;
* `replace_eq`: a scan starts behind nothing;
* `replaceBehind_kept`, `replaceBehind_found`: one step;
* `replaceBehind_congr`: the character in front matters to the first look only.
-/

namespace Rollout.Text

/-! ### Texts that are cut where a property ends -/

section Cut

variable {p : Char → Bool} {front rest : List Char}

theorem takeWhile_append_of_head (hfront : ∀ c ∈ front, p c = true)
    (hrest : ∀ c, rest.head? = some c → p c = false) : (front ++ rest).takeWhile p = front := by
  rw [List.takeWhile_append_of_pos hfront]
  cases rest with
  | nil => simp
  | cons c rest => simp [hrest c rfl]

theorem dropWhile_append_of_head (hfront : ∀ c ∈ front, p c = true)
    (hrest : ∀ c, rest.head? = some c → p c = false) : (front ++ rest).dropWhile p = rest := by
  rw [List.dropWhile_append_of_pos hfront]
  cases rest with
  | nil => rfl
  | cons c rest => simp [hrest c rfl]

/-- What is left does not begin with the property. -/
theorem of_head?_dropWhile {cs : List Char} {c : Char} (h : (cs.dropWhile p).head? = some c) :
    p c = false := by
  have hnot := List.head?_dropWhile_not p cs
  rwa [h] at hnot

end Cut

/-! ### Steps of a scan -/

variable {α : Type} (find : Finder α) (write : α → List Char)

/-- What a piece becomes. -/
def Piece.written (write : α → List Char) : Piece α → List Char
  | .found what => write what
  | .kept c => [c]

/-- What becomes of a text that stands behind a character. -/
def replaceBehind (before : Option Char) (cs : List Char) : List Char :=
  (piecesFrom find before 0 cs).flatMap (Piece.written write)

/-- The character in front of what follows a text. -/
def lastOf (before : Option Char) (cs : List Char) : Option Char := cs.getLast?.or before

theorem lastOf_cons (before : Option Char) (c : Char) (cs : List Char) :
    lastOf before (c :: cs) = lastOf (some c) cs := by
  rw [lastOf, lastOf, List.getLast?_cons]
  cases cs.getLast? <;> rfl

theorem lastOf_append (before : Option Char) (front rest : List Char) :
    lastOf before (front ++ rest) = lastOf (lastOf before front) rest := by
  rw [lastOf, lastOf, lastOf, List.getLast?_append, Option.or_assoc]

theorem replace_eq (cs : List Char) : replace find write cs = replaceBehind find write none cs :=
  rfl

theorem replaceBehind_nil (before : Option Char) : replaceBehind find write before [] = [] := rfl

variable {find}

/-- What belongs to the last find is passed over. -/
theorem piecesFrom_passed (before : Option Char) (passed rest : List Char) :
    piecesFrom find before passed.length (passed ++ rest) =
      piecesFrom find (lastOf before passed) 0 rest := by
  induction passed generalizing before with
  | nil => rfl
  | cons c passed ih =>
    rw [lastOf_cons]
    exact ih (some c)

/-- Where nothing is found, the character is kept. -/
theorem replaceBehind_kept {before : Option Char} {c : Char} {rest : List Char}
    (h : find before (c :: rest) = none) :
    replaceBehind find write before (c :: rest) =
      c :: replaceBehind find write (some c) rest := by
  rw [replaceBehind, piecesFrom, h]
  rfl

/-- Where something is found, it is replaced as a whole. -/
theorem replaceBehind_found {before : Option Char} {what : α} {cs rest : List Char} {more : Nat}
    (h : find before (cs ++ rest) = some (what, more)) (hmore : more + 1 = cs.length) :
    replaceBehind find write before (cs ++ rest) =
      write what ++ replaceBehind find write (lastOf before cs) rest := by
  cases cs with
  | nil => cases hmore
  | cons c passed =>
    obtain rfl : more = passed.length := Nat.succ.inj hmore
    rw [List.cons_append] at h ⊢
    rw [lastOf_cons, replaceBehind, piecesFrom, h, replaceBehind, ← piecesFrom_passed]
    rfl

/-- The character in front matters to the first look only. -/
theorem replaceBehind_congr {before before' : Option Char} {cs : List Char}
    (h : find before cs = find before' cs) :
    replaceBehind find write before cs = replaceBehind find write before' cs := by
  cases cs with
  | nil => rfl
  | cons c rest =>
    rw [replaceBehind, replaceBehind, piecesFrom, piecesFrom, h]

end Rollout.Text
