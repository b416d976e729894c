import Rollout.Files.FilePath
import Rollout.Reference.Basic

/-!
# Texts cut at a character

References are cut at their points and paths at their slashes, character by character. Both cuts are
`List.splitOn`, so that the parts put together again with the character between them are the text,
and parts without the character are found again in the text that they make.

**Results.**
* `eq_splitOn`: what a cut has to do with the next character;
* `Reference.parts_eq_splitOn`, `FilePath.splitSlashes_eq_splitOn`: the two cuts.
-/

namespace Rollout

/-- A function that starts a new part at the character, and puts every other character in front of
the part behind it, cuts at the character. -/
theorem eq_splitOn {sep : Char} {cut : List Char → List (List Char)} (hnil : cut [] = [[]])
    (hsep : ∀ rest, cut (sep :: rest) = [] :: cut rest)
    (hkeep : ∀ c rest first others, c ≠ sep → cut rest = first :: others →
      cut (c :: rest) = (c :: first) :: others)
    (cs : List Char) : cut cs = cs.splitOn sep := by
  induction cs with
  | nil => rw [hnil, List.splitOn_nil]
  | cons c rest ih =>
    rw [List.splitOn_cons_eq_if_modifyHead]
    by_cases hc : c = sep
    · subst hc
      rw [hsep, ih, if_pos (beq_self_eq_true c)]
    · obtain ⟨first, others, hrest⟩ := List.exists_cons_of_ne_nil (List.splitOn_ne_nil sep rest)
      rw [hkeep c rest first others hc (ih.trans hrest), if_neg (by simpa using hc), hrest,
        List.modifyHead_cons]

/-- The parts of a reference are cut at the points. -/
theorem Reference.parts_eq_splitOn (cs : List Char) : parts cs = cs.splitOn '.' := by
  refine eq_splitOn rfl (fun rest => ?_) (fun c rest first others hc hrest => ?_) cs
  · rw [parts, if_pos rfl]
  · rw [parts, if_neg hc, hrest]

/-- The parts of a path are cut at the slashes. -/
theorem FilePath.splitSlashes_eq_splitOn (cs : List Char) : splitSlashes cs = cs.splitOn '/' := by
  refine eq_splitOn rfl (fun rest => ?_) (fun c rest first others hc hrest => ?_) cs
  · rw [splitSlashes, if_pos rfl]
  · rw [splitSlashes, if_neg hc, hrest]

end Rollout
