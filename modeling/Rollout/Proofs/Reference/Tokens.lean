import Rollout.Proofs.Text.Scan
import Rollout.Reference.InitStep

/-!
# The tokens of an init step

A token is the marker with a name behind it that has at least one character. A step is split from
left to right: where a token starts, the longest one is taken, and everything else is kept. This is
said here of the parts that a step is split into and of what stands behind each of them, and not of
a scan: no token starts at a character that is kept, and no name could go on behind a token.

**Types.** `InitStep.StartsToken`, `InitStep.InFront`, `InitStep.Splits`.

**Results.**
* `InitStep.findName_eq_some_iff`, `InitStep.findName_eq_none_iff`: what the scan finds at a place;
* `InitStep.pieces_eq_iff`: the scan splits a step in this way, and there is no other one;
* `InitStep.mem_names_iff`: the names that a step uses.
-/

namespace Rollout.InitStep

/-- What a piece of a step is in the step. -/
def spelling : Text.Piece String → List Char
  | .kept c => [c]
  | .found name => marker ++ name.toList

/-- A name of at least one character. -/
structure IsName (cs : List Char) : Prop where
  nonempty : cs ≠ []
  chars : ∀ c ∈ cs, Reference.isNameChar c = true

/-- A name ends in front of a text. -/
def NameEnds (cs : List Char) : Prop := ∀ c ∈ cs.head?, Reference.isNameChar c = false

/-- A text begins with a token. -/
def StartsToken (cs : List Char) : Prop := ∃ name rest, IsName name ∧ cs = marker ++ name ++ rest

/-- A piece stands in front of a text: a character with which no token begins, or a token that
cannot be longer. -/
inductive InFront : Text.Piece String → List Char → Prop
  | kept {c : Char} {rest : List Char} (h : ¬StartsToken (c :: rest)) : InFront (.kept c) rest
  | found {name : String} {rest : List Char} (h : IsName name.toList) (hend : NameEnds rest) :
      InFront (.found name) rest

/-- The pieces of a text: its leftmost tokens, each as long as it can be, and the characters that
belong to none of them. -/
structure Splits (ps : List (Text.Piece String)) (cs : List Char) : Prop where
  spelled : ps.flatMap spelling = cs
  placed : ∀ before p after, ps = before ++ p :: after → InFront p (after.flatMap spelling)

theorem splits_nil_iff {cs : List Char} : Splits [] cs ↔ cs = [] :=
  ⟨fun h => h.spelled.symm, fun h => ⟨h.symm, fun before _ _ hps => by simp at hps⟩⟩

theorem splits_cons_iff {p : Text.Piece String} {ps : List (Text.Piece String)}
    {cs : List Char} :
    Splits (p :: ps) cs ↔ ∃ rest, cs = spelling p ++ rest ∧ InFront p rest ∧ Splits ps rest := by
  constructor
  · rintro ⟨rfl, hplaced⟩
    exact ⟨_, rfl, hplaced [] p ps rfl, rfl, fun before q after hps =>
      hplaced (p :: before) q after (congrArg (p :: ·) hps)⟩
  · rintro ⟨rest, rfl, hfront, rfl, hplaced⟩
    refine ⟨rfl, fun before q after hps => ?_⟩
    cases before with
    | nil =>
      obtain ⟨rfl, rfl⟩ := List.cons.inj hps
      exact hfront
    | cons q' before =>
      obtain ⟨rfl, rfl⟩ := List.cons.inj hps
      exact hplaced before q after rfl

/-! ### What the scan finds -/

theorem dropStart?_eq_some_iff {start cs rest : List Char} :
    Text.dropStart? start cs = some rest ↔ cs = start ++ rest := by
  induction start generalizing cs with
  | nil => rw [Text.dropStart?, Option.some.injEq, List.nil_append]
  | cons p start ih =>
    cases cs with
    | nil => simp [Text.dropStart?]
    | cons c cs =>
      rw [Text.dropStart?, List.cons_append, List.cons.injEq]
      by_cases hp : p = c
      · rw [if_pos hp, ih, and_iff_right hp.symm]
      · rw [if_neg hp]
        simp [Ne.symm hp]

/-- As much of a text as consists of name characters is a name that ends, unless it is nothing. -/
theorem nameEnds_dropWhile (cs : List Char) : NameEnds (cs.dropWhile Reference.isNameChar) :=
  fun _ => Text.of_head?_dropWhile

/-- **What the scan finds** at a place is the longest token that starts there. -/
theorem findName_eq_some_iff {before : Option Char} {cs : List Char} {name : String} {n : Nat} :
    findName before cs = some (name, n) ↔ ∃ rest, cs = spelling (.found name) ++ rest ∧
      InFront (.found name) rest ∧ n + 1 = (spelling (.found name)).length := by
  have hlength : (spelling (.found name)).length = marker.length + name.toList.length :=
    List.length_append
  have hmarker : 0 < marker.length := by decide
  rw [hlength]
  constructor
  · intro h
    unfold findName at h
    cases hstart : Text.dropStart? marker cs with
    | none =>
      rw [hstart] at h
      cases h
    | some behind =>
      obtain rfl := dropStart?_eq_some_iff.mp hstart
      have hsplit := List.takeWhile_append_dropWhile (p := Reference.isNameChar) (l := behind)
      have hchars : ∀ c ∈ behind.takeWhile Reference.isNameChar,
          Reference.isNameChar c = true := List.all_eq_true.mp List.all_takeWhile
      have hend := nameEnds_dropWhile behind
      rw [hstart] at h
      dsimp only at h
      generalize behind.takeWhile Reference.isNameChar = taken at h hsplit hchars
      cases taken with
      | nil => cases h
      | cons c taken =>
        obtain ⟨rfl, rfl⟩ := Prod.mk.inj (Option.some.inj h)
        refine ⟨behind.dropWhile Reference.isNameChar, ?_, .found ?_ hend, ?_⟩
        · rw [spelling, String.toList_ofList, List.append_assoc, hsplit]
        · rw [String.toList_ofList]
          exact ⟨List.cons_ne_nil c taken, hchars⟩
        · rw [String.toList_ofList]
          omega
  · rintro ⟨rest, rfl, _ | ⟨hname, hend⟩, hn⟩
    have hstart : Text.dropStart? marker (spelling (.found name) ++ rest) =
        some (name.toList ++ rest) := dropStart?_eq_some_iff.mpr (List.append_assoc ..)
    unfold findName
    rw [hstart]
    dsimp only
    rw [Text.takeWhile_append_of_head hname.chars hend]
    split
    · rename_i hnil
      exact absurd hnil hname.nonempty
    · rw [String.ofList_toList]
      exact congrArg (fun n => some (name, n)) (by omega)

/-- **The scan finds nothing** at a place where no token starts. -/
theorem findName_eq_none_iff {before : Option Char} {cs : List Char} :
    findName before cs = none ↔ ¬StartsToken cs := by
  constructor
  · rintro hnone ⟨name, rest, hname, rfl⟩
    have hstart : Text.dropStart? marker (marker ++ name ++ rest) = some (name ++ rest) :=
      dropStart?_eq_some_iff.mpr (List.append_assoc ..)
    unfold findName at hnone
    rw [hstart] at hnone
    dsimp only at hnone
    rw [List.takeWhile_append_of_pos hname.chars] at hnone
    obtain ⟨c, taken, rfl⟩ := List.exists_cons_of_ne_nil hname.nonempty
    cases hnone
  · intro hstart
    refine Option.eq_none_iff_forall_ne_some.mpr fun ⟨name, n⟩ hfound => ?_
    obtain ⟨rest, rfl, _ | ⟨hname, -⟩, -⟩ := findName_eq_some_iff.mp hfound
    exact hstart ⟨name.toList, rest, hname, rfl⟩

/-! ### The pieces of a step -/

/-- Pieces that stand where they should are the pieces that the scan gives. -/
theorem piecesFrom_of_splits {ps : List (Text.Piece String)} {cs : List Char} (h : Splits ps cs)
    (before : Option Char) : Text.piecesFrom findName before 0 cs = ps := by
  induction ps generalizing cs before with
  | nil =>
    rw [splits_nil_iff.mp h]
    rfl
  | cons p ps ih =>
    obtain ⟨rest, rfl, hfront, hrest⟩ := splits_cons_iff.mp h
    cases hfront with
    | @kept c _ hstart =>
      change Text.piecesFrom findName before 0 (c :: rest) = _
      rw [Text.piecesFrom, findName_eq_none_iff.mpr hstart]
      exact congrArg _ (ih hrest (some c))
    | @found name _ hname hend =>
      obtain ⟨c, passed, hspelling⟩ : ∃ c passed, spelling (.found name) = c :: passed :=
        ⟨_, _, rfl⟩
      have hfound : findName before (spelling (.found name) ++ rest) =
          some (name, passed.length) :=
        findName_eq_some_iff.mpr ⟨rest, rfl, .found hname hend, by rw [hspelling]; rfl⟩
      rw [hspelling, List.cons_append] at hfound ⊢
      rw [Text.piecesFrom, hfound]
      exact congrArg _ ((Text.piecesFrom_passed _ passed rest).trans (ih hrest _))

/-- Every text can be split. -/
theorem exists_splits (cs : List Char) : ∃ ps, Splits ps cs := by
  -- on the length, since a token is passed over as a whole
  induction hn : cs.length using Nat.strongRecOn generalizing cs with
  | ind n ih =>
    cases hfound : findName none cs with
    | some found =>
      obtain ⟨name, more⟩ := found
      obtain ⟨rest, rfl, hfront, hmore⟩ := findName_eq_some_iff.mp hfound
      obtain ⟨ps, hps⟩ := ih rest.length (by rw [← hn, List.length_append]; omega) rest rfl
      exact ⟨.found name :: ps, splits_cons_iff.mpr ⟨rest, rfl, hfront, hps⟩⟩
    | none =>
      cases cs with
      | nil => exact ⟨[], splits_nil_iff.mpr rfl⟩
      | cons c rest =>
        obtain ⟨ps, hps⟩ := ih rest.length (by rw [← hn]; exact Nat.lt_succ_self _) rest rfl
        exact ⟨.kept c :: ps, splits_cons_iff.mpr
          ⟨rest, rfl, .kept (findName_eq_none_iff.mp hfound), hps⟩⟩

/-- **The pieces of a step** are the ones that stand where they should, and there are no others. -/
theorem pieces_eq_iff {step : String} {ps : List (Text.Piece String)} :
    pieces step = ps ↔ Splits ps step.toList := by
  refine ⟨?_, fun h => piecesFrom_of_splits h none⟩
  rintro rfl
  obtain ⟨ps, hps⟩ := exists_splits step.toList
  have hpieces : pieces step = ps := piecesFrom_of_splits hps none
  exact hpieces ▸ hps

/-- The names that a step uses are those of its tokens. -/
theorem mem_names_iff {step name : String} : name ∈ names step ↔ .found name ∈ pieces step := by
  rw [names, List.mem_filterMap]
  constructor
  · rintro ⟨p, hp, hname⟩
    cases p with
    | found found =>
      obtain rfl := Option.some.inj hname
      exact hp
    | kept c => cases hname
  · exact fun h => ⟨_, h, rfl⟩

end Rollout.InitStep
