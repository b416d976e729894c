import Rollout.Json.Reader

/-!
# Texts that are too much for the reader

A reader takes characters from the front of a text and leaves the rest. It gives up on a text for
its size only if the text has more opening brackets than may be open at the same time, or a run of
digits that is longer than an integer may be; whatever else is wrong with a text makes it malformed.

**Types.** `Json.Excessive`, `Json.Within`.

**Results.**
* `Json.within_readers`: what values, items and entries are read from, and why they are not;
* `Json.excessive_read`: why a text is not read.
-/

namespace Rollout.Json

/-- The number of opening brackets in a text. -/
def brackets (cs : List Char) : Nat := cs.countP fun c => c == '[' || c == '{'

/-- What is the matter with a text that cannot be read while some brackets are open. -/
inductive Excessive (depth : Nat) (cs : List Char) : ReadError → Prop
  | malformed : Excessive depth cs .malformed
  | tooDeep (h : depthLimit < depth + brackets cs) : Excessive depth cs .tooDeep
  | tooLong {run : List Char} (hrun : run <:+: cs) (hdigits : ∀ c ∈ run, c.isDigit = true)
    (h : digitLimit < run.length) : Excessive depth cs (.tooLong run.length)

/-- A text is read up to some place, or it is too much. -/
def Within {α : Type} (depth : Nat) (cs : List Char) : Except ReadError (α × List Char) → Prop
  | .ok (_, rest) => rest <:+ cs
  | .error reason => Excessive depth cs reason

section

variable {α β : Type} {depth depth' : Nat} {cs cs' : List Char}

theorem brackets_le_of_suffix (h : cs' <:+ cs) : brackets cs' ≤ brackets cs :=
  h.sublist.countP_le

/-- What is too much for the end of a text is too much for the text, in which more brackets may
still be opened. -/
theorem Excessive.of_suffix {reason : ReadError} (h : Excessive depth' cs' reason)
    (hsuffix : cs' <:+ cs) (hdepth : depth' + brackets cs' ≤ depth + brackets cs) :
    Excessive depth cs reason := by
  cases h with
  | malformed => exact .malformed
  | tooDeep hdeep => exact .tooDeep (Nat.lt_of_lt_of_le hdeep hdepth)
  | tooLong hrun hdigits hlong => exact .tooLong (hrun.trans hsuffix.isInfix) hdigits hlong

theorem Within.of_suffix {attempt : Except ReadError (α × List Char)}
    (h : Within depth' cs' attempt) (hsuffix : cs' <:+ cs)
    (hdepth : depth' + brackets cs' ≤ depth + brackets cs) : Within depth cs attempt := by
  cases attempt with
  | ok result => exact List.IsSuffix.trans h hsuffix
  | error reason => exact Excessive.of_suffix h hsuffix hdepth

/-- Reading the end of a text. -/
theorem Within.suffix {attempt : Except ReadError (α × List Char)} (h : Within depth cs' attempt)
    (hsuffix : cs' <:+ cs) : Within depth cs attempt :=
  h.of_suffix hsuffix (Nat.add_le_add_left (brackets_le_of_suffix hsuffix) depth)

/-- Reading on behind what has been read. -/
theorem Within.bind {x : Except ReadError (α × List Char)}
    {f : α × List Char → Except ReadError (β × List Char)} (hx : Within depth cs x)
    (hf : ∀ a rest, rest <:+ cs → Within depth cs (f (a, rest))) : Within depth cs (x >>= f) := by
  cases x with
  | error reason => exact hx
  | ok result => exact hf result.1 result.2 hx

theorem skipBlanks_suffix (cs : List Char) : skipBlanks cs <:+ cs := List.dropWhile_suffix _

/-- The text behind the blanks starts with a character. -/
theorem suffix_of_skipBlanks {c : Char} {rest : List Char} (h : skipBlanks cs = c :: rest) :
    rest <:+ cs :=
  (List.suffix_cons c rest).trans (h ▸ skipBlanks_suffix cs)

/-! ### Texts and numbers -/

theorem hexUnit?_suffix {unit : Nat} {rest : List Char} (h : hexUnit? cs = some (unit, rest)) :
    rest <:+ cs := by
  unfold hexUnit? at h
  split at h
  · rename_i a b c d more
    simp only [bind, Option.bind_eq_some_iff, pure, Option.some.injEq, Prod.mk.injEq] at h
    obtain ⟨-, -, -, -, -, -, -, -, -, rfl⟩ := h
    exact ⟨[a, b, c, d], rfl⟩
  · cases h

theorem unitChar_suffix (unit : Nat) (rest : List Char) : (unitChar unit rest).2 <:+ rest := by
  unfold unitChar
  split
  · split
    · split
      · rename_i more low after hlow
        split
        · exact (hexUnit?_suffix hlow).trans ⟨['\\', 'u'], rfl⟩
        · exact List.suffix_refl _
      · exact List.suffix_refl _
    · exact List.suffix_refl _
  · split <;> exact List.suffix_refl _

theorem readQuoted_suffix {fuel : Nat} {done text rest : List Char}
    (h : readQuoted fuel done cs = some (text, rest)) : rest <:+ cs := by
  fun_induction readQuoted fuel done cs with
  | case1 | case2 | case12 | case14 | case15 => cases h
  | case3 fuel done more =>
    obtain ⟨-, rfl⟩ := Prod.mk.inj (Option.some.inj h)
    exact List.suffix_cons _ more
  | case13 fuel done more unit after hunit c last hchar ih =>
    have hlast : last <:+ after := by
      have hsuffix := unitChar_suffix unit after
      rwa [hchar] at hsuffix
    exact (ih h).trans (hlast.trans ((hexUnit?_suffix hunit).trans ⟨['\\', 'u'], rfl⟩))
  | case16 fuel done c more _ _ _ _ _ _ _ _ _ _ _ _ ih =>
    exact (ih h).trans (List.suffix_cons c more)
  | _ _ _ more ih => exact (ih h).trans ((List.suffix_cons _ more).trans (List.suffix_cons _ _))

theorem within_readText (depth : Nat) (cs : List Char) : Within depth cs (readText cs) := by
  unfold readText
  split
  · rename_i h
    exact readQuoted_suffix h
  · exact .malformed

theorem readFraction_suffix {digits rest : List Char} (h : readFraction cs = some (digits, rest)) :
    rest <:+ cs := by
  unfold readFraction at h
  split at h
  · split at h
    · cases h
    · obtain ⟨-, rfl⟩ := Prod.mk.inj (Option.some.inj h)
      exact (List.dropWhile_suffix _).trans (List.suffix_cons _ _)
  · cases h

theorem readExponent_suffix {e : Int} {rest : List Char} (h : readExponent cs = some (e, rest)) :
    rest <:+ cs := by
  unfold readExponent at h
  split at h
  -- the two ways to write the mark of an exponent
  any_goals
    rename_i more
    split at h
    rename_i negative unsigned hsigned
    have hsuffix : unsigned <:+ more := by
      split at hsigned
      · exact (Prod.mk.inj hsigned).2 ▸ List.suffix_cons _ _
      · exact (Prod.mk.inj hsigned).2 ▸ List.suffix_cons _ _
      · exact (Prod.mk.inj hsigned).2 ▸ List.suffix_refl _
    split at h
    · cases h
    · obtain ⟨-, rfl⟩ := Prod.mk.inj (Option.some.inj h)
      exact (List.dropWhile_suffix _).trans (hsuffix.trans (List.suffix_cons _ _))
  cases h

theorem within_readNumber (depth : Nat) (negative : Bool) (cs : List Char) :
    Within depth cs (readNumber negative cs) := by
  -- a leading zero ends the digits
  have hwhole : ∀ whole, whole = (if (cs.takeWhile Char.isDigit).head? = some '0' then ['0']
      else cs.takeWhile Char.isDigit) → digitLimit < whole.length →
        whole <:+: cs ∧ ∀ c ∈ whole, c.isDigit = true := by
    rintro whole rfl hlong
    split at hlong
    · exact absurd hlong (by decide)
    · rename_i hzero
      rw [if_neg hzero]
      exact ⟨(List.takeWhile_prefix _).isInfix, List.all_eq_true.mp List.all_takeWhile⟩
  unfold readNumber
  dsimp only
  generalize hdef : (if (cs.takeWhile Char.isDigit).head? = some '0' then ['0']
      else cs.takeWhile Char.isDigit) = whole
  have hrest : cs.drop whole.length <:+ cs := List.drop_suffix _ _
  generalize cs.drop whole.length = rest at hrest ⊢
  have hfraction : ((readFraction rest).getD ([], rest)).2 <:+ cs := by
    cases hread : readFraction rest with
    | none => exact hrest
    | some found => exact (readFraction_suffix hread).trans hrest
  split
  · exact .malformed
  · split
    · split
      · rename_i hlong
        obtain ⟨hrun, hdigits⟩ := hwhole whole hdef.symm hlong
        exact .tooLong hrun hdigits hlong
      · exact hrest
    · generalize ((readFraction rest).getD ([], rest)).2 = more at hfraction ⊢
      cases hread : readExponent more with
      | none => exact hfraction
      | some found => exact (readExponent_suffix hread).trans hfraction

theorem afterName?_suffix {name : String} {rest : List Char} (h : afterName? name cs = some rest) :
    rest <:+ cs := by
  unfold afterName? at h
  split at h
  · exact Option.some.inj h ▸ List.drop_suffix _ _
  · cases h

theorem within_readScalar (depth : Nat) (cs : List Char) : Within depth cs (readScalar cs) := by
  unfold readScalar
  -- the six names in turn, then a number
  iterate 6
    split
    · rename_i h
      exact afterName?_suffix h
  split
  · exact (within_readNumber depth true _).suffix (List.suffix_cons _ _)
  · exact within_readNumber depth false cs

/-! ### Values -/

/-- A bracket is opened if there may be one more. -/
theorem Within.bracket {α : Type} {c : Char} {rest : List Char}
    {attempt : Except ReadError (α × List Char)} (hc : c = '[' ∨ c = '\x7b')
    (h : depth < depthLimit → Within (depth + 1) rest attempt) :
    Within depth (c :: rest) (if depthLimit ≤ depth then .error .tooDeep else attempt) := by
  have hbrackets : brackets (c :: rest) = brackets rest + 1 := by
    rcases hc with rfl | rfl
    · exact List.countP_cons_of_pos rfl
    · exact List.countP_cons_of_pos rfl
  split
  · rename_i hdeep
    exact Excessive.tooDeep (by omega)
  · rename_i hdeep
    exact (h (Nat.lt_of_not_le hdeep)).of_suffix (List.suffix_cons c rest) (by omega)

/-- A value, items and entries are read from the front of a text, or the text is too much. -/
theorem within_readers (fuel : Nat) :
    (∀ depth cs, Within depth cs (readValue fuel depth cs)) ∧
      (∀ depth cs, Within depth cs (readItems fuel depth cs)) ∧
      ∀ depth done cs, Within depth cs (readEntries fuel depth done cs) := by
  induction fuel with
  | zero => exact ⟨fun _ _ => .malformed, fun _ _ => .malformed, fun _ _ _ => .malformed⟩
  | succ fuel ih =>
    obtain ⟨ihv, ihi, ihe⟩ := ih
    refine ⟨fun depth cs => ?_, fun depth cs => ?_, fun depth done cs => ?_⟩
    · unfold readValue
      split
      · refine ((within_readText depth _).suffix (List.suffix_cons _ _)).bind fun _ _ h => h
      · refine Within.bracket (.inl rfl) fun _ => ?_
        split
        · rename_i h
          exact suffix_of_skipBlanks h
        · refine ((ihi _ _).suffix (skipBlanks_suffix _)).bind fun _ _ h => h
      · refine Within.bracket (.inr rfl) fun _ => ?_
        split
        · rename_i h
          exact suffix_of_skipBlanks h
        · refine ((ihe _ _ _).suffix (skipBlanks_suffix _)).bind fun _ _ h => h
      · exact within_readScalar depth cs
    · unfold readItems
      refine (ihv depth cs).bind fun first rest hrest => ?_
      dsimp only
      split
      · rename_i h
        exact (suffix_of_skipBlanks h).trans hrest
      · rename_i h
        refine ((ihi depth _).suffix ?_).bind fun _ _ h => h
        exact (skipBlanks_suffix _).trans ((suffix_of_skipBlanks h).trans hrest)
      · exact .malformed
    · unfold readEntries
      split
      · refine ((within_readText depth _).suffix (List.suffix_cons _ _)).bind fun key rest hrest =>
          ?_
        dsimp only
        split
        · rename_i h
          have hvalue := (skipBlanks_suffix _).trans ((suffix_of_skipBlanks h).trans hrest)
          refine ((ihv depth _).suffix hvalue).bind fun value rest hrest => ?_
          dsimp only
          split
          · rename_i h
            exact (suffix_of_skipBlanks h).trans hrest
          · rename_i h
            exact (ihe depth _ _).suffix
              ((skipBlanks_suffix _).trans ((suffix_of_skipBlanks h).trans hrest))
          · exact .malformed
        · exact .malformed
      · exact .malformed

/-- **A text that is not read** is malformed, or it is too much: it has more opening brackets than
may be open, or a run of digits that is too long. -/
theorem excessive_read {text : String} {reason : ReadError} (h : read text = .error reason) :
    Excessive 0 text.toList reason := by
  have hread := ((within_readers ((skipBlanks text.toList).length + 1)).1 0
    (skipBlanks text.toList)).suffix (skipBlanks_suffix text.toList)
  unfold read at h
  dsimp only at h
  cases hvalue : readValue ((skipBlanks text.toList).length + 1) 0 (skipBlanks text.toList) with
  | error other =>
    rw [hvalue] at h hread
    obtain rfl : other = reason := Except.error.inj h
    exact hread
  | ok result =>
    rw [hvalue] at h
    change (if (skipBlanks result.2).isEmpty then Except.ok result.1 else .error .malformed) =
      Except.error reason at h
    split at h
    · cases h
    · obtain rfl := Except.error.inj h
      exact .malformed

end

end Rollout.Json
