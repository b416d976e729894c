import Mathlib.Data.List.Forall2
import Mathlib.Data.List.TakeWhile
import Rollout.Proofs.Text.Scan
import Rollout.View.Wording

/-!
# Where a message holds a credential

A secret word, in any letter case, announces a credential if a sign follows it, a colon or an equals
sign with blanks around it. What is announced is the next word: everything up to the next blank, and
nothing behind that. This is said here without the scan, by taking a text apart, and shown to be what
the scan for credentials finds.

**Types.** `Blank`, `Solid`, `Parted`, `SecretWord`, `Announces`.

**Results.**
* `credentialLength?_eq_some_iff`: the sign and the word behind it;
* `findSecret_eq_some_iff`: what the scan finds.
-/

namespace Rollout.View

open Rollout.Text (isBlank isWordChar inRanges)

/-- Blanks and nothing else. -/
def Blank (cs : List Char) : Prop := ∀ c ∈ cs, isBlank c = true

/-- A word in the eyes of the scan: no blanks, and not nothing. -/
structure Solid (cs : List Char) : Prop where
  nonempty : cs ≠ []
  solid : ∀ c ∈ cs, isBlank c = false

instance (cs : List Char) : Decidable (Solid cs) :=
  decidable_of_iff (cs ≠ [] ∧ cs.all (fun c => !isBlank c) = true)
    ⟨fun h => ⟨h.1, fun c hc => by simpa using List.all_eq_true.mp h.2 c hc⟩,
      fun h => ⟨h.1, List.all_eq_true.mpr fun c hc => by simpa using h.2 c hc⟩⟩

/-- What follows a word: nothing, or something that begins with a blank. -/
def Parted (cs : List Char) : Prop := ∀ c, cs.head? = some c → isBlank c = true

/-- The signs between a secret word and its credential. -/
def IsSign (c : Char) : Prop := c = ':' ∨ c = '='

/-- A secret word in any letter case. -/
def SecretWord (kw : List Char) : Prop :=
  ∃ word ∈ secretWords, List.Forall₂ (fun l c => sameLetter l c = true) word.toList kw

/-- A secret word with a sign behind it, and blanks around the sign. -/
inductive Announces (kw : List Char) : List Char → Prop
  | intro (gap gap' : List Char) (sign : Char) (hkw : SecretWord kw) (hgap : Blank gap)
      (hsign : IsSign sign) (hgap' : Blank gap') : Announces kw (kw ++ (gap ++ sign :: gap'))

/-! ### Characters -/

theorem IsSign.not_blank {c : Char} (h : IsSign c) : isBlank c = false := by
  rcases h with rfl | rfl <;> decide

theorem IsSign.not_wordChar {c : Char} (h : IsSign c) : isWordChar c = false := by
  rcases h with rfl | rfl <;> decide

theorem forall_ascii {P : Char → Prop} (h : ∀ n < 0x80, P (Char.ofNat n)) {c : Char}
    (hc : c.toNat < 0x80) : P c := by
  rw [← Char.ofNat_toNat c]
  exact h _ hc

theorem inRanges_disjoint {ranges others : List (Nat × Nat)}
    (h : ∀ r ∈ ranges, ∀ r' ∈ others, r.2 < r'.1 ∨ r'.2 < r.1) {n : Nat}
    (hn : inRanges ranges n = true) : inRanges others n = false := by
  obtain ⟨r, hr, hin⟩ := List.any_eq_true.mp hn
  rw [inRanges, List.any_eq_false]
  intro r' hr' hin'
  rw [Bool.and_eq_true, decide_eq_true_eq, decide_eq_true_eq] at hin hin'
  have hapart := h r hr r' hr'
  omega

/-- A blank is no part of a word. -/
theorem not_wordChar_of_blank {c : Char} (h : isBlank c = true) : isWordChar c = false := by
  by_cases hc : c.toNat < 0x80
  · revert h
    exact forall_ascii (P := fun c => isBlank c = true → isWordChar c = false)
      (by decide +kernel) hc
  · rw [isWordChar, if_neg hc]
    exact inRanges_disjoint (by decide +kernel) (h : inRanges Text.blankRanges c.toNat = true)

theorem toLower_of_not_ascii {c : Char} (hc : ¬c.toNat < 0x80) : c.toLower = c := by
  have hnot : ¬(c.val ≥ 'A'.val ∧ c.val ≤ 'Z'.val) := by
    rintro ⟨-, h⟩
    exact hc (Nat.lt_of_le_of_lt (UInt32.le_iff_toNat_le.mp h) (by decide))
  exact dif_neg hnot

theorem forall_letters {P : Char → Prop} [DecidablePred P]
    (h : secretWords.all (fun word => word.toList.all fun l => decide (P l)) = true) {word : String}
    (hw : word ∈ secretWords) {l : Char} (hl : l ∈ word.toList) : P l :=
  of_decide_eq_true (List.all_eq_true.mp (List.all_eq_true.mp h word hw) l hl)

/-- Every form of a letter of a secret word is a part of a word. -/
theorem wordChar_of_sameLetter {word : String} (hw : word ∈ secretWords) {l c : Char}
    (hl : l ∈ word.toList) (h : sameLetter l c = true) : isWordChar c = true := by
  by_cases hc : c.toNat < 0x80
  · have hascii : ∀ n < 0x80,
        sameLetter l (Char.ofNat n) = true → isWordChar (Char.ofNat n) = true :=
      forall_letters (P := fun l => ∀ n < 0x80,
        sameLetter l (Char.ofNat n) = true → isWordChar (Char.ofNat n) = true)
        (by decide +kernel) hw hl
    revert h
    exact forall_ascii (P := fun c => sameLetter l c = true → isWordChar c = true) hascii hc
  · have hsmall : l.toNat < 0x80 :=
      forall_letters (P := fun l => l.toNat < 0x80) (by decide +kernel) hw hl
    have hforms : ∀ n ∈ [0x17F, 0x212A, 0x130, 0x131], isWordChar (Char.ofNat n) = true := by
      decide +kernel
    rw [← Char.ofNat_toNat c]
    refine hforms _ ?_
    simp only [sameLetter, toLower_of_not_ascii hc, Bool.or_eq_true, Bool.and_eq_true,
      beq_iff_eq] at h
    rcases h with ((rfl | ⟨-, h⟩) | ⟨-, h⟩) | ⟨-, h⟩
    · exact absurd hsmall hc
    · simp [h]
    · simp [h]
    · simpa using Or.inr (Or.inr h)

/-! ### Secret words -/

theorem SecretWord.wordChar {kw : List Char} (h : SecretWord kw) : ∀ c ∈ kw, isWordChar c = true := by
  obtain ⟨word, hw, hsame⟩ := h
  intro c hc
  obtain ⟨i, hi, rfl⟩ := List.mem_iff_getElem.mp hc
  have hi' : i < word.toList.length := by rwa [hsame.length_eq]
  exact wordChar_of_sameLetter hw (List.getElem_mem hi') ((List.forall₂_iff_get.mp hsame).2 i hi' hi)

theorem SecretWord.not_blank {kw : List Char} (h : SecretWord kw) :
    ∀ c ∈ kw, isBlank c = false := by
  intro c hc
  cases hb : isBlank c with
  | false => rfl
  | true =>
    have hword := h.wordChar c hc
    rw [not_wordChar_of_blank hb] at hword
    cases hword

theorem SecretWord.nonempty {kw : List Char} (h : SecretWord kw) : kw ≠ [] := by
  obtain ⟨word, hw, hsame⟩ := h
  have hwords : ∀ word ∈ secretWords, word.toList ≠ [] := by decide
  rintro rfl
  exact hwords word hw (List.forall₂_nil_right_iff.mp hsame)

/-! ### What is found -/

theorem afterWord?_eq_some_iff {word cs rest : List Char} :
    afterWord? word cs = some rest ↔
      ∃ kw, cs = kw ++ rest ∧ List.Forall₂ (fun l c => sameLetter l c = true) word kw := by
  induction word generalizing cs with
  | nil =>
    rw [afterWord?, Option.some.injEq]
    constructor
    · rintro rfl
      exact ⟨[], rfl, .nil⟩
    · rintro ⟨kw, rfl, hsame⟩
      cases hsame
      rfl
  | cons l word ih =>
    cases cs with
    | nil =>
      simp only [afterWord?, reduceCtorEq, false_iff]
      rintro ⟨kw, heq, hsame⟩
      rw [(List.append_eq_nil_iff.mp heq.symm).1] at hsame
      cases hsame
    | cons c cs =>
      rw [afterWord?]
      constructor
      · intro h
        split at h
        · rename_i hc
          obtain ⟨kw, rfl, hsame⟩ := ih.mp h
          exact ⟨c :: kw, rfl, .cons hc hsame⟩
        · cases h
      · rintro ⟨kw, heq, hsame⟩
        cases hsame with
        | cons hc hsame =>
          obtain ⟨rfl, rfl⟩ := List.cons.inj heq
          rw [if_pos hc]
          exact ih.mpr ⟨_, rfl, hsame⟩

theorem parted_dropWhile (cs : List Char) : Parted (cs.dropWhile fun c => !isBlank c) := by
  intro c hc
  simpa using Text.of_head?_dropWhile hc

/-- **The sign and the word behind it**, as far as the next blank. -/
theorem credentialLength?_eq_some_iff {cs : List Char} {n : Nat} :
    credentialLength? cs = some n ↔ ∃ gap sign gap' body rest,
      cs = gap ++ sign :: (gap' ++ (body ++ rest)) ∧ Blank gap ∧ IsSign sign ∧ Blank gap' ∧
        Solid body ∧ Parted rest ∧ n = gap.length + 1 + gap'.length + body.length := by
  constructor
  · intro h
    simp only [credentialLength?] at h
    split at h
    · rename_i sign rest hsign
      split at h
      · rename_i his
        split at h
        · cases h
        · rename_i hbody
          have hblank (cs : List Char) : Blank (cs.takeWhile isBlank) :=
            fun c hc => List.mem_takeWhile_imp hc
          refine ⟨_, sign, _, _, _, ?_, hblank cs, his, hblank rest, ⟨hbody, ?_⟩,
            parted_dropWhile (rest.dropWhile isBlank), (Option.some.inj h).symm⟩
          · rw [List.takeWhile_append_dropWhile, List.takeWhile_append_dropWhile, ← hsign,
              List.takeWhile_append_dropWhile]
          · intro c hc
            simpa using List.mem_takeWhile_imp hc
      · cases h
    · cases h
  · rintro ⟨gap, sign, gap', body, rest, rfl, hgap, hsign, hgap', hbody, hrest, rfl⟩
    have hsign' : ∀ c, (sign :: (gap' ++ (body ++ rest))).head? = some c → isBlank c = false := by
      rintro c ⟨⟩
      exact hsign.not_blank
    have hbody' : ∀ c, (body ++ rest).head? = some c → isBlank c = false := by
      intro c hc
      rw [List.head?_append_of_ne_nil _ hbody.nonempty] at hc
      exact hbody.solid c (List.mem_of_mem_head? hc)
    have hend : (body ++ rest).takeWhile (fun c => !isBlank c) = body :=
      Text.takeWhile_append_of_head (fun c hc => by simp [hbody.solid c hc])
        fun c hc => by simp [hrest c hc]
    have hnil := hbody.nonempty
    simp only [credentialLength?, Text.takeWhile_append_of_head hgap hsign',
      Text.dropWhile_append_of_head hgap hsign', Text.takeWhile_append_of_head hgap' hbody',
      Text.dropWhile_append_of_head hgap' hbody', hend]
    exact if_pos hsign

/-- No word goes on behind a character. -/
def StartsWord (before : Option Char) : Prop := ∀ c, before = some c → isWordChar c = false

theorem startsWord_iff {before : Option Char} :
    StartsWord before ↔ (before.map isWordChar).getD false = false := by
  cases before <;> simp [StartsWord]

/-- A secret word ends in front of its sign. -/
theorem startsWord_sign {gap : List Char} {sign : Char} (rest : List Char) (hgap : Blank gap)
    (hsign : IsSign sign) : StartsWord (gap ++ sign :: rest).head? := by
  intro c hc
  cases gap with
  | nil =>
    obtain rfl := Option.some.inj hc
    exact hsign.not_wordChar
  | cons x gap =>
    obtain rfl := Option.some.inj hc
    exact not_wordChar_of_blank (hgap x List.mem_cons_self)

/-- What the scan makes of a place where a secret word may start. -/
def secretAt? (cs : List Char) (word : String) : Option (List Char × Nat) :=
  match afterWord? word.toList cs with
  | some rest =>
    if (rest.head?.map isWordChar).getD false then none
    else (credentialLength? rest).map fun n => (cs.take word.length, word.length + n - 1)
  | none => none

theorem findSecret_eq (before : Option Char) (cs : List Char) :
    findSecret before cs =
      if (before.map isWordChar).getD false then none else secretWords.findSome? (secretAt? cs) :=
  rfl

theorem secretAt?_eq_some_iff {cs kw : List Char} {word : String} {n : Nat} :
    secretAt? cs word = some (kw, n) ↔ ∃ rest m, cs = kw ++ rest ∧
      List.Forall₂ (fun l c => sameLetter l c = true) word.toList kw ∧ StartsWord rest.head? ∧
        credentialLength? rest = some m ∧ n = kw.length + m - 1 := by
  unfold secretAt?
  constructor
  · intro h
    split at h
    · rename_i rest hafter
      split at h
      · cases h
      · rename_i hstarts
        obtain ⟨m, hm, heq⟩ := Option.map_eq_some_iff.mp h
        obtain ⟨kw', rfl, hsame⟩ := afterWord?_eq_some_iff.mp hafter
        have hlength : word.length = kw'.length := by rw [← String.length_toList, hsame.length_eq]
        rw [hlength, List.take_left] at heq
        obtain ⟨rfl, rfl⟩ := Prod.mk.inj heq
        exact ⟨rest, m, rfl, hsame, startsWord_iff.mpr (by simpa using hstarts), hm, rfl⟩
    · cases h
  · rintro ⟨rest, m, rfl, hsame, hstarts, hm, rfl⟩
    have hlength : word.length = kw.length := by rw [← String.length_toList, hsame.length_eq]
    rw [afterWord?_eq_some_iff.mpr ⟨kw, rfl, hsame⟩]
    simp only [startsWord_iff.mp hstarts, hm, Option.map_some, hlength, List.take_left]
    rfl

/-- At most one secret word starts at a place, since it is as long as the word that starts there. -/
theorem secretAt?_unique {cs : List Char} {word word' : String} (hw : word ∈ secretWords)
    (hw' : word' ∈ secretWords) {found found' : List Char × Nat}
    (h : secretAt? cs word = some found) (h' : secretAt? cs word' = some found') :
    found = found' := by
  obtain ⟨kw, n⟩ := found
  obtain ⟨kw', n'⟩ := found'
  obtain ⟨rest, m, rfl, hsame, hstarts, hm, rfl⟩ := secretAt?_eq_some_iff.mp h
  obtain ⟨rest', m', hcs, hsame', hstarts', hm', rfl⟩ := secretAt?_eq_some_iff.mp h'
  have hkw : SecretWord kw := ⟨word, hw, hsame⟩
  have hkw' : SecretWord kw' := ⟨word', hw', hsame'⟩
  obtain rfl : kw = kw' := by
    rw [← Text.takeWhile_append_of_head hkw.wordChar hstarts, hcs,
      Text.takeWhile_append_of_head hkw'.wordChar hstarts']
  obtain rfl := List.append_cancel_left hcs
  rw [hm, Option.some.injEq] at hm'
  rw [hm']

theorem findSome?_secretAt?_iff {cs : List Char} {found : List Char × Nat} :
    secretWords.findSome? (secretAt? cs) = some found ↔
      ∃ word ∈ secretWords, secretAt? cs word = some found := by
  refine ⟨List.exists_of_findSome?_eq_some, ?_⟩
  rintro ⟨word, hword, hat⟩
  cases hfound : secretWords.findSome? (secretAt? cs) with
  | none =>
    rw [List.findSome?_eq_none_iff.mp hfound word hword] at hat
    cases hat
  | some found' =>
    obtain ⟨word', hword', hat'⟩ := List.exists_of_findSome?_eq_some hfound
    rw [secretAt?_unique hword' hword hat' hat]

/-- **What the scan finds** is a secret word that no other word is joined to, with the sign that
announces a credential, and the word that is announced. -/
theorem findSecret_eq_some_iff {before : Option Char} {cs kw : List Char} {n : Nat} :
    findSecret before cs = some (kw, n) ↔ StartsWord before ∧ ∃ lead body rest,
      cs = lead ++ (body ++ rest) ∧ Announces kw lead ∧ Solid body ∧ Parted rest ∧
        n + 1 = lead.length + body.length := by
  rw [findSecret_eq, Option.ite_none_left_eq_some, findSome?_secretAt?_iff, startsWord_iff,
    Bool.not_eq_true]
  refine and_congr_right fun _ => ⟨?_, ?_⟩
  · rintro ⟨word, hword, hat⟩
    obtain ⟨behind, m, rfl, hsame, -, hm, rfl⟩ := secretAt?_eq_some_iff.mp hat
    obtain ⟨gap, sign, gap', body, rest, rfl, hgap, hsign, hgap', hbody, hrest, rfl⟩ :=
      credentialLength?_eq_some_iff.mp hm
    refine ⟨kw ++ (gap ++ sign :: gap'), body, rest, by simp,
      .intro _ _ _ ⟨word, hword, hsame⟩ hgap hsign hgap', hbody, hrest, ?_⟩
    simp only [List.length_append, List.length_cons]
    omega
  · rintro ⟨lead, body, rest, rfl, ⟨gap, gap', sign, ⟨word, hword, hsame⟩, hgap, hsign, hgap'⟩,
      hbody, hrest, hn⟩
    have hm := credentialLength?_eq_some_iff.mpr
      ⟨gap, sign, gap', body, rest, rfl, hgap, hsign, hgap', hbody, hrest, rfl⟩
    refine ⟨word, hword, secretAt?_eq_some_iff.mpr ⟨gap ++ sign :: (gap' ++ (body ++ rest)), _,
      by simp, hsame, startsWord_sign _ hgap hsign, hm, ?_⟩⟩
    simp only [List.length_append, List.length_cons] at hn
    omega

end Rollout.View
