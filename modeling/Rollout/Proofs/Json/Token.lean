import Rollout.Proofs.Json.Alike
import Rollout.Proofs.Json.Numeral

/-!
# Tokens

Reading the text of a value without parts gives the value again, whatever stands behind the text, as
long as that does not go on with a token (`ValueEnd`).

* `readText_quoted`: a text between quotes;
* `readScalar_write`: names and numbers. The only ones that are refused are integers with too many
  digits (`Value.Long`). A number that is no number is read as the canonical one.
-/

namespace Rollout

namespace Json

/-! ### Texts -/

theorem hexUnit_unitEscape {n : Nat} (hn : n < 0x20) (rest : List Char) :
    hexUnit? ((unitEscape n).drop 2 ++ rest) = some (n, rest) := by
  interval_cases n <;> rfl

/-- One character between quotes is read as one character. -/
theorem readQuoted_quotedChar (fuel : Nat) (done : List Char) (c : Char) (rest : List Char) :
    readQuoted (fuel + 1) done (quotedChar false c ++ rest) =
      readQuoted fuel (c :: done) rest := by
  unfold quotedChar
  split
  · rfl
  · rfl
  · rfl
  · rfl
  · rfl
  · rfl
  · rfl
  · rename_i hquote hslash _ _ _ _ _
    split
    · rename_i hcontrol
      have hn : c.toNat < 0x20 := by simpa using hcontrol
      have hunit := hexUnit_unitEscape hn rest
      simp only [charEscape, if_pos (show c.toNat < 0x10000 by omega)]
      simp only [unitEscape, List.drop_succ_cons, List.drop_zero] at hunit ⊢
      simp only [List.cons_append, readQuoted] at hunit ⊢
      rw [hunit]
      have hsurrogate : ¬(0xD800 ≤ c.toNat ∧ c.toNat < 0xDC00) := by omega
      have hsurrogate' : ¬(0xDC00 ≤ c.toNat ∧ c.toNat < 0xE000) := by omega
      simp only [unitChar, if_neg hsurrogate, if_neg hsurrogate', Char.ofNat_toNat]
    · rename_i hplain
      have hn : ¬c.toNat < 0x20 := fun h => hplain (.inl h)
      rw [List.singleton_append, readQuoted.eq_def]
      split <;> simp_all

theorem readQuoted_flatMap {fuel : Nat} (done cs rest : List Char) (hfuel : cs.length < fuel) :
    readQuoted fuel done (cs.flatMap (quotedChar false) ++ '"' :: rest) =
      some (done.reverse ++ cs, rest) := by
  induction cs generalizing fuel done with
  | nil =>
    obtain ⟨fuel, rfl⟩ := Nat.exists_eq_succ_of_ne_zero (show fuel ≠ 0 by omega)
    simp [readQuoted]
  | cons c cs ih =>
    obtain ⟨fuel, rfl⟩ := Nat.exists_eq_succ_of_ne_zero (show fuel ≠ 0 by omega)
    rw [List.flatMap_cons, List.append_assoc, readQuoted_quotedChar,
      ih _ (by simpa using hfuel)]
    simp

theorem length_le_flatMap (cs : List Char) :
    cs.length ≤ (cs.flatMap (quotedChar false)).length := by
  induction cs with
  | nil => simp
  | cons c cs ih =>
    have hchar : 0 < (quotedChar false c).length := by
      have hescape (n : Nat) : 0 < (unitEscape n).length := Nat.zero_lt_succ _
      unfold quotedChar
      split
      case h_8 =>
        split
        · simp only [charEscape]
          split
          · exact hescape _
          · rw [List.length_append]
            exact Nat.add_pos_left (hescape _) _
        · exact Nat.one_pos
      all_goals exact Nat.two_pos
    simp only [List.flatMap_cons, List.length_append, List.length_cons]
    omega

/-- A text between quotes is read again. -/
theorem readText_quoted (s : String) (rest : List Char) :
    readText (s.toList.flatMap (quotedChar false) ++ '"' :: rest) = .ok (s, rest) := by
  have hlength := length_le_flatMap s.toList
  rw [readText, readQuoted_flatMap _ _ _ (by simp only [List.length_append]; omega)]
  simp

/-! ### Names and numbers -/

/-- The text behind a value: nothing, a comma, a closing bracket or the end of the line. -/
def ValueEnd (rest : List Char) : Prop :=
  ∀ c, rest.head? = some c → c ∈ [',', ']', '}', '\n']

theorem valueEnd_cons {c : Char} (h : c ∈ [',', ']', '}', '\n']) (rest : List Char) :
    ValueEnd (c :: rest) := by
  intro c' hc
  cases hc
  exact h

theorem ValueEnd.numeral {rest : List Char} (h : ValueEnd rest) : NumeralEnd rest := by
  refine ⟨fun c hc => ?_, fun hc => ?_, fun hc => ?_, fun hc => ?_⟩
  · have hmem := h c hc
    simp only [List.mem_cons, List.not_mem_nil, or_false] at hmem
    obtain rfl | rfl | rfl | rfl := hmem <;> rfl
  · exact absurd (h _ hc) (by decide)
  · exact absurd (h _ hc) (by decide)
  · exact absurd (h _ hc) (by decide)

theorem afterName?_append (name : String) (rest : List Char) :
    afterName? name (name.toList ++ rest) = some rest := by
  rw [afterName?, if_pos (by simp), ← String.length_toList, List.drop_left]

theorem afterName?_of_ne {name : String} {c d : Char} {cs : List Char}
    (hname : name.toList.head? = some d) (h : c ≠ d) : afterName? name (c :: cs) = none := by
  obtain ⟨tail, htail⟩ : ∃ tail, name.toList = d :: tail := by
    cases hn : name.toList with
    | nil => rw [hn] at hname; cases hname
    | cons a tail =>
      rw [hn] at hname
      cases hname
      exact ⟨tail, rfl⟩
  rw [afterName?, htail, if_neg]
  simp [Ne.symm h]

/-- What starts with a digit is read as a number. -/
theorem readScalar_digit {c : Char} {cs : List Char} (hc : c.isDigit = true) :
    readScalar (c :: cs) = readNumber false (c :: cs) := by
  have hne (d : Char) (hd : d.isDigit = false) : c ≠ d := by
    rintro rfl
    rw [hc] at hd
    cases hd
  rw [readScalar, afterName?_of_ne (d := 'n') rfl (hne _ rfl),
    afterName?_of_ne (d := 't') rfl (hne _ rfl), afterName?_of_ne (d := 'f') rfl (hne _ rfl),
    afterName?_of_ne (d := 'N') rfl (hne _ rfl), afterName?_of_ne (d := 'I') rfl (hne _ rfl),
    afterName?_of_ne (d := '-') rfl (hne _ rfl)]
  intro rest hminus
  cases hminus
  exact hne '-' rfl rfl

/-- What starts with a minus sign and a digit is read as a number. -/
theorem readScalar_minus {c : Char} {cs : List Char} (hc : c.isDigit = true) :
    readScalar ('-' :: c :: cs) = readNumber true (c :: cs) := by
  have hinfinity : afterName? "-Infinity" ('-' :: c :: cs) = none := by
    have hne : c ≠ 'I' := by
      rintro rfl
      cases hc
    simp [afterName?, Ne.symm hne]
  rw [readScalar, afterName?_of_ne (d := 'n') rfl (by decide),
    afterName?_of_ne (d := 't') rfl (by decide), afterName?_of_ne (d := 'f') rfl (by decide),
    afterName?_of_ne (d := 'N') rfl (by decide), afterName?_of_ne (d := 'I') rfl (by decide),
    hinfinity]

theorem readScalar_null (rest : List Char) :
    readScalar ("null".toList ++ rest) = .ok (.null, rest) := by
  rw [readScalar.eq_def, afterName?_append]

theorem readScalar_bool (b : Bool) (rest : List Char) :
    readScalar (boolText b ++ rest) = .ok (.bool b, rest) := by
  cases b
  · simp only [boolText, Bool.false_eq_true, if_false]
    have hnull : afterName? "null" ("false".toList ++ rest) = none :=
      afterName?_of_ne (d := 'n') rfl (by decide)
    have htrue : afterName? "true" ("false".toList ++ rest) = none :=
      afterName?_of_ne (d := 't') rfl (by decide)
    rw [readScalar.eq_def, hnull, htrue, afterName?_append]
  · simp only [boolText, if_true]
    have hnull : afterName? "null" ("true".toList ++ rest) = none :=
      afterName?_of_ne (d := 'n') rfl (by decide)
    rw [readScalar.eq_def, hnull, afterName?_append]

theorem readScalar_int (i : Int) {rest : List Char} (h : ValueEnd rest) :
    readScalar (intText i ++ rest) =
      if digitLimit < (Decimal.ofNat i.natAbs).length then
        .error (.tooLong (Decimal.ofNat i.natAbs).length)
      else .ok (.int i, rest) := by
  obtain ⟨c, cs, hcs⟩ := List.exists_cons_of_ne_nil (Decimal.ofNat_ne_nil i.natAbs)
  have hc : c.isDigit = true := Decimal.isDigit_ofNat (n := i.natAbs) (by rw [hcs]; simp)
  cases i with
  | ofNat n =>
    have hread := readNumber_int false n h.numeral
    have hcs : Decimal.ofNat n = c :: cs := hcs
    change readScalar (Decimal.ofNat n ++ rest) =
      if digitLimit < (Decimal.ofNat n).length then .error (.tooLong (Decimal.ofNat n).length)
      else .ok (.int n, rest)
    rw [hcs, List.cons_append] at hread ⊢
    rw [readScalar_digit hc, hread]
    rfl
  | negSucc n =>
    have hread := readNumber_int true (n + 1) h.numeral
    have hcs : Decimal.ofNat (n + 1) = c :: cs := hcs
    change readScalar ('-' :: Decimal.ofNat (n + 1) ++ rest) =
      if digitLimit < (Decimal.ofNat (n + 1)).length then
        .error (.tooLong (Decimal.ofNat (n + 1)).length)
      else .ok (.int (Int.negSucc n), rest)
    rw [List.cons_append]
    rw [hcs, List.cons_append] at hread ⊢
    rw [readScalar_minus hc, hread]
    rfl

theorem readScalar_float (x : Binary64) {rest : List Char} (h : ValueEnd rest) :
    readScalar (floatText x ++ rest) = .ok (.float x.canonical, rest) := by
  unfold floatText Binary64.canonical
  cases hx : x.reading with
  | notANumber =>
    have hname (name : String) (d : Char) (hname : name.toList.head? = some d) (hne : 'N' ≠ d) :
        afterName? name ("NaN".toList ++ rest) = none := afterName?_of_ne hname hne
    simp only [if_true]
    rw [readScalar.eq_def, hname "null" 'n' rfl (by decide), hname "true" 't' rfl (by decide),
      hname "false" 'f' rfl (by decide), afterName?_append]
  | infinite negative =>
    obtain rfl := Binary64.of_reading_infinite hx
    simp only [reduceCtorEq, if_false]
    cases negative
    · have hname (name : String) (d : Char) (hname : name.toList.head? = some d) (hne : 'I' ≠ d) :
          afterName? name ("Infinity".toList ++ rest) = none := afterName?_of_ne hname hne
      simp only [Bool.false_eq_true, if_false]
      rw [readScalar.eq_def, hname "null" 'n' rfl (by decide), hname "true" 't' rfl (by decide),
        hname "false" 'f' rfl (by decide), hname "NaN" 'N' rfl (by decide), afterName?_append]
    · have hname (name : String) (d : Char) (hname : name.toList.head? = some d) (hne : '-' ≠ d) :
          afterName? name ("-Infinity".toList ++ rest) = none := afterName?_of_ne hname hne
      simp only [if_true]
      rw [readScalar.eq_def, hname "null" 'n' rfl (by decide), hname "true" 't' rfl (by decide),
        hname "false" 'f' rfl (by decide), hname "NaN" 'N' rfl (by decide),
        hname "Infinity" 'I' rfl (by decide), afterName?_append]
  | finite negative m q =>
    have hread := readNumber_finiteText hx h.numeral
    obtain ⟨c, cs, htext, hc⟩ := finiteText_cons m q
    simp only [reduceCtorEq, if_false, Binary64.text, hx, String.toList_ofList]
    rw [htext, List.cons_append] at hread
    cases negative
    · simp only [Bool.false_eq_true, if_false, List.nil_append]
      rw [htext, List.cons_append, readScalar_digit hc, hread]
    · simp only [if_true, List.cons_append, List.nil_append]
      rw [htext, List.cons_append, readScalar_minus hc, hread]

end Json

end Rollout
