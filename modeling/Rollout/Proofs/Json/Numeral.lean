import Rollout.Proofs.Number.Shortest
import Rollout.Proofs.Text.Scan

/-!
# Numerals

Reading the text of a number gives the number again, whatever stands behind it, as long as the text
does not go on with a character of a numeral (`NumeralEnd`).

A decimal numeral has a whole part, digits after the point and an exponent, of which either of the
last two may be missing. `readNumber_decimal` reads it in general, and `finiteText_shape` says that
both the positional and the scientific form of a finite number are such numerals, with a value that
rounds to the number.
-/

namespace Rollout.Json

open Decimal (Significant zeros exponentText ofNat)
open Binary64 (Near Represented magnitudeOf)

/-- The text behind a numeral, which does not continue it. -/
structure NumeralEnd (rest : List Char) : Prop where
  digit : ∀ c, rest.head? = some c → c.isDigit = false
  point : rest.head? ≠ some '.'
  lower : rest.head? ≠ some 'e'
  upper : rest.head? ≠ some 'E'

/-! ### The parts of a numeral -/

/-- The digits after the point, with the point, if there are any. -/
def fractionText (fraction : List Char) : List Char :=
  if fraction = [] then [] else '.' :: fraction

/-- The exponent, with its mark, if there is one. -/
def weightText : Option Int → List Char
  | none => []
  | some e => 'e' :: exponentText e

theorem readFraction_text {fraction rest : List Char}
    (hdigits : ∀ c ∈ fraction, c.isDigit = true)
    (hdigit : ∀ c, rest.head? = some c → c.isDigit = false) (hpoint : rest.head? ≠ some '.') :
    (readFraction (fractionText fraction ++ rest)).getD ([], fractionText fraction ++ rest) =
      (fraction, rest) := by
  obtain rfl | hne := eq_or_ne fraction []
  · cases rest with
    | nil => rfl
    | cons c rest =>
      have hc : c ≠ '.' := fun h => hpoint (congrArg some h)
      simp [fractionText, readFraction, hc]
  · simp only [fractionText, if_neg hne, List.cons_append, readFraction,
      Text.takeWhile_append_of_head hdigits hdigit, Text.dropWhile_append_of_head hdigits hdigit]
    cases fraction with
    | nil => exact absurd rfl hne
    | cons c fraction => rfl

theorem readExponent_some (e : Int) {rest : List Char}
    (hrest : ∀ c, rest.head? = some c → c.isDigit = false) :
    readExponent (weightText (some e) ++ rest) = some (e, rest) := by
  have hdigits : ∀ c ∈ zeros (2 - (ofNat e.natAbs).length) ++ ofNat e.natAbs, c.isDigit = true := by
    intro c hc
    obtain hc | hc := List.mem_append.1 hc
    · exact Decimal.isDigit_zeros hc
    · exact Decimal.isDigit_ofNat hc
  have hvalue : digitsValue (zeros (2 - (ofNat e.natAbs).length) ++ ofNat e.natAbs) = e.natAbs := by
    rw [Decimal.digitsValue_zeros_append, Decimal.digitsValue_ofNat]
  have hne : zeros (2 - (ofNat e.natAbs).length) ++ ofNat e.natAbs ≠ [] := by
    simp [Decimal.ofNat_ne_nil]
  simp only [weightText, exponentText]
  generalize zeros (2 - (ofNat e.natAbs).length) ++ ofNat e.natAbs = digits at *
  obtain ⟨c, digits, rfl⟩ := List.exists_cons_of_ne_nil hne
  by_cases he : e < 0
  · simp only [if_pos he, List.cons_append, readExponent]
    rw [← List.cons_append, Text.takeWhile_append_of_head hdigits hrest,
      Text.dropWhile_append_of_head hdigits hrest]
    simp only [hvalue, if_true]
    congr 2
    omega
  · simp only [if_neg he, List.cons_append, readExponent]
    rw [← List.cons_append, Text.takeWhile_append_of_head hdigits hrest,
      Text.dropWhile_append_of_head hdigits hrest]
    simp only [hvalue, Bool.false_eq_true, if_false]
    congr 2
    omega

theorem readExponent_none {rest : List Char} (hlower : rest.head? ≠ some 'e')
    (hupper : rest.head? ≠ some 'E') : readExponent rest = none := by
  cases rest with
  | nil => rfl
  | cons c rest =>
    have hc : c ≠ 'e' := fun h => hlower (congrArg some h)
    have hc' : c ≠ 'E' := fun h => hupper (congrArg some h)
    simp [readExponent, hc, hc']

theorem readExponent_text (exponent : Option Int) {rest : List Char} (h : NumeralEnd rest) :
    readExponent (weightText exponent ++ rest) = exponent.map fun e => (e, rest) := by
  cases exponent with
  | none => exact readExponent_none h.lower h.upper
  | some e => exact readExponent_some e h.digit

/-! ### Numerals -/

/-- The whole part of a numeral: digits without a zero in front, or a lone zero. -/
structure Whole (whole : List Char) : Prop where
  nonempty : whole ≠ []
  digit : ∀ c ∈ whole, c.isDigit = true
  zero : whole.head? = some '0' → whole = ['0']

theorem whole_ofNat (n : Nat) : Whole (ofNat n) := by
  refine ⟨Decimal.ofNat_ne_nil n, fun c hc => Decimal.isDigit_ofNat hc, fun hhead => ?_⟩
  obtain rfl | hn := Nat.eq_zero_or_pos n
  · rfl
  · exact absurd hhead (Decimal.head_ofNat hn)

/-- The digits that a number starts with, where a zero stands alone. -/
theorem Whole.leading {whole rest : List Char} (h : Whole whole)
    (hrest : ∀ c, rest.head? = some c → c.isDigit = false) :
    (if ((whole ++ rest).takeWhile Char.isDigit).head? = some '0' then ['0']
      else (whole ++ rest).takeWhile Char.isDigit) = whole := by
  rw [Text.takeWhile_append_of_head h.digit hrest]
  split
  · rename_i hzero
    exact (h.zero hzero).symm
  · rfl

/-- What follows the whole part does not continue it. -/
theorem digit_after_whole {fraction rest : List Char} {exponent : Option Int}
    (h : NumeralEnd rest) :
    ∀ c, (fractionText fraction ++ (weightText exponent ++ rest)).head? = some c →
      c.isDigit = false := by
  intro c hc
  simp only [fractionText] at hc
  split at hc
  · cases exponent with
    | none => exact h.digit c hc
    | some e =>
      cases hc
      rfl
  · cases hc
    rfl

theorem digit_after_fraction (exponent : Option Int) {rest : List Char} (h : NumeralEnd rest) :
    (∀ c, (weightText exponent ++ rest).head? = some c → c.isDigit = false) ∧
      (weightText exponent ++ rest).head? ≠ some '.' := by
  cases exponent with
  | none => exact ⟨h.digit, h.point⟩
  | some e =>
    constructor
    · intro c hc
      cases hc
      rfl
    · simp [weightText]

theorem readNumber_decimal (negative : Bool) {whole fraction rest : List Char}
    {exponent : Option Int} (hwhole : Whole whole) (hfraction : ∀ c ∈ fraction, c.isDigit = true)
    (hsome : fraction ≠ [] ∨ exponent ≠ none) (h : NumeralEnd rest) :
    readNumber negative (whole ++ (fractionText fraction ++ (weightText exponent ++ rest))) =
      .ok (.float (Binary64.ofDecimal negative (digitsValue (whole ++ fraction))
        (exponent.getD 0 - fraction.length)), rest) := by
  obtain ⟨hdigit, hpoint⟩ := digit_after_fraction exponent h
  simp only [readNumber]
  rw [hwhole.leading (digit_after_whole h), if_neg hwhole.nonempty, List.drop_left,
    readFraction_text hfraction hdigit hpoint]
  simp only [readExponent_text exponent h]
  cases exponent with
  | none =>
    have hne : fraction ≠ [] := hsome.resolve_right fun hnone => hnone rfl
    simp [hne, weightText]
  | some e => simp

theorem readNumber_int (negative : Bool) (n : Nat) {rest : List Char} (h : NumeralEnd rest) :
    readNumber negative (ofNat n ++ rest) =
      if digitLimit < (ofNat n).length then .error (.tooLong (ofNat n).length)
      else .ok (.int (if negative then -(n : Int) else n), rest) := by
  have hnone : ∀ c ∈ ([] : List Char), c.isDigit = true := fun c hc => absurd hc (by simp)
  have hfraction := readFraction_text hnone h.digit h.point
  simp only [fractionText, if_true, List.nil_append] at hfraction
  simp only [readNumber]
  rw [(whole_ofNat n).leading h.digit, if_neg (whole_ofNat n).nonempty, List.drop_left, hfraction]
  simp only [readExponent_none h.lower h.upper]
  simp

/-! ### The text of a finite number -/

/-- A numeral with a point or an exponent, and a value near `m · 2 ^ q`. -/
structure Shape (m : Nat) (q : Int) (text whole fraction : List Char) (exponent : Option Int) :
    Prop where
  text_eq : text = whole ++ (fractionText fraction ++ weightText exponent)
  lead : Whole whole
  places : ∀ c ∈ fraction, c.isDigit = true
  marked : fraction ≠ [] ∨ exponent ≠ none
  near : Near m q (digitsValue (whole ++ fraction) * 10 ^ (exponent.getD 0 - fraction.length))

section Shapes

variable {m : Nat} {q e : Int} {digits : List Char}

theorem whole_of_significant {more : List Char} (h : Significant digits)
    (hmore : ∀ c ∈ more, c.isDigit = true) : Whole (digits ++ more) := by
  refine ⟨by simp [h.nonempty], ?_, fun hhead => ?_⟩
  · intro c hc
    exact (List.mem_append.1 hc).elim (h.digit c) (hmore c)
  · rw [List.head?_append_of_ne_nil _ h.nonempty] at hhead
    exact absurd hhead h.head

theorem shape_scientific (h : Significant digits)
    (hnear : Near m q (digitsValue digits * 10 ^ (e - digits.length + 1))) :
    ∃ whole fraction exponent,
      Shape m q (Decimal.scientific digits e) whole fraction exponent := by
  obtain ⟨d, rest, rfl⟩ := List.exists_cons_of_ne_nil h.nonempty
  have hd : Whole [d] := by
    refine ⟨by simp, ?_, fun hhead => ?_⟩
    · intro c hc
      exact h.digit c (by simp at hc; simp [hc])
    · exact absurd hhead h.head
  refine ⟨[d], rest, some e, ?_, hd, fun c hc => h.digit c (by simp [hc]), .inr (by simp), ?_⟩
  · cases rest <;> simp [Decimal.scientific, fractionText, weightText]
  · have hexponent : e - rest.length = e - (d :: rest).length + 1 := by
      simp only [List.length_cons]
      omega
    rw [List.singleton_append, Option.getD_some, hexponent]
    exact hnear

/-- Where the digits stand behind the point, a run of zeros stands between them. -/
theorem shape_below (h : Significant digits) (he : e < 0)
    (hnear : Near m q (digitsValue digits * 10 ^ (e - digits.length + 1))) :
    Shape m q (if (Decimal.positional digits e).contains '.' then Decimal.positional digits e
      else Decimal.positional digits e ++ ['.', '0'])
      ['0'] (zeros ((-e).toNat - 1) ++ digits) none := by
  refine ⟨?_, ⟨by simp, by simp, fun _ => rfl⟩, ?_, .inl (by simp [h.nonempty]), ?_⟩
  · simp [Decimal.positional, he, fractionText, weightText, h.nonempty]
  · intro c hc
    exact (List.mem_append.1 hc).elim Decimal.isDigit_zeros (h.digit c)
  · have hvalue : digitsValue (['0'] ++ (zeros ((-e).toNat - 1) ++ digits)) =
        digitsValue digits := by
      rw [show ['0'] = zeros 1 from rfl, Decimal.digitsValue_zeros_append,
        Decimal.digitsValue_zeros_append]
    have hexponent : (0 : Int) - (zeros ((-e).toNat - 1) ++ digits).length =
        e - digits.length + 1 := by
      simp only [zeros, List.length_append, List.length_replicate]
      omega
    rw [hvalue, Option.getD_none, hexponent]
    exact hnear

/-- Where the digits are filled up with zeros, a lone zero stands behind the point. -/
theorem shape_filled (h : Significant digits) (he : ¬e < 0) (hshort : digits.length ≤ e.toNat + 1)
    (hnear : Near m q (digitsValue digits * 10 ^ (e - digits.length + 1))) :
    Shape m q (if (Decimal.positional digits e).contains '.' then Decimal.positional digits e
      else Decimal.positional digits e ++ ['.', '0'])
      (digits ++ zeros (e.toNat + 1 - digits.length)) ['0'] none := by
  have hdigits : ∀ c ∈ digits ++ zeros (e.toNat + 1 - digits.length), c.isDigit = true := by
    intro c hc
    exact (List.mem_append.1 hc).elim (h.digit c) Decimal.isDigit_zeros
  refine ⟨?_, whole_of_significant h fun c hc => Decimal.isDigit_zeros hc, by simp, .inl (by simp),
    ?_⟩
  · have hpoint : '.' ∉ digits ++ zeros (e.toNat + 1 - digits.length) := by
      intro hmem
      exact absurd (hdigits _ hmem) (by decide)
    simp [Decimal.positional, he, hshort, fractionText, weightText] at hpoint ⊢
    simp [hpoint]
  · have hvalue : digitsValue ((digits ++ zeros (e.toNat + 1 - digits.length)) ++ ['0']) =
        digitsValue digits * 10 ^ (e.toNat + 2 - digits.length) := by
      rw [List.append_assoc, show zeros (e.toNat + 1 - digits.length) ++ ['0'] =
        zeros (e.toNat + 2 - digits.length) by
          rw [zeros, zeros, show e.toNat + 2 - digits.length =
            e.toNat + 1 - digits.length + 1 by omega, List.replicate_succ'],
        Decimal.digitsValue_append_zeros]
    have hexponent : ((e.toNat + 2 - digits.length : Nat) : Int) + (0 - 1) =
        e - digits.length + 1 := by omega
    rw [hvalue]
    push_cast
    rw [mul_assoc, ← zpow_natCast, ← zpow_add₀ (by norm_num), Option.getD_none,
      List.length_singleton, Nat.cast_one, hexponent]
    exact hnear

/-- The point stands among the digits, if there are enough of them. -/
theorem shape_among (h : Significant digits) (he : ¬e < 0)
    (hlong : ¬digits.length ≤ e.toNat + 1)
    (hnear : Near m q (digitsValue digits * 10 ^ (e - digits.length + 1))) :
    Shape m q (if (Decimal.positional digits e).contains '.' then Decimal.positional digits e
      else Decimal.positional digits e ++ ['.', '0'])
      (digits.take (e.toNat + 1)) (digits.drop (e.toNat + 1)) none := by
  have hsplit : digits = digits.take (e.toNat + 1) ++ digits.drop (e.toNat + 1) :=
    (List.take_append_drop _ _).symm
  have hwhole : digits.take (e.toNat + 1) ≠ [] := by simp [h.nonempty]
  have hfraction : digits.drop (e.toNat + 1) ≠ [] := by
    simp
    omega
  refine ⟨?_, ⟨hwhole, fun c hc => h.digit c (List.mem_of_mem_take hc), fun hhead => ?_⟩,
    fun c hc => h.digit c (List.mem_of_mem_drop hc), .inl hfraction, ?_⟩
  · simp [Decimal.positional, he, hlong, fractionText, weightText, hfraction]
  · have hdigit := h.head
    rw [hsplit, List.head?_append_of_ne_nil _ hwhole] at hdigit
    exact absurd hhead hdigit
  · have hexponent : (0 : Int) - (digits.drop (e.toNat + 1)).length = e - digits.length + 1 := by
      rw [List.length_drop]
      omega
    rw [← hsplit, Option.getD_none, hexponent]
    exact hnear

theorem shape_positional (h : Significant digits)
    (hnear : Near m q (digitsValue digits * 10 ^ (e - digits.length + 1))) :
    ∃ whole fraction exponent, Shape m q
      (if (Decimal.positional digits e).contains '.' then Decimal.positional digits e
        else Decimal.positional digits e ++ ['.', '0']) whole fraction exponent := by
  by_cases he : e < 0
  · exact ⟨_, _, _, shape_below h he hnear⟩
  · by_cases hshort : digits.length ≤ e.toNat + 1
    · exact ⟨_, _, _, shape_filled h he hshort hnear⟩
    · exact ⟨_, _, _, shape_among h he hshort hnear⟩

end Shapes

theorem finiteText_shape {m : Nat} (q : Int) (hm : 0 < m) :
    ∃ whole fraction exponent,
      Shape m q (Binary64.finiteText m q) whole fraction exponent := by
  obtain ⟨hsignificant, hnear⟩ := Binary64.shortest_near q hm
  simp only [Binary64.finiteText, if_neg (show ¬m = 0 by omega)]
  split
  · exact shape_positional hsignificant hnear
  · exact shape_scientific hsignificant hnear

/-- The text of a finite number starts with a digit. -/
theorem finiteText_cons (m : Nat) (q : Int) :
    ∃ c cs, Binary64.finiteText m q = c :: cs ∧ c.isDigit = true := by
  obtain rfl | hpos := Nat.eq_zero_or_pos m
  · exact ⟨'0', ['.', '0'], rfl, rfl⟩
  · obtain ⟨whole, fraction, exponent, hshape⟩ := finiteText_shape q hpos
    obtain ⟨c, cs, rfl⟩ := List.exists_cons_of_ne_nil hshape.lead.nonempty
    exact ⟨c, _, hshape.text_eq, hshape.lead.digit c List.mem_cons_self⟩

/-- The text of a finite number reads back as the number. -/
theorem readNumber_finiteText {x : Binary64} {negative : Bool} {m : Nat} {q : Int}
    (h : x.reading = .finite negative m q) {rest : List Char} (hrest : NumeralEnd rest) :
    readNumber negative (Binary64.finiteText m q ++ rest) = .ok (.float x, rest) := by
  obtain ⟨hm, rfl⟩ := Binary64.of_reading h
  obtain rfl | hpos := Nat.eq_zero_or_pos m
  · have hzero : Whole ['0'] := ⟨by simp, by simp, fun _ => rfl⟩
    have hread := @readNumber_decimal negative ['0'] ['0'] rest none hzero (by simp)
      (.inl (by simp)) hrest
    obtain rfl : q = -1074 := hm.full.resolve_right (by omega)
    exact hread
  · obtain ⟨whole, fraction, exponent, hshape⟩ := finiteText_shape q hpos
    rw [hshape.text_eq, List.append_assoc, List.append_assoc,
      readNumber_decimal negative hshape.lead hshape.places hshape.marked hrest,
      Binary64.ofDecimal_near negative hm hpos hshape.near]

end Rollout.Json
