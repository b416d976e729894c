import Rollout.Proofs.Number.Digits
import Mathlib.Algebra.Order.Field.Rat
import Mathlib.Algebra.Order.Field.Power
import Mathlib.Data.Nat.Log
import Mathlib.Tactic.FieldSimp
import Mathlib.Tactic.Linarith
import Mathlib.Tactic.NormNum
import Mathlib.Tactic.Positivity
import Mathlib.Tactic.Push
import Mathlib.Tactic.Ring

/-!
# Rounding to a binary number

A quotient is rounded to the number whose reals it lies among.

A finite number other than zero is `± m · 2 ^ q` with `Represented m q`: the mantissa has at most 53
bits, and it has exactly 53 unless the exponent is the least one. The reals that round to it are
`Near m q`: they reach halfway to either neighbour, and the neighbour below a power of two is only
half as far away.

* `placeExponent_eq`: the exponent of the last place is determined by the quotient;
* `ofRatio_near`: a quotient near `m · 2 ^ q` is rounded to it. Right below a power of two the
  quotient has the exponent `q - 1`, and its mantissa is rounded up to `2 ^ 53`;
* `ofDecimal_near`: the same for a decimal, which cannot leave the range of the table of powers.
-/

namespace Rollout

namespace Decimal

/-- A natural within half a unit of the quotient, and an even one where it is exactly half a unit
away, is the rounded quotient. -/
theorem roundDiv_eq {num den m : Nat} (hden : 0 < den)
    (hlow : 2 * m * den ≤ 2 * num + den)
    (hhigh : 2 * num ≤ (2 * m + 1) * den)
    (htie : m % 2 = 1 → 2 * m * den < 2 * num + den ∧ 2 * num < (2 * m + 1) * den) :
    roundDiv num den = m := by
  have hnum : den * (num / den) + num % den = num := Nat.div_add_mod num den
  have hrest : num % den < den := Nat.mod_lt _ hden
  simp only [roundDiv]
  generalize num / den = k at *
  generalize num % den = rest at *
  have hcases : m = k ∨ m = k + 1 := by
    have hbelow : k < m + 1 := by
      by_contra hover
      have hstep : den * (m + 1) ≤ den * k := Nat.mul_le_mul_left den (by omega)
      nlinarith
    have habove : m < k + 2 := by
      by_contra hunder
      have hstep : den * (k + 2) ≤ den * m := Nat.mul_le_mul_left den (by omega)
      nlinarith
    omega
  obtain rfl | rfl := hcases
  · have hdiff : 2 * rest ≤ den := by nlinarith
    obtain heven | hodd := Nat.mod_two_eq_zero_or_one m
    · split
      · rfl
      · rw [if_neg (by omega)]
    · have hstrict : 2 * rest < den := by nlinarith [(htie hodd).2]
      rw [if_pos hstrict]
  · have hdiff : den ≤ 2 * rest := by nlinarith
    rw [if_neg (by omega)]
    obtain heven | hodd := Nat.mod_two_eq_zero_or_one k
    · have hstrict : den < 2 * rest := by nlinarith [(htie (by omega)).1]
      rw [if_pos hstrict]
    · split
      · rfl
      · rw [if_neg (by omega)]

end Decimal

namespace Binary64

/-- The mantissas and exponents of finite numbers. -/
structure Represented (m : Nat) (q : Int) : Prop where
  least : -1074 ≤ q
  greatest : q ≤ 971
  short : m < 2 ^ 53
  full : q = -1074 ∨ 2 ^ 52 ≤ m

/-- How far the reals that round to `m · 2 ^ q` reach down, in units of the last place. -/
def reach (m : Nat) (q : Int) : ℚ := if m = 2 ^ 52 ∧ -1074 < q then 1 / 4 else 1 / 2

/-- The reals that round to `m · 2 ^ q`. -/
structure Near (m : Nat) (q : Int) (r : ℚ) : Prop where
  low : (m - reach m q) * 2 ^ q ≤ r
  high : r ≤ (m + 1 / 2) * 2 ^ q
  odd : m % 2 = 1 → (m - 1 / 2) * 2 ^ q < r ∧ r < (m + 1 / 2) * 2 ^ q

/-! ### Powers with integer exponents -/

theorem zpow_split (b : Nat) (hb : b ≠ 0) (e : Int) :
    (b : ℚ) ^ e = ((b ^ e.toNat : Nat) : ℚ) / ((b ^ (-e).toNat : Nat) : ℚ) := by
  have hcast : (b : ℚ) ≠ 0 := by exact_mod_cast hb
  obtain he | he := Int.le_total 0 e
  · obtain ⟨n, rfl⟩ := Int.eq_ofNat_of_zero_le he
    simp
  · obtain ⟨n, hn⟩ := Int.eq_ofNat_of_zero_le (show 0 ≤ -e by omega)
    obtain rfl : e = -(n : Int) := by omega
    simp

/-- A quotient in units of `2 ^ e`, with naturals above and below the line. -/
theorem quotient_units (num den : Nat) (e : Int) :
    ((num * 2 ^ (-e).toNat : Nat) : ℚ) / ((den * 2 ^ e.toNat : Nat) : ℚ) =
      (num : ℚ) / den / 2 ^ e := by
  have hsplit := zpow_split 2 (by decide) e
  rw [show ((2 : ℚ) ^ e) = ((2 : Nat) : ℚ) ^ e by norm_num, hsplit]
  push_cast
  rw [div_div_eq_mul_div, div_mul_eq_mul_div, div_div]

/-! ### The exponent of the last place -/

/-- A positive quotient lies between the powers of two next to the difference of the logarithms. -/
theorem quotient_bounds {num den : Nat} (hnum : num ≠ 0) (hden : den ≠ 0) :
    (2 : ℚ) ^ ((Nat.log2 num : Int) - Nat.log2 den - 1) < (num : ℚ) / den ∧
      (num : ℚ) / den < 2 ^ ((Nat.log2 num : Int) - Nat.log2 den + 1) := by
  have hdenPos : (0 : ℚ) < den := by exact_mod_cast Nat.pos_of_ne_zero hden
  have hnumLow : (2 : ℚ) ^ (Nat.log2 num : Int) ≤ num := by
    exact_mod_cast Nat.log2_self_le hnum
  have hnumHigh : (num : ℚ) < 2 ^ ((Nat.log2 num : Int) + 1) := by
    exact_mod_cast Nat.lt_log2_self (n := num)
  have hdenLow : (2 : ℚ) ^ (Nat.log2 den : Int) ≤ den := by
    exact_mod_cast Nat.log2_self_le hden
  have hdenHigh : (den : ℚ) < 2 ^ ((Nat.log2 den : Int) + 1) := by
    exact_mod_cast Nat.lt_log2_self (n := den)
  constructor
  · rw [lt_div_iff₀ hdenPos]
    calc (2 : ℚ) ^ ((Nat.log2 num : Int) - Nat.log2 den - 1) * den
        < 2 ^ ((Nat.log2 num : Int) - Nat.log2 den - 1) * 2 ^ ((Nat.log2 den : Int) + 1) := by
          exact mul_lt_mul_of_pos_left hdenHigh (by positivity)
      _ = 2 ^ (Nat.log2 num : Int) := by
          rw [← zpow_add₀ (by norm_num)]
          ring_nf
      _ ≤ num := hnumLow
  · rw [div_lt_iff₀ hdenPos]
    calc (num : ℚ) < 2 ^ ((Nat.log2 num : Int) + 1) := hnumHigh
      _ = 2 ^ ((Nat.log2 num : Int) - Nat.log2 den + 1) * 2 ^ (Nat.log2 den : Int) := by
          rw [← zpow_add₀ (by norm_num)]
          ring_nf
      _ ≤ 2 ^ ((Nat.log2 num : Int) - Nat.log2 den + 1) * den := by
          exact mul_le_mul_of_nonneg_left hdenLow (by positivity)

theorem quotient_lt_iff {num den : Nat} (hden : den ≠ 0) (e : Int) (k : Nat) :
    num * 2 ^ (-e).toNat < den * 2 ^ e.toNat * k ↔ (num : ℚ) / den < k * 2 ^ e := by
  have hpow : (0 : ℚ) < 2 ^ e := by positivity
  have hscaled : (0 : ℚ) < ((den * 2 ^ e.toNat : Nat) : ℚ) := by
    have : 0 < den := Nat.pos_of_ne_zero hden
    exact_mod_cast Nat.mul_pos this (by positivity)
  rw [← div_lt_iff₀ hpow, ← quotient_units, div_lt_iff₀ hscaled, mul_comm (k : ℚ)]
  exact_mod_cast Iff.rfl

/-- The quotient has at most 53 bits above the last place, and exactly 53 unless the exponent is the
least one. -/
structure Place (r : ℚ) (e : Int) : Prop where
  least : -1074 ≤ e
  fits : r < 2 ^ 53 * 2 ^ e
  full : e = -1074 ∨ 2 ^ 52 * 2 ^ e ≤ r

theorem place_placeExponent {num den : Nat} (hnum : num ≠ 0) (hden : den ≠ 0) :
    Place ((num : ℚ) / den) (placeExponent num den) := by
  obtain ⟨hlow, hhigh⟩ := quotient_bounds hnum hden
  simp only [placeExponent]
  generalize (Nat.log2 num : Int) - Nat.log2 den = d at hlow hhigh
  generalize he : max (-1074) (d - 53) = e
  -- The first guess is right or one too small, and it is right where it is the least exponent.
  have hfull : e = -1074 ∨ 2 ^ 52 * 2 ^ e ≤ (num : ℚ) / den := by
    obtain hguess | hguess : e = -1074 ∨ e = d - 53 := by omega
    · exact .inl hguess
    · right
      calc (2 : ℚ) ^ 52 * 2 ^ e = 2 ^ (d - 1) := by
            rw [hguess, ← zpow_natCast, ← zpow_add₀ (by norm_num)]
            ring_nf
        _ ≤ (num : ℚ) / den := hlow.le
  have htop : (num : ℚ) / den < 2 ^ 53 * 2 ^ (e + 1) := by
    calc (num : ℚ) / den < 2 ^ (d + 1) := hhigh
      _ ≤ 2 ^ (e + 54) := zpow_le_zpow_right₀ (by norm_num) (by omega)
      _ = 2 ^ 53 * 2 ^ (e + 1) := by
          rw [← zpow_natCast, ← zpow_add₀ (by norm_num)]
          ring_nf
  split
  · rename_i hfits
    refine ⟨by omega, ?_, hfull⟩
    exact_mod_cast (quotient_lt_iff hden e (2 ^ 53)).1 hfits
  · rename_i hover
    refine ⟨by omega, htop, .inr ?_⟩
    have hreached : ¬(num : ℚ) / den < 2 ^ 53 * 2 ^ e := by
      intro hlt
      exact hover ((quotient_lt_iff hden e (2 ^ 53)).2 (by exact_mod_cast hlt))
    rw [zpow_add_one₀ (by norm_num)]
    linarith

theorem Place.unique {r : ℚ} {e e' : Int} (h : Place r e) (h' : Place r e') : e = e' := by
  by_contra hne
  wlog hlt : e < e' generalizing e e'
  · exact this h' h (Ne.symm hne) (by omega)
  obtain hleast | hfull := h'.full
  · have := h.least
    omega
  · have hstep : (2 : ℚ) ^ (e + 1) ≤ 2 ^ e' := zpow_le_zpow_right₀ (by norm_num) (by omega)
    rw [zpow_add_one₀ (by norm_num)] at hstep
    have := h.fits
    linarith

/-! ### Rounding a quotient -/

theorem roundDiv_units {num den m : Nat} {e : Int} (hden : den ≠ 0)
    (hlow : (m - 1 / 2) * 2 ^ e ≤ (num : ℚ) / den)
    (hhigh : (num : ℚ) / den ≤ (m + 1 / 2) * 2 ^ e)
    (hodd : m % 2 = 1 →
      (m - 1 / 2) * 2 ^ e < (num : ℚ) / den ∧ (num : ℚ) / den < (m + 1 / 2) * 2 ^ e) :
    Decimal.roundDiv (num * 2 ^ (-e).toNat) (den * 2 ^ e.toNat) = m := by
  have hpow : (0 : ℚ) < 2 ^ e := by positivity
  have hpos : 0 < den * 2 ^ e.toNat :=
    Nat.mul_pos (Nat.pos_of_ne_zero hden) (by positivity)
  have hcast : (0 : ℚ) < ((den * 2 ^ e.toNat : Nat) : ℚ) := by exact_mod_cast hpos
  -- Both bounds are read in units of the last place, and then without fractions.
  rw [← le_div_iff₀ hpow, ← quotient_units, le_div_iff₀ hcast] at hlow
  rw [← div_le_iff₀ hpow, ← quotient_units, div_le_iff₀ hcast] at hhigh
  rw [← lt_div_iff₀ hpow, ← div_lt_iff₀ hpow, ← quotient_units, lt_div_iff₀ hcast,
    div_lt_iff₀ hcast] at hodd
  generalize num * 2 ^ (-e).toNat = n at *
  generalize den * 2 ^ e.toNat = d at *
  refine Decimal.roundDiv_eq hpos ?_ ?_ ?_
  · have : (2 * m * d : ℚ) ≤ 2 * n + d := by linarith
    exact_mod_cast this
  · have : (2 * n : ℚ) ≤ (2 * m + 1) * d := by linarith
    exact_mod_cast this
  · intro hm
    obtain ⟨hbelow, habove⟩ := hodd hm
    constructor
    · have : (2 * m * d : ℚ) < 2 * n + d := by linarith
      exact_mod_cast this
    · have : (2 * n : ℚ) < (2 * m + 1) * d := by linarith
      exact_mod_cast this

/-- The bits below the sign of `± m · 2 ^ q`. -/
def magnitudeOf (m : Nat) (q : Int) : Nat := (q + 1074).toNat * 2 ^ 52 + m

theorem magnitudeOf_lt {m : Nat} {q : Int} (h : Represented m q) :
    magnitudeOf m q < infinityBits := by
  have hq : (q + 1074).toNat ≤ 2045 := by
    have := h.greatest
    omega
  have hm := h.short
  simp only [magnitudeOf, infinityBits, Nat.pow_eq]
  omega

/-- A quotient near `m · 2 ^ q` has the exponent `q`, except right below a power of two. -/
theorem Near.place {m : Nat} {q : Int} {r : ℚ} (hm : Represented m q) (h : Near m q r) :
    Place r q ∨ (m = 2 ^ 52 ∧ -1074 < q ∧ r < 2 ^ 52 * 2 ^ q) := by
  have hpow : (0 : ℚ) < 2 ^ q := by positivity
  have hfits : r < 2 ^ 53 * 2 ^ q := by
    have hshort : (m : ℚ) + 1 ≤ 2 ^ 53 := by exact_mod_cast hm.short
    refine h.high.trans_lt (mul_lt_mul_of_pos_right ?_ hpow)
    linarith
  by_cases hleast : q = -1074
  · exact .inl ⟨hm.least, hfits, .inl hleast⟩
  have hfull : 2 ^ 52 ≤ m := hm.full.resolve_left hleast
  by_cases hbelow : r < 2 ^ 52 * 2 ^ q
  · right
    refine ⟨?_, ?_, hbelow⟩
    · by_contra hne
      have hover : (2 : ℚ) ^ 52 + 1 ≤ m := by
        have : 2 ^ 52 + 1 ≤ m := by omega
        exact_mod_cast this
      have hlow := h.low
      rw [reach, if_neg (by tauto)] at hlow
      have : (2 ^ 52 : ℚ) * 2 ^ q ≤ (m - 1 / 2) * 2 ^ q :=
        mul_le_mul_of_nonneg_right (by linarith) hpow.le
      linarith
    · have := hm.least
      omega
  · exact .inl ⟨hm.least, hfits, .inr (not_lt.1 hbelow)⟩

theorem ofRatio_near {num den m : Nat} {q : Int} (negative : Bool) (hden : den ≠ 0)
    (hm : Represented m q) (hnum : num ≠ 0) (h : Near m q ((num : ℚ) / den)) :
    ofRatio negative num den = ofParts negative (magnitudeOf m q) := by
  have hpow : (0 : ℚ) < 2 ^ q := by positivity
  have hplace := place_placeExponent hnum hden
  have hinfinite : magnitudeOf m q < infinityBits := magnitudeOf_lt hm
  simp only [ofRatio, if_neg hnum, Nat.pow_eq]
  obtain hq | ⟨rfl, hq, hbelow⟩ := h.place hm
  · rw [hplace.unique hq]
    have hlow : (m - 1 / 2) * 2 ^ q ≤ (num : ℚ) / den := by
      refine le_trans (mul_le_mul_of_nonneg_right ?_ hpow.le) h.low
      simp only [reach]
      split <;> linarith
    rw [roundDiv_units hden hlow h.high h.odd]
    rw [show (q + 1074).toNat * 2 ^ 52 + m = magnitudeOf m q from rfl, min_eq_right hinfinite.le]
  · -- The mantissa of the lower binade is rounded up to its end.
    have hlow := h.low
    rw [reach, if_pos ⟨rfl, hq⟩] at hlow
    have hhalf : (2 : ℚ) ^ q = 2 * 2 ^ (q - 1) := by
      rw [← zpow_one_add₀ (by norm_num)]
      ring_nf
    rw [hhalf] at hlow hbelow
    push_cast at hlow
    have hq' : Place ((num : ℚ) / den) (q - 1) := by
      refine ⟨by omega, by linarith, .inr ?_⟩
      have : (0 : ℚ) < 2 ^ (q - 1) := by positivity
      linarith
    rw [hplace.unique hq', @roundDiv_units num den (2 ^ 53) (q - 1) hden]
    · have hcarry : (q - 1 + 1074).toNat * 2 ^ 52 + 2 ^ 53 = magnitudeOf (2 ^ 52) q := by
        simp only [magnitudeOf]
        omega
      rw [hcarry, min_eq_right hinfinite.le]
    · push_cast
      linarith
    · push_cast
      have : (0 : ℚ) < 2 ^ (q - 1) := by positivity
      linarith
    · intro hodd
      omega

/-! ### Rounding a decimal -/

theorem Near.pos {m : Nat} {q : Int} {r : ℚ} (hm : 0 < m) (h : Near m q r) :
    1 / 2 * 2 ^ q ≤ r := by
  have hcast : (1 : ℚ) ≤ m := by exact_mod_cast hm
  refine le_trans (mul_le_mul_of_nonneg_right ?_ (by positivity)) h.low
  simp only [reach]
  split <;> linarith

theorem Near.bounds {m : Nat} {q : Int} {r : ℚ} (hm : Represented m q) (hpos : 0 < m)
    (h : Near m q r) : (2 : ℚ) ^ (-1075 : Int) ≤ r ∧ r < 2 ^ (1024 : Int) := by
  constructor
  · refine le_trans ?_ (h.pos hpos)
    have hstep : (2 : ℚ) ^ (-1074 : Int) ≤ 2 ^ q := zpow_le_zpow_right₀ (by norm_num) hm.least
    rw [show (-1075 : Int) = -1074 - 1 by norm_num, zpow_sub_one₀ (by norm_num)]
    linarith
  · have hshort : (m : ℚ) + 1 ≤ 2 ^ 53 := by exact_mod_cast hm.short
    have hpow : (0 : ℚ) < 2 ^ q := by positivity
    have htop : (2 : ℚ) ^ q ≤ 2 ^ (971 : Int) := zpow_le_zpow_right₀ (by norm_num) hm.greatest
    calc r ≤ (m + 1 / 2) * 2 ^ q := h.high
      _ < 2 ^ 53 * 2 ^ q := mul_lt_mul_of_pos_right (by linarith) hpow
      _ ≤ 2 ^ 53 * 2 ^ (971 : Int) := mul_le_mul_of_nonneg_left htop (by norm_num)
      _ = 2 ^ (1024 : Int) := by
          rw [← zpow_natCast, ← zpow_add₀ (by norm_num)]
          norm_num

/-- The least and the greatest number lie well within the powers of ten up to 330. -/
theorem zpow_two_lt_zpow_ten : (2 : ℚ) ^ (1089 : Int) < 10 ^ (330 : Int) := by
  calc (2 : ℚ) ^ (1089 : Int) = (2 ^ (33 : Int)) ^ (33 : Int) := zpow_mul 2 33 33
    _ < (10 ^ (10 : Int)) ^ (33 : Int) := by
        exact zpow_lt_zpow_left₀ (by norm_num) (by norm_num) (by norm_num)
    _ = 10 ^ (330 : Int) := (zpow_mul 10 10 33).symm

theorem zpow_ten_lt : (10 : ℚ) ^ (-330 : Int) < 2 ^ (-1075 : Int) := by
  calc (10 : ℚ) ^ (-330 : Int) = (10 ^ (330 : Int))⁻¹ := zpow_neg 10 330
    _ < (2 ^ (1089 : Int))⁻¹ := inv_strictAnti₀ (by positivity) zpow_two_lt_zpow_ten
    _ = 2 ^ (-1089 : Int) := (zpow_neg 2 1089).symm
    _ ≤ 2 ^ (-1075 : Int) := zpow_le_zpow_right₀ (by norm_num) (by norm_num)

theorem zpow_two_lt : (2 : ℚ) ^ (1024 : Int) < 10 ^ (330 : Int) :=
  (zpow_le_zpow_right₀ (by norm_num) (by norm_num)).trans_lt zpow_two_lt_zpow_ten

/-- The powers of ten next to a decimal. -/
theorem decimal_bounds {digits : Nat} (h : 0 < digits) (exponent : Int) :
    (10 : ℚ) ^ ((Decimal.ofNat digits).length + exponent - 1) ≤ digits * 10 ^ exponent ∧
      (digits : ℚ) * 10 ^ exponent < 10 ^ ((Decimal.ofNat digits).length + exponent) := by
  have hlength := Decimal.length_ofNat_pos digits
  have hlow : (10 : ℚ) ^ (((Decimal.ofNat digits).length - 1 : Nat) : Int) ≤ digits := by
    exact_mod_cast Decimal.pow_length_le h
  have hhigh : (digits : ℚ) < 10 ^ ((Decimal.ofNat digits).length : Int) := by
    exact_mod_cast Decimal.lt_pow_length digits
  constructor
  · calc (10 : ℚ) ^ ((Decimal.ofNat digits).length + exponent - 1)
        = 10 ^ (((Decimal.ofNat digits).length - 1 : Nat) : Int) * 10 ^ exponent := by
          rw [← zpow_add₀ (by norm_num)]
          congr 1
          omega
      _ ≤ digits * 10 ^ exponent := mul_le_mul_of_nonneg_right hlow (by positivity)
  · calc (digits : ℚ) * 10 ^ exponent
        < 10 ^ ((Decimal.ofNat digits).length : Int) * 10 ^ exponent :=
          mul_lt_mul_of_pos_right hhigh (by positivity)
      _ = 10 ^ ((Decimal.ofNat digits).length + exponent) := (zpow_add₀ (by norm_num) _ _).symm

theorem ofDecimal_near {digits m : Nat} {exponent q : Int} (negative : Bool)
    (hm : Represented m q) (hpos : 0 < m) (h : Near m q (digits * 10 ^ exponent)) :
    ofDecimal negative digits exponent = ofParts negative (magnitudeOf m q) := by
  have hdigits : digits ≠ 0 := by
    rintro rfl
    have hhalf := h.pos hpos
    have : (0 : ℚ) < 2 ^ q := by positivity
    simp only [Nat.cast_zero, zero_mul] at hhalf
    linarith
  obtain ⟨hleast, hgreatest⟩ := h.bounds hm hpos
  obtain ⟨hlow, hhigh⟩ := decimal_bounds (Nat.pos_of_ne_zero hdigits) exponent
  -- No number is so small or so large that its decimals are cut off.
  have hnotSmall : ¬((Decimal.ofNat digits).length + exponent < -330) := by
    intro hlt
    have hstep : (10 : ℚ) ^ ((Decimal.ofNat digits).length + exponent) ≤ 10 ^ (-330 : Int) :=
      zpow_le_zpow_right₀ (by norm_num) (by omega)
    exact absurd (hleast.trans_lt (hhigh.trans_le hstep)) (not_lt.2 zpow_ten_lt.le)
  have hnotLarge : ¬(330 < (Decimal.ofNat digits).length + exponent) := by
    intro hlt
    have hstep : (10 : ℚ) ^ (330 : Int) ≤
        10 ^ ((Decimal.ofNat digits).length + exponent - 1) :=
      zpow_le_zpow_right₀ (by norm_num) (by omega)
    exact absurd (hstep.trans_lt (hlow.trans_lt hgreatest)) (not_lt.2 zpow_two_lt.le)
  have hquotient : (digits : ℚ) * 10 ^ exponent =
      ((digits * 10 ^ exponent.toNat : Nat) : ℚ) / ((10 ^ (-exponent).toNat : Nat) : ℚ) := by
    have hsplit := zpow_split 10 (by decide) exponent
    rw [show ((10 : ℚ) ^ exponent) = ((10 : Nat) : ℚ) ^ exponent by norm_num, hsplit]
    push_cast
    rw [mul_div_assoc]
  simp only [ofDecimal, hdigits, hnotSmall, hnotLarge, or_self, if_false, Nat.pow_eq]
  refine ofRatio_near negative (by positivity) hm (by positivity) ?_
  rw [← hquotient]
  exact h

/-! ### Decimals that read back -/

theorem decimal_lt_iff (a : Nat) (i : Int) (b : Nat) (j : Int) :
    a * 10 ^ i.toNat * 2 ^ (-j).toNat < b * 2 ^ j.toNat * 10 ^ (-i).toNat ↔
      (a : ℚ) * 10 ^ i < b * 2 ^ j := by
  have hten := zpow_split 10 (by decide) i
  have htwo := zpow_split 2 (by decide) j
  rw [show ((10 : ℚ) ^ i) = ((10 : Nat) : ℚ) ^ i by norm_num, hten,
    show ((2 : ℚ) ^ j) = ((2 : Nat) : ℚ) ^ j by norm_num, htwo, ← mul_div_assoc, ← mul_div_assoc,
    div_lt_div_iff₀ (by positivity) (by positivity)]
  exact_mod_cast Iff.rfl

theorem lt_decimal_iff (a : Nat) (i : Int) (b : Nat) (j : Int) :
    b * 2 ^ j.toNat * 10 ^ (-i).toNat < a * 10 ^ i.toNat * 2 ^ (-j).toNat ↔
      (b : ℚ) * 2 ^ j < a * 10 ^ i := by
  have hten := zpow_split 10 (by decide) i
  have htwo := zpow_split 2 (by decide) j
  rw [show ((10 : ℚ) ^ i) = ((10 : Nat) : ℚ) ^ i by norm_num, hten,
    show ((2 : ℚ) ^ j) = ((2 : Nat) : ℚ) ^ j by norm_num, htwo, ← mul_div_assoc, ← mul_div_assoc,
    div_lt_div_iff₀ (by positivity) (by positivity)]
  exact_mod_cast Iff.rfl

theorem decimalBelow_iff {a b : Nat} {i j : Int} :
    decimalBelow a i b j = true ↔ (a : ℚ) * 10 ^ i < b * 2 ^ j := by
  simpa [decimalBelow] using decimal_lt_iff a i b j

theorem decimalAbove_iff {a b : Nat} {i j : Int} :
    decimalAbove a i b j = true ↔ (b : ℚ) * 2 ^ j < a * 10 ^ i := by
  simpa [decimalAbove] using lt_decimal_iff a i b j

theorem readsBack_iff {m digits : Nat} {q exponent : Int} (hm : 0 < m) :
    readsBack m q digits exponent = true ↔ Near m q (digits * 10 ^ exponent) := by
  have hquarter : (2 : ℚ) ^ q = 4 * 2 ^ (q - 2) := by
    rw [show q = (q - 2) + 2 by omega, zpow_add₀ (by norm_num)]
    norm_num
    ring
  have hlow : (((if m = 2 ^ 52 ∧ -1074 < q then 4 * m - 1 else 4 * m - 2 : Nat)) : ℚ) *
      2 ^ (q - 2) = (m - reach m q) * 2 ^ q := by
    rw [hquarter, reach]
    split
    · rw [Nat.cast_sub (by omega)]
      push_cast
      ring
    · rw [Nat.cast_sub (by omega)]
      push_cast
      ring
  have hhigh : ((4 * m + 2 : Nat) : ℚ) * 2 ^ (q - 2) = (m + 1 / 2) * 2 ^ q := by
    rw [hquarter]
    push_cast
    ring
  simp only [readsBack, Nat.pow_eq]
  obtain heven | hodd := Nat.mod_two_eq_zero_or_one m
  · rw [if_pos heven, Bool.and_eq_true, Bool.not_eq_true', Bool.not_eq_true', ← Bool.not_eq_true,
      ← Bool.not_eq_true, decimalBelow_iff, decimalAbove_iff, hlow, hhigh, not_lt, not_lt]
    constructor
    · rintro ⟨h, h'⟩
      exact ⟨h, h', by omega⟩
    · rintro ⟨h, h', -⟩
      exact ⟨h, h'⟩
  · have hhalf : reach m q = 1 / 2 := if_neg (by omega)
    rw [if_neg (by omega), Bool.and_eq_true, decimalBelow_iff, decimalAbove_iff, hlow, hhigh, hhalf]
    constructor
    · rintro ⟨h, h'⟩
      exact ⟨by rw [hhalf]; exact h.le, h'.le, fun _ => ⟨h, h'⟩⟩
    · rintro ⟨-, -, h⟩
      exact h hodd

end Binary64

end Rollout
