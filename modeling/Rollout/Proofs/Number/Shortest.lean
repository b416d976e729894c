import Rollout.Proofs.Number.Rounding

/-!
# The shortest digits read back

The digits that are chosen for a finite number are a decimal near that number: rounding it gives the
number again.

Whatever grid the search stops at, the decimal it returns has passed the test, and where no grid has
a hit the exact value stands in. Taking zeros off the end moves them into the exponent.
-/

namespace Rollout

open Json (digitsValue)

namespace Decimal

/-- Digits that start with a digit other than zero. -/
structure Significant (digits : List Char) : Prop where
  nonempty : digits ≠ []
  head : digits.head? ≠ some '0'
  digit : ∀ c ∈ digits, c.isDigit = true

theorem roundDiv_cases (num den : Nat) :
    roundDiv num den = num / den ∨ roundDiv num den = num / den + 1 := by
  simp only [roundDiv]
  split
  · exact .inl rfl
  · split
    · exact .inr rfl
    · split
      · exact .inl rfl
      · exact .inr rfl

/-- The digits of a positive natural and the exponent of their last place, without the zeros at the
end. -/
theorem stripped {n : Nat} (h : 0 < n) (exponent : Int) :
    Significant (stripZeros (ofNat n)) ∧
      (digitsValue (stripZeros (ofNat n)) : ℚ) *
          10 ^ (exponent + (ofNat n).length - 1 - (stripZeros (ofNat n)).length + 1) =
        n * 10 ^ exponent := by
  obtain ⟨count, hlength, hvalue, hne, hhead, hdigit⟩ := ofNat_stripped h
  refine ⟨⟨hne, hhead, hdigit⟩, ?_⟩
  have hexponent : exponent + (ofNat n).length - 1 - (stripZeros (ofNat n)).length + 1 =
      count + exponent := by omega
  have hcast : (n : ℚ) = digitsValue (stripZeros (ofNat n)) * 10 ^ count := by exact_mod_cast hvalue
  rw [hexponent, hcast, zpow_add₀ (by norm_num), zpow_natCast, mul_assoc]

end Decimal

namespace Binary64

theorem readsBack_of_neighbour {m digits : Nat} {q exponent exponent' : Int}
    (h : neighbour? m q exponent = some (digits, exponent')) :
    readsBack m q digits exponent' = true := by
  simp only [neighbour?] at h
  split at h
  · rename_i hbelow habove
    simp only [Option.some.injEq, Prod.mk.injEq] at h
    obtain ⟨rfl, rfl⟩ := h
    obtain hround | hround := Decimal.roundDiv_cases
      (m * Nat.pow 2 q.toNat * Nat.pow 10 (-exponent).toNat)
      (Nat.pow 2 (-q).toNat * Nat.pow 10 exponent.toNat)
    · rw [hround]
      exact hbelow
    · rw [hround]
      exact habove
  · rename_i hbelow _
    simp only [Option.some.injEq, Prod.mk.injEq] at h
    obtain ⟨rfl, rfl⟩ := h
    exact hbelow
  · rename_i _ habove
    simp only [Option.some.injEq, Prod.mk.injEq] at h
    obtain ⟨rfl, rfl⟩ := h
    exact habove
  · cases h

theorem readsBack_of_firstGrid {m digits tries count : Nat} {q top exponent : Int}
    (h : firstGrid m q top tries count = some (digits, exponent)) :
    readsBack m q digits exponent = true := by
  induction tries generalizing count with
  | zero => cases h
  | succ tries ih =>
    rw [firstGrid] at h
    split at h
    · rename_i found hfound
      rw [h] at hfound
      exact readsBack_of_neighbour hfound
    · exact ih h

/-- The exact value of a number is among the reals that round to it. -/
theorem near_self (m : Nat) (q : Int) : Near m q (m * 2 ^ q) := by
  have hpow : (0 : ℚ) < 2 ^ q := by positivity
  refine ⟨mul_le_mul_of_nonneg_right ?_ hpow.le, mul_le_mul_of_nonneg_right ?_ hpow.le, fun _ => ?_⟩
  · simp only [reach]
    split <;> linarith
  · linarith
  · exact ⟨mul_lt_mul_of_pos_right (by linarith) hpow,
      mul_lt_mul_of_pos_right (by linarith) hpow⟩

/-- The exact value as a decimal: halves are fives of the next decimal place. -/
theorem exact_decimal (m : Nat) (q : Int) :
    ((m * 2 ^ q.toNat * 5 ^ (-q).toNat : Nat) : ℚ) * 10 ^ min q 0 = m * 2 ^ q := by
  obtain hq | hq := Int.le_total 0 q
  · obtain ⟨n, rfl⟩ := Int.eq_ofNat_of_zero_le hq
    simp
  · obtain ⟨n, hn⟩ := Int.eq_ofNat_of_zero_le (show 0 ≤ -q by omega)
    obtain rfl : q = -(n : Int) := by omega
    rw [min_eq_left hq]
    simp only [Int.toNat_neg_natCast, neg_neg, Int.toNat_natCast, zpow_neg, zpow_natCast]
    push_cast
    rw [show (10 : ℚ) = 5 * 2 by norm_num, mul_pow]
    field_simp

theorem shortest_near {m : Nat} (q : Int) (hm : 0 < m) :
    Decimal.Significant (shortest m q).1 ∧
      Near m q (digitsValue (shortest m q).1 *
        10 ^ ((shortest m q).2 - (shortest m q).1.length + 1)) := by
  simp only [shortest]
  split
  · rename_i digits exponent hfound
    have hnear := (readsBack_iff hm).1 (readsBack_of_firstGrid hfound)
    have hdigits : 0 < digits := by
      refine Nat.pos_of_ne_zero ?_
      rintro rfl
      have hhalf := hnear.pos hm
      have : (0 : ℚ) < 2 ^ q := by positivity
      simp only [Nat.cast_zero, zero_mul] at hhalf
      linarith
    obtain ⟨hsignificant, hvalue⟩ := Decimal.stripped hdigits exponent
    refine ⟨hsignificant, ?_⟩
    rw [hvalue]
    exact hnear
  · have hdigits : 0 < m * 2 ^ q.toNat * 5 ^ (-q).toNat := by positivity
    obtain ⟨hsignificant, hvalue⟩ := Decimal.stripped hdigits (min q 0)
    refine ⟨hsignificant, ?_⟩
    simp only [Nat.pow_eq]
    rw [hvalue, exact_decimal]
    exact near_self m q

/-! ### The bits of a finite number -/

theorem toNat_bits (x : Binary64) :
    x.bits.toNat = (if x.negative then 2 ^ 63 else 0) + x.magnitudeBits := by
  have hlt := x.bits.toNat_lt
  simp only [negative, magnitudeBits, Nat.pow_eq, decide_eq_true_eq]
  split <;> omega

theorem eq_ofParts {x : Binary64} {negative : Bool} (hsign : x.negative = negative) :
    x = ofParts negative x.magnitudeBits := by
  obtain ⟨bits⟩ := x
  have hbits := toNat_bits ⟨bits⟩
  rw [hsign] at hbits
  simp only [ofParts, Nat.pow_eq, mk.injEq]
  rw [← hbits, UInt64.ofNat_toNat]

/-- A finite number is given by its sign, its mantissa and the exponent of its last place. -/
theorem of_reading {x : Binary64} {negative : Bool} {m : Nat} {q : Int}
    (h : x.reading = .finite negative m q) :
    Represented m q ∧ x = ofParts negative (magnitudeOf m q) := by
  have hlt : x.magnitudeBits < 2 ^ 63 := Nat.mod_lt _ (Nat.two_pow_pos 63)
  have hparts := eq_ofParts (x := x) rfl
  simp only [reading, Nat.pow_eq] at h
  generalize x.magnitudeBits = bits at *
  split at h
  · split at h <;> cases h
  · split at h
    · cases h
      refine ⟨⟨le_rfl, by omega, by omega, .inl rfl⟩, ?_⟩
      refine hparts.trans (congrArg (ofParts x.negative) ?_)
      simp only [magnitudeOf]
      omega
    · cases h
      refine ⟨⟨by omega, by omega, by omega, .inr (by omega)⟩, ?_⟩
      refine hparts.trans (congrArg (ofParts x.negative) ?_)
      simp only [magnitudeOf]
      omega

theorem of_reading_infinite {x : Binary64} {negative : Bool}
    (h : x.reading = .infinite negative) : x = infinity negative := by
  have hparts := eq_ofParts (x := x) rfl
  simp only [reading, Nat.pow_eq] at h
  generalize x.magnitudeBits = bits at *
  split at h
  · split at h
    · cases h
      refine hparts.trans (congrArg (ofParts x.negative) ?_)
      simp only [infinityBits, Nat.pow_eq]
      omega
    · cases h
  · split at h <;> cases h

end Binary64

end Rollout
