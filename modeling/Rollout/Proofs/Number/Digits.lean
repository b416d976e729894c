import Rollout.Json.Reader
import Mathlib.Algebra.Order.Ring.Nat
import Mathlib.Data.List.Basic
import Mathlib.Data.List.TakeWhile
import Mathlib.Tactic.IntervalCases
import Mathlib.Tactic.Ring

/-!
# Decimal digits

Writing a natural and reading the digits again are inverse to each other, and zeros in front of
digits or behind them count as powers of ten.

The digits of a positive natural start with a digit other than zero (`head_ofNat`), and their number
bounds the natural from both sides (`pow_length_le`, `lt_pow_length`). The zeros at the end can be
taken off and counted apart (`ofNat_stripped`).
-/

namespace Rollout

open Json (digitsValue)

namespace Decimal

theorem digitsValue_eq (digits : List Char) : digitsValue digits = Nat.ofDigitChars 10 digits 0 := by
  simp [digitsValue, Nat.ofDigitChars_eq_foldl, Nat.mul_comm]

theorem digitsValue_append (left right : List Char) :
    digitsValue (left ++ right) = digitsValue left * 10 ^ right.length + digitsValue right := by
  rw [digitsValue_eq, digitsValue_eq, digitsValue_eq, Nat.ofDigitChars_append,
    Nat.ofDigitChars_eq_ofDigitChars_zero, Nat.mul_comm]

theorem digitsValue_zeros (count : Nat) : digitsValue (zeros count) = 0 := by
  rw [digitsValue_eq, zeros, Nat.ofDigitChars_replicate_zero, Nat.mul_zero]

theorem digitsValue_zeros_append (count : Nat) (digits : List Char) :
    digitsValue (zeros count ++ digits) = digitsValue digits := by
  rw [digitsValue_append, digitsValue_zeros, Nat.zero_mul, Nat.zero_add]

theorem digitsValue_append_zeros (digits : List Char) (count : Nat) :
    digitsValue (digits ++ zeros count) = digitsValue digits * 10 ^ count := by
  rw [digitsValue_append, digitsValue_zeros, Nat.add_zero, zeros, List.length_replicate]

@[simp] theorem digitsValue_ofNat (n : Nat) : digitsValue (ofNat n) = n := by
  rw [digitsValue_eq, ofNat, Nat.ofDigitChars_ten_toDigits]

theorem ofNat_injective {n m : Nat} (h : ofNat n = ofNat m) : n = m := by
  rw [← digitsValue_ofNat n, h, digitsValue_ofNat]

theorem isDigit_ofNat {n : Nat} {c : Char} (h : c ∈ ofNat n) : c.isDigit = true :=
  Nat.isDigit_of_mem_toDigits (by decide) (by decide) h

theorem isDigit_zeros {count : Nat} {c : Char} (h : c ∈ zeros count) : c.isDigit = true := by
  rw [(List.mem_replicate.1 h).2]
  rfl

theorem length_ofNat_pos (n : Nat) : 0 < (ofNat n).length :=
  List.length_pos_iff.2 (ofNat_ne_nil n)

theorem lt_pow_length (n : Nat) : n < 10 ^ (ofNat n).length :=
  (Nat.length_toDigits_le_iff (by decide) (length_ofNat_pos n)).1 le_rfl

theorem pow_length_le {n : Nat} (h : 0 < n) : 10 ^ ((ofNat n).length - 1) ≤ n := by
  obtain hone | hmore : (ofNat n).length = 1 ∨ 1 < (ofNat n).length := by
    have := length_ofNat_pos n
    omega
  · rw [hone]
    exact h
  · by_contra hlt
    have hshort : (ofNat n).length ≤ (ofNat n).length - 1 :=
      (Nat.length_toDigits_le_iff (by decide) (by omega)).2 (not_le.1 hlt)
    omega

/-- A natural of at least two digits is written as its tens and its ones. -/
theorem ofNat_tens {n : Nat} (h : 10 ≤ n) : ofNat n = ofNat (n / 10) ++ ofNat (n % 10) := by
  rw [ofNat, Nat.toDigits_of_base_le (by decide) h, ofNat, ofNat,
    Nat.toDigits_of_lt_base (Nat.mod_lt n (by decide))]

theorem head_ofNat {n : Nat} (h : 0 < n) : (ofNat n).head? ≠ some '0' := by
  induction n using Nat.strong_induction_on with
  | _ n ih =>
    obtain hsmall | hlarge := Nat.lt_or_ge n 10
    · interval_cases n <;> decide
    · have htens : 0 < n / 10 := by omega
      rw [ofNat_tens hlarge, List.head?_append_of_ne_nil _ (ofNat_ne_nil _)]
      exact ih (n / 10) (by omega) htens

/-! ### Zeros at the end -/

theorem stripZeros_append (digits : List Char) :
    ∃ count, digits = stripZeros digits ++ zeros count := by
  refine ⟨(digits.reverse.takeWhile (· == '0')).length, ?_⟩
  have hzeros : digits.reverse.takeWhile (· == '0') =
      zeros (digits.reverse.takeWhile (· == '0')).length := by
    refine List.eq_replicate_iff.2 ⟨rfl, ?_⟩
    intro c hc
    simpa using List.mem_takeWhile_imp hc
  have hwhole : digits.reverse =
      digits.reverse.takeWhile (· == '0') ++ digits.reverse.dropWhile (· == '0') :=
    List.takeWhile_append_dropWhile.symm
  have hreverse := congrArg List.reverse hwhole
  rw [List.reverse_reverse, List.reverse_append] at hreverse
  rw [hzeros] at hreverse
  simpa [stripZeros, zeros] using hreverse

/-- The digits of a positive natural without the zeros at the end: they are still digits, the first
is not zero, and the zeros count as a power of ten. -/
theorem ofNat_stripped {n : Nat} (h : 0 < n) :
    ∃ count, (ofNat n).length = (stripZeros (ofNat n)).length + count ∧
      n = digitsValue (stripZeros (ofNat n)) * 10 ^ count ∧
      stripZeros (ofNat n) ≠ [] ∧ (stripZeros (ofNat n)).head? ≠ some '0' ∧
      ∀ c ∈ stripZeros (ofNat n), c.isDigit = true := by
  obtain ⟨count, hparts⟩ := stripZeros_append (ofNat n)
  have hvalue : n = digitsValue (stripZeros (ofNat n)) * 10 ^ count := by
    rw [← digitsValue_append_zeros, ← hparts, digitsValue_ofNat]
  have hne : stripZeros (ofNat n) ≠ [] := by
    intro hnil
    rw [hnil] at hvalue
    simp [digitsValue] at hvalue
    omega
  refine ⟨count, ?_, hvalue, hne, ?_, ?_⟩
  · have hlength := congrArg List.length hparts
    simpa [zeros] using hlength
  · have hhead := head_ofNat h
    rw [hparts, List.head?_append_of_ne_nil _ hne] at hhead
    exact hhead
  · intro c hc
    refine isDigit_ofNat (n := n) ?_
    rw [hparts]
    exact List.mem_append_left _ hc

end Decimal

end Rollout
