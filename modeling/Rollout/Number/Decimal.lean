/-!
# Decimals

Quotients of naturals written with decimal digits.

**Operations.**
* `roundDiv`: a quotient rounded to the nearest natural, a tie to the even neighbour;
* `magnitude`: the least `k` with `num / den < 10 ^ k`;
* `fixed`: a quotient with a set number of places;
* `general`: a quotient with at most six significant digits, in whichever of the positional and the
  scientific form is the shorter.

**Results.**
* `roundDiv_near`: a rounded quotient is within half a unit of the exact one;
* `ofNat_ne_nil`: the digits of a natural are never empty.
-/

namespace Rollout.Decimal

/-- The quotient `num / den` rounded to the nearest natural; a tie goes to the even neighbour. -/
def roundDiv (num den : Nat) : Nat :=
  let q := num / den
  let r := num % den
  if 2 * r < den then q
  else if den < 2 * r then q + 1
  else if q % 2 = 0 then q else q + 1

/-- The rounded quotient is within half a unit of the exact one. -/
theorem roundDiv_near {num den : Nat} (h : 0 < den) :
    2 * (roundDiv num den * den) ≤ 2 * num + den ∧
      2 * num ≤ 2 * (roundDiv num den * den) + den := by
  have e : den * (num / den) + num % den = num := Nat.div_add_mod num den
  have l : num % den < den := Nat.mod_lt _ h
  simp only [roundDiv]
  generalize num / den = q at *
  generalize num % den = r at *
  have hq : (q + 1) * den = den * q + den := by rw [Nat.add_mul, Nat.mul_comm]; simp
  have hq0 : q * den = den * q := Nat.mul_comm ..
  generalize den * q = p at *
  split
  · omega
  · split
    · omega
    · split <;> omega

/-- The decimal digits of a natural, most significant first. -/
def ofNat (n : Nat) : List Char := Nat.toDigits 10 n

/-- Whether `num / den < 10 ^ k`. -/
def below (num den : Nat) (k : Int) : Bool :=
  decide (num * Nat.pow 10 (-k).toNat < den * Nat.pow 10 k.toNat)

/-- The least of the candidates `k`, `k + 1`, … that lies above the quotient. -/
def leastAbove (num den : Nat) : Nat → Int → Int
  | 0, k => k
  | tries + 1, k => if below num den k then k else leastAbove num den tries (k + 1)

/-- The least `k` with `num / den < 10 ^ k`, for a positive quotient.

The binary logarithms of the two sides give a first guess that is never too large. -/
def magnitude (num den : Nat) : Int :=
  let bits : Int := (Nat.log2 num : Int) - (Nat.log2 den : Int) - 1
  leastAbove num den 5 (bits * 30103 / 100000 - 1)

/-- `count` zeros. -/
def zeros (count : Nat) : List Char := List.replicate count '0'

/-- Digits with a point before the last `places` of them; a lone zero stands before the point. -/
def pointed (digits : List Char) (places : Nat) : List Char :=
  if places = 0 then digits
  else
    let padded := zeros (places + 1 - digits.length) ++ digits
    padded.take (padded.length - places) ++ '.' :: padded.drop (padded.length - places)

/-- The quotient with exactly `places` digits after the point. -/
def fixed (places num den : Nat) : List Char :=
  pointed (ofNat (roundDiv (num * Nat.pow 10 places) den)) places

/-- Digits without the zeros at their end. -/
def stripZeros (digits : List Char) : List Char :=
  (digits.reverse.dropWhile (· == '0')).reverse

/-- An exponent with its sign and at least two digits. -/
def exponentText (e : Int) : List Char :=
  let digits := ofNat e.natAbs
  (if e < 0 then '-' else '+') :: (zeros (2 - digits.length) ++ digits)

/-- Significant digits, the first of which has the weight `10 ^ e`, in scientific form. -/
def scientific (digits : List Char) (e : Int) : List Char :=
  match digits with
  | [] => ['0']
  | [d] => d :: 'e' :: exponentText e
  | d :: rest => d :: '.' :: rest ++ 'e' :: exponentText e

/-- Significant digits, the first of which has the weight `10 ^ e`, in positional form. -/
def positional (digits : List Char) (e : Int) : List Char :=
  if e < 0 then '0' :: '.' :: zeros ((-e).toNat - 1) ++ digits
  else
    let whole := e.toNat + 1
    if digits.length ≤ whole then digits ++ zeros (whole - digits.length)
    else digits.take whole ++ '.' :: digits.drop whole

/-- A positive quotient rounded to `count` significant digits, with the weight of the first. -/
def significant (count num den : Nat) : List Char × Int :=
  let k := magnitude num den
  let shift := (count : Int) - k
  let rounded := roundDiv (num * Nat.pow 10 shift.toNat) (den * Nat.pow 10 (-shift).toNat)
  if rounded = Nat.pow 10 count then (ofNat (Nat.pow 10 (count - 1)), k) else (ofNat rounded, k - 1)

/-- At most six significant digits: positional for a leading weight from `10 ^ -4` up to below
`10 ^ 6`, scientific otherwise, in either case without zeros at the end of the fraction. -/
def general (num den : Nat) : List Char :=
  if num = 0 then ['0']
  else
    let (digits, e) := significant 6 num den
    let kept := stripZeros digits
    if -4 ≤ e ∧ e < 6 then positional kept e else scientific kept e

theorem ofNat_ne_nil (n : Nat) : ofNat n ≠ [] := by
  simp [ofNat, Nat.toDigits_ne_nil]

end Rollout.Decimal
