import Rollout.Number.Decimal

/-!
# Binary64 numbers

A number of the 64-bit binary format, held as its bits, so that equality is equality of bits.
Every computation is exact on naturals and integers.

**Operations.**
* `reading`: what the bits stand for;
* `ofRatio`: the number nearest to a quotient, a tie to the even mantissa;
* `ofDecimal`: the number nearest to `digits · 10 ^ exponent`;
* `shortest`: the fewest decimal digits that lie among the reals that round to the number;
* `text`: the shortest digits, positional for a leading weight from `10 ^ -4` up to below `10 ^ 16`.
-/

namespace Rollout

/-- A number of the 64-bit binary format. -/
structure Binary64 where
  bits : UInt64
  deriving DecidableEq, Inhabited

namespace Binary64

/-- What the bits of a number stand for. -/
inductive Reading
  | notANumber
  | infinite (negative : Bool)
  /-- The value `± mantissa · 2 ^ exponent`. -/
  | finite (negative : Bool) (mantissa : Nat) (exponent : Int)
  deriving DecidableEq

/-- The sign bit. -/
def negative (x : Binary64) : Bool := decide (Nat.pow 2 63 ≤ x.bits.toNat)

/-- The bits below the sign bit. -/
def magnitudeBits (x : Binary64) : Nat := x.bits.toNat % Nat.pow 2 63

/-- The magnitude bits of an infinity. -/
def infinityBits : Nat := 0x7FF * Nat.pow 2 52

def reading (x : Binary64) : Reading :=
  let m : Nat := x.magnitudeBits
  let e : Nat := m / Nat.pow 2 52
  let f : Nat := m % Nat.pow 2 52
  if e = 0x7FF then if f = 0 then .infinite x.negative else .notANumber
  else if e = 0 then .finite x.negative f (-1074)
  else .finite x.negative (Nat.pow 2 52 + f) ((e : Int) - 1075)

/-- Whether a number is neither an infinity nor no number at all. -/
def isFinite (x : Binary64) : Bool :=
  match x.reading with
  | .finite .. => true
  | .infinite _ | .notANumber => false

/-- The number with the given sign and magnitude bits. -/
def ofParts (negative : Bool) (magnitude : Nat) : Binary64 :=
  ⟨UInt64.ofNat ((if negative then Nat.pow 2 63 else 0) + magnitude)⟩

def nan : Binary64 := ofParts false (infinityBits + Nat.pow 2 51)

def infinity (negative : Bool) : Binary64 := ofParts negative infinityBits

def zero (negative : Bool) : Binary64 := ofParts negative 0

/-- The exponent of the last place of the number nearest to a positive quotient. -/
def placeExponent (num den : Nat) : Int :=
  let e : Int := max (-1074) ((Nat.log2 num : Int) - (Nat.log2 den : Int) - 53)
  if num * Nat.pow 2 (-e).toNat < den * Nat.pow 2 e.toNat * Nat.pow 2 53 then e else e + 1

/-- The number nearest to `± num / den`; a tie goes to the even mantissa, and what would need more
than the largest exponent is an infinity. -/
def ofRatio (negative : Bool) (num den : Nat) : Binary64 :=
  if num = 0 then zero negative
  else
    let e := placeExponent num den
    let m := Decimal.roundDiv (num * Nat.pow 2 (-e).toNat) (den * Nat.pow 2 e.toNat)
    -- A mantissa that rounds up to 2 ^ 53 carries into the exponent field by itself.
    ofParts negative (min infinityBits ((e + 1074).toNat * Nat.pow 2 52 + m))

/-- The number nearest to `± digits · 10 ^ exponent`. -/
def ofDecimal (negative : Bool) (digits : Nat) (exponent : Int) : Binary64 :=
  let leading : Int := (Decimal.ofNat digits).length + exponent
  if digits = 0 ∨ leading < -330 then zero negative
  else if 330 < leading then infinity negative
  else ofRatio negative (digits * Nat.pow 10 exponent.toNat) (Nat.pow 10 (-exponent).toNat)

/-- The number nearest to a rational. -/
def ofRat (q : Rat) : Binary64 := ofRatio (decide (q.num < 0)) q.num.natAbs q.den

/-- The exact value of a finite number. -/
def toRat? (x : Binary64) : Option Rat :=
  match x.reading with
  | .finite negative m e =>
    let magnitude : Rat := (m : Rat) * (Nat.pow 2 e.toNat : Nat) / (Nat.pow 2 (-e).toNat : Nat)
    some (if negative then -magnitude else magnitude)
  | _ => none

/-- Whether `a · 10 ^ i` lies strictly below `b · 2 ^ j`. -/
def decimalBelow (a : Nat) (i : Int) (b : Nat) (j : Int) : Bool :=
  decide (a * Nat.pow 10 i.toNat * Nat.pow 2 (-j).toNat <
    b * Nat.pow 2 j.toNat * Nat.pow 10 (-i).toNat)

/-- Whether `b · 2 ^ j` lies strictly below `a · 10 ^ i`. -/
def decimalAbove (a : Nat) (i : Int) (b : Nat) (j : Int) : Bool :=
  decide (b * Nat.pow 2 j.toNat * Nat.pow 10 (-i).toNat <
    a * Nat.pow 10 i.toNat * Nat.pow 2 (-j).toNat)

/-- Whether `digits · 10 ^ exponent` is among the reals that round to `m · 2 ^ q`.

The reals reach halfway to either neighbour, the ends included for an even mantissa. Below a power
of two the neighbour is only half as far away. -/
def readsBack (m : Nat) (q : Int) (digits : Nat) (exponent : Int) : Bool :=
  let narrow := m = Nat.pow 2 52 ∧ -1074 < q
  let low := if narrow then 4 * m - 1 else 4 * m - 2
  let high := 4 * m + 2
  if m % 2 = 0 then
    !decimalBelow digits exponent low (q - 2) && !decimalAbove digits exponent high (q - 2)
  else decimalAbove digits exponent low (q - 2) && decimalBelow digits exponent high (q - 2)

/-- The neighbour of `m · 2 ^ q` on the grid `10 ^ exponent` that reads back, the nearer of two, a
tie going to the even one. -/
def neighbour? (m : Nat) (q exponent : Int) : Option (Nat × Int) :=
  let num := m * Nat.pow 2 q.toNat * Nat.pow 10 (-exponent).toNat
  let den := Nat.pow 2 (-q).toNat * Nat.pow 10 exponent.toNat
  let below := num / den
  match readsBack m q below exponent, readsBack m q (below + 1) exponent with
  | true, true => some (Decimal.roundDiv num den, exponent)
  | true, false => some (below, exponent)
  | false, true => some (below + 1, exponent)
  | false, false => none

/-- The first grid with a neighbour that reads back, from coarse to fine. -/
def firstGrid (m : Nat) (q top : Int) : Nat → Nat → Option (Nat × Int)
  | 0, _ => none
  | tries + 1, count =>
    match neighbour? m q (top - count) with
    | some found => some found
    | none => firstGrid m q top tries (count + 1)

/-- The fewest significant digits that read back as `m · 2 ^ q`, with the weight of the first. -/
def shortest (m : Nat) (q : Int) : List Char × Int :=
  let num := m * Nat.pow 2 q.toNat
  let den := Nat.pow 2 (-q).toNat
  let top := Decimal.magnitude num den
  match firstGrid m q top 17 1 with
  | some (digits, exponent) =>
    let text := Decimal.ofNat digits
    (Decimal.stripZeros text, exponent + text.length - 1)
  | none =>
    -- Seventeen digits always read back; the exact value stands in for the missing case.
    let text := Decimal.ofNat (m * Nat.pow 2 q.toNat * Nat.pow 5 (-q).toNat)
    (Decimal.stripZeros text, min q 0 + text.length - 1)

/-- The shortest digits of a finite number: positional for a leading weight from `10 ^ -4` up to
below `10 ^ 16`, always with a fraction, and scientific otherwise. -/
def finiteText (m : Nat) (q : Int) : List Char :=
  if m = 0 then ['0', '.', '0']
  else
    let (digits, e) := shortest m q
    if -4 ≤ e ∧ e < 16 then
      let plain := Decimal.positional digits e
      if plain.contains '.' then plain else plain ++ ['.', '0']
    else Decimal.scientific digits e

/-- The text of a number: `1.5`, `-0.0`, `1e+16`, `inf`, `nan`. -/
def text (x : Binary64) : String :=
  match x.reading with
  | .notANumber => "nan"
  | .infinite negative => if negative then "-inf" else "inf"
  | .finite negative m q =>
    String.ofList ((if negative then ['-'] else []) ++ finiteText m q)

/-- Whether the number is zero of either sign. -/
def isZero (x : Binary64) : Bool := x.magnitudeBits == 0

/-- The integer that a number equals, if it is one. -/
def toInt? (x : Binary64) : Option Int :=
  match x.reading with
  | .finite negative m e =>
    let whole := m * Nat.pow 2 e.toNat
    let den := Nat.pow 2 (-e).toNat
    if whole % den = 0 then
      let n : Int := (whole / den : Nat)
      some (if negative then -n else n)
    else none
  | _ => none

end Binary64

end Rollout
