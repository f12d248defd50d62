/-
  **Decimal numbers and their binary neighbours.**

  A decimal is a whole number times a power of ten.  Reading one rounds it to
  the nearest binary number, and a tie goes to the even one
  (`Decimal.toBinary64`).  Writing a binary number takes the fewest digits that
  read back as it (`Decimal.ofBinary64`): on the grids of one, two, … seventeen
  digits the two neighbours of the number are tested for lying among the reals
  that round to it; the first grid with a hit wins, of two hits the nearer one,
  and of two equally near the greater.  Both work in exact arithmetic.
-/
import StyleTemplate.Number.Binary64

namespace StyleTemplate

structure Decimal where
  coefficient : Nat
  exponent : Int
deriving DecidableEq, Repr

/-- The number of decimal digits of a number; zero has one. -/
def digitCount (n : Nat) : Nat :=
  if n < 10 then 1 else digitCount (n / 10) + 1

namespace Decimal

/-- The factors `(a, b)` with `10 ^ exponent = a / b`, one of them being 1. -/
def tenPower (exponent : Int) : Nat × Nat :=
  (Nat.pow 10 exponent.toNat, Nat.pow 10 (-exponent).toNat)

def leadingExponent (d : Decimal) : Int :=
  digitCount d.coefficient - 1 + d.exponent

/-- The same number without zeros at the end of the coefficient. -/
def trim (d : Decimal) : Decimal :=
  if _h : d.coefficient ≠ 0 ∧ d.coefficient % 10 = 0 then
    trim ⟨d.coefficient / 10, d.exponent + 1⟩
  else
    d
termination_by d.coefficient
decreasing_by omega

/-! ### Reading -/

/-- The whole number nearest to `numerator / denominator`, the even one of two. -/
def roundQuotient (numerator denominator : Nat) : Nat :=
  let quotient := numerator / denominator
  let remainder := numerator % denominator
  if 2 * remainder < denominator then quotient
  else if denominator < 2 * remainder then quotient + 1
  else quotient + quotient % 2

/-- The magnitude bits of the binary number nearest to `numerator / denominator`.
The result has as many fraction bits as fit, with 2^-1074 as the least unit. -/
def roundRatio (numerator denominator : Nat) : Nat :=
  let guess : Int := numerator.log2 - denominator.log2
  let reaches : Bool :=
    denominator * Nat.pow 2 guess.toNat ≤ numerator * Nat.pow 2 (-guess).toNat
  let unit : Int := max ((if reaches then guess else guess - 1) - 52) (-1074)
  let significand :=
    roundQuotient (numerator * Nat.pow 2 (-unit).toNat) (denominator * Nat.pow 2 unit.toNat)
  (unit + 1074).toNat * Binary64.fractions + significand

/-- The binary number nearest to a decimal.  From 10^310 on all is infinite and
below 10^-330 all is zero, without a look at the digits. -/
def toBinary64 (negative : Bool) (d : Decimal) : Binary64 :=
  if d.coefficient = 0 ∨ d.leadingExponent < -330 then
    .ofMagnitudeBits negative 0
  else if 310 < d.leadingExponent then
    .infinity negative
  else
    let (a, b) := tenPower d.exponent
    .ofMagnitudeBits negative (min (roundRatio (d.coefficient * a) b) Binary64.infinityBits)

/-! ### Writing -/

/-- The exponent of the first digit of `numerator / denominator`, neither being 0. -/
def exponentOfRatio (numerator denominator : Nat) : Int :=
  if denominator ≤ numerator then
    digitCount (numerator / denominator) - 1
  else
    -(digitCount ((denominator - 1) / numerator) : Int)

/-- The point nearest to `x` among its two neighbours on the grid of the multiples
of `10 ^ exponent`, as far as they read back as `x`.  A half way point between two
binary numbers reads as the one with an even significand. -/
def ofGrid? (x : Binary64) (exponent : Int) : Option Decimal :=
  let (a, b) := tenPower exponent
  let value := 2 * x.units * b
  let step := Nat.pow 2 1075 * a
  let low := (2 * x.units - x.spacingBelow) * b
  let high := (2 * x.units + x.spacing) * b
  let closed := x.fraction % 2 == 0
  let readsBack (coefficient : Nat) : Bool :=
    let point := coefficient * step
    if closed then low ≤ point && point ≤ high else low < point && point < high
  let lower := value / step
  let upper := lower + 1
  let point (coefficient : Nat) : Decimal := ⟨coefficient, exponent⟩
  match readsBack lower, readsBack upper with
  | true, true => some (point (if value - lower * step < upper * step - value then lower else upper))
  | true, false => some (point lower)
  | false, true => some (point upper)
  | false, false => none

/-- The decimal of fewest digits that reads as the size of `x`, which is finite
and not zero. -/
def ofBinary64 (x : Binary64) : Decimal :=
  let leading := exponentOfRatio x.units (Nat.pow 2 1074)
  let found := (List.range 17).findSome? fun (more : Nat) => ofGrid? x (leading - more)
  (found.getD ⟨x.units * Nat.pow 5 1074, -1074⟩).trim

end Decimal

end StyleTemplate
