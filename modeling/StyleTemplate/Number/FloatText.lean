/-
  **The text of floating point numbers.**

  A finite number is written with the fewest digits that read back.  From 10^-6
  on and below 10^21 it is written positionally, without an exponent and without
  `.0`; outside with one digit before the point and an exponent that always
  has a sign.  Both zeros are written `0`.
-/
import StyleTemplate.Number.Decimal

namespace StyleTemplate

/-! ### Digits -/

def digitsOf (n : Nat) : List Char :=
  Nat.toDigits 10 n

/-- A decimal written positionally; `digits` are those of its coefficient. -/
def positional (digits : List Char) (exponent : Int) : List Char :=
  if 0 ≤ exponent then
    digits ++ List.replicate exponent.toNat '0'
  else
    let places := (-exponent).toNat
    if places < digits.length then
      digits.take (digits.length - places) ++ '.' :: digits.drop (digits.length - places)
    else
      '0' :: '.' :: List.replicate (places - digits.length) '0' ++ digits

/-- A decimal written with an exponent of ten that has a sign. -/
def scientific (digits : List Char) (leadingExponent : Int) : List Char :=
  let mantissa :=
    match digits with
    | first :: second :: more => first :: '.' :: second :: more
    | digits => digits
  let sign := if leadingExponent < 0 then '-' else '+'
  mantissa ++ 'e' :: sign :: digitsOf leadingExponent.natAbs

/-! ### Numbers -/

/-- The least size that is written positionally. -/
def leastPositional : Binary64 := Decimal.toBinary64 false ⟨1, -6⟩

/-- The least size that is written with an exponent again. -/
def leastScientific : Binary64 := Decimal.toBinary64 false ⟨1, 21⟩

def magnitudeText (x : Binary64) : List Char :=
  let d := Decimal.ofBinary64 x
  let digits := digitsOf d.coefficient
  if leastPositional.units ≤ x.units ∧ x.units < leastScientific.units then
    positional digits d.exponent
  else
    scientific digits d.leadingExponent

def Binary64.text (x : Binary64) : String :=
  if x.isNaN then "NaN"
  else if x.isInfinite then (if x.isNegative then "-Infinity" else "Infinity")
  else if x.isZero then "0"
  else String.ofList (if x.isNegative then '-' :: magnitudeText x else magnitudeText x)

end StyleTemplate
