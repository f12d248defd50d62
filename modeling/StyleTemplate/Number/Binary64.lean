/-
  **Binary floating point numbers of 64 bits.**

  A number is its 64 bits: a sign, eleven bits of exponent and 52 of fraction.
  All arithmetic on it is exact arithmetic on natural numbers.  The size of a
  finite number is a whole multiple of the smallest positive one, 2^-1074, and
  `Binary64.units` is that multiple, so that no fraction ever appears.
-/

namespace StyleTemplate

structure Binary64 where
  bits : UInt64
deriving DecidableEq, Repr

namespace Binary64

/-! ### Fields -/

/-- The number of fractions, 2^52. -/
def fractions : Nat := Nat.pow 2 52

def magnitudeBits (x : Binary64) : Nat :=
  x.bits.toNat % Nat.pow 2 63

def isNegative (x : Binary64) : Bool :=
  Nat.pow 2 63 ≤ x.bits.toNat

def exponentField (x : Binary64) : Nat :=
  x.magnitudeBits / fractions

def fraction (x : Binary64) : Nat :=
  x.magnitudeBits % fractions

/-- The number with the given bits below the sign. -/
def ofMagnitudeBits (negative : Bool) (magnitude : Nat) : Binary64 where
  bits := UInt64.ofNat ((if negative then Nat.pow 2 63 else 0) + magnitude)

/-- The magnitude bits of infinity; those of a NaN are greater. -/
def infinityBits : Nat := 2047 * fractions

/-! ### Kinds of numbers -/

def isNaN (x : Binary64) : Bool :=
  infinityBits < x.magnitudeBits

def isInfinite (x : Binary64) : Bool :=
  x.magnitudeBits == infinityBits

def isFinite (x : Binary64) : Bool :=
  x.magnitudeBits < infinityBits

def isZero (x : Binary64) : Bool :=
  x.magnitudeBits == 0

def nan : Binary64 := ofMagnitudeBits false (infinityBits + fractions / 2)

def infinity (negative : Bool) : Binary64 := ofMagnitudeBits negative infinityBits

/-- Numbers are equal when they have one value: the two zeros are equal, and a
NaN is not even equal to itself. -/
protected def beq (x y : Binary64) : Bool :=
  !x.isNaN && !y.isNaN && (x.bits == y.bits || (x.isZero && y.isZero))

instance : BEq Binary64 := ⟨Binary64.beq⟩

theorem beq_iff {x y : Binary64} : (x == y) = true ↔
    x.isNaN = false ∧ y.isNaN = false ∧ (x = y ∨ x.isZero = true ∧ y.isZero = true) := by
  have hbits : x.bits = y.bits ↔ x = y := by
    cases x
    cases y
    simp
  change Binary64.beq x y = true ↔ _
  simp [Binary64.beq, hbits, and_assoc]

/-! ### Sizes

What follows is meant for finite numbers. -/

/-- The distance to the next greater size, in units of 2^-1074. -/
def spacing (x : Binary64) : Nat :=
  Nat.pow 2 (x.exponentField - 1)

def units (x : Binary64) : Nat :=
  if x.exponentField = 0 then x.fraction else (fractions + x.fraction) * x.spacing

/-- The distance to the next smaller size, in units of 2^-1074: half of the
distance upwards at a power of two, unless spacing is at its least there. -/
def spacingBelow (x : Binary64) : Nat :=
  if x.fraction = 0 ∧ 1 < x.exponentField then x.spacing / 2 else x.spacing

end Binary64

end StyleTemplate
