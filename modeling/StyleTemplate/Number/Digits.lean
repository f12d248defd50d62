/-
  **Digits.**

  What digits denote, in bases up to sixteen.
-/

namespace StyleTemplate

/-- The value of a digit; letters in either case are the digits from ten on. -/
def digitValue (c : Char) : Nat :=
  if c.isDigit then c.toNat - '0'.toNat else c.toLower.toNat - 'a'.toNat + 10

/-- The number that digits denote in a base, the first digit being the greatest. -/
def ofDigits (base : Nat) (digits : List Char) : Nat :=
  digits.foldl (fun n c => base * n + digitValue c) 0

end StyleTemplate
