/-
  **The composed normal form of a text (NFC).**

  Texts that look alike can be written with different symbols.  The normal form
  takes every symbol apart as far as it goes (`decompose`), brings the marks of
  each starter into the order of their classes (`reorder`), and puts symbols
  together again wherever a composite stands for them (`compose`).  A text
  without a symbol from U+0300 on is in normal form already.
-/
import StyleTemplate.Text.Normalization.CombiningClass
import StyleTemplate.Text.Normalization.Decomposition

namespace StyleTemplate

/-! ### Hangul

A syllable is made of a leading consonant, a vowel and, perhaps, a trailing
consonant.  There are 19 of the first, 21 of the second and 27 of the third, and
the syllables are numbered through. -/

/-- What a Hangul syllable is made of. -/
def decomposeHangul? (n : Nat) : Option (List Nat) :=
  if 0xAC00 ≤ n ∧ n < 0xAC00 + 11172 then
    let index := n - 0xAC00
    let trailing := index % 28
    some ([0x1100 + index / 588, 0x1161 + index % 588 / 28] ++
      if trailing = 0 then [] else [0x11A7 + trailing])
  else
    none

def composeHangul? (a b : Nat) : Option Nat :=
  if 0x1100 ≤ a ∧ a < 0x1113 ∧ 0x1161 ≤ b ∧ b < 0x1176 then
    some (0xAC00 + ((a - 0x1100) * 21 + (b - 0x1161)) * 28)
  else if 0xAC00 ≤ a ∧ a < 0xAC00 + 11172 ∧ (a - 0xAC00) % 28 = 0 ∧ 0x11A8 ≤ b ∧ b < 0x11C3 then
    some (a + (b - 0x11A7))
  else
    none

/-! ### Taking apart -/

/-- What a symbol is made of in the end.  Symbols below U+00C0 are made of
themselves alone. -/
def decomposeSymbol (c : Char) : List Char :=
  if c.toNat < 0xC0 then
    [c]
  else
    match decomposeHangul? c.toNat with
    | some parts => parts.map Char.ofNat
    | none =>
      match decompositionTable[c.toNat]? with
      | some parts => parts.map Char.ofNat
      | none => [c]

def decompose (text : List Char) : List Char :=
  text.flatMap decomposeSymbol

/-! ### Ordering marks -/

/-- Puts a symbol in front of a text and moves it behind the marks of smaller
classes that it meets there. -/
def settle (c : Char) : List Char → List Char
  | [] => [c]
  | d :: text =>
    if 0 < combiningClass d ∧ combiningClass d < combiningClass c then
      d :: settle c text
    else
      c :: d :: text

/-- A text with the marks behind each starter in the order of their classes;
marks of one class keep their order. -/
def reorder (text : List Char) : List Char :=
  text.foldr settle []

/-! ### Putting together -/

/-- The composite of two symbols.  The second is never below U+0300. -/
def composite? (a b : Char) : Option Char :=
  if b.toNat < 0x300 then
    none
  else
    match composeHangul? a.toNat b.toNat with
    | some c => some (Char.ofNat c)
    | none => compositionTable[(a.toNat, b.toNat)]?.map Char.ofNat

/-- Puts together what follows a starter.  `marks` are the marks behind it that
did not go into it, the last one first; a symbol of a class no greater than that
of the last mark is cut off from the starter. -/
def composeOnto (starter : Char) (marks : List Char) : List Char → List Char
  | [] => starter :: marks.reverse
  | c :: text =>
    let cutOff := marks.head?.any fun mark => combiningClass c ≤ combiningClass mark
    match if cutOff then none else composite? starter c with
    | some whole => composeOnto whole marks text
    | none =>
      if combiningClass c = 0 then
        starter :: (marks.reverse ++ composeOnto c [] text)
      else
        composeOnto starter (c :: marks) text

/-- A text with symbols put together wherever a composite stands for them. -/
def compose : List Char → List Char
  | [] => []
  | c :: text => if combiningClass c = 0 then composeOnto c [] text else c :: compose text

/-! ### The normal form -/

def normalize (text : List Char) : List Char :=
  if text.all (·.toNat < 0x300) then text else compose (reorder (decompose text))

end StyleTemplate
