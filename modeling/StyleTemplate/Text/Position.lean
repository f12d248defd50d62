/-
  **Positions in a text, counted in three units at once.**

  A text is a list of symbols (Unicode scalar values).  Three parties count it
  differently: the scanner counts symbols, editors and browser tools count
  UTF-16 units, and files are cut at UTF-8 bytes.  A `Position` carries all
  three counts and is only ever moved by `Position.advance`, so that the three
  always describe the same place: `Position.advanceAll_eq` says that after
  reading `text` each count has grown by the length of `text` in its own unit.
-/

namespace StyleTemplate

/-! ### Lengths -/

/-- The number of bytes that a text takes in UTF-8. -/
def utf8Length : List Char → Nat
  | [] => 0
  | c :: text => c.utf8Size + utf8Length text

/-- The number of UTF-16 units of a symbol: two at or above U+10000, else one. -/
def utf16Size (c : Char) : Nat :=
  if c.toNat < 0x10000 then 1 else 2

/-- The number of units that a text takes in UTF-16. -/
def utf16Length : List Char → Nat
  | [] => 0
  | c :: text => utf16Size c + utf16Length text

@[simp] theorem utf8Length_nil : utf8Length [] = 0 := rfl

@[simp] theorem utf8Length_cons (c : Char) (text : List Char) :
    utf8Length (c :: text) = c.utf8Size + utf8Length text := rfl

@[simp] theorem utf8Length_append (a b : List Char) :
    utf8Length (a ++ b) = utf8Length a + utf8Length b := by
  induction a with
  | nil => simp
  | cons c a ih => simp [ih]; omega

@[simp] theorem utf16Length_nil : utf16Length [] = 0 := rfl

@[simp] theorem utf16Length_cons (c : Char) (text : List Char) :
    utf16Length (c :: text) = utf16Size c + utf16Length text := rfl

@[simp] theorem utf16Length_append (a b : List Char) :
    utf16Length (a ++ b) = utf16Length a + utf16Length b := by
  induction a with
  | nil => simp
  | cons c a ih => simp [ih]; omega

/-! ### Positions -/

/-- A place in a text: how many symbols, UTF-16 units and bytes stand before it. -/
structure Position where
  symbol : Nat := 0
  unit16 : Nat := 0
  byte : Nat := 0
deriving DecidableEq, Repr, Inhabited

namespace Position

/-- The place just after the symbol `c` that stands at `p`. -/
def advance (p : Position) (c : Char) : Position where
  symbol := p.symbol + 1
  unit16 := p.unit16 + utf16Size c
  byte := p.byte + c.utf8Size

/-- The place just after the stretch `text` that starts at `p`. -/
def advanceAll (p : Position) (text : List Char) : Position :=
  text.foldl advance p

/-- The place just after `text`, counted from the start of a text. -/
def after (text : List Char) : Position :=
  advanceAll {} text

@[simp] theorem advanceAll_nil (p : Position) : p.advanceAll [] = p := rfl

@[simp] theorem advanceAll_cons (p : Position) (c : Char) (text : List Char) :
    p.advanceAll (c :: text) = (p.advance c).advanceAll text := rfl

theorem advanceAll_append (p : Position) (a b : List Char) :
    p.advanceAll (a ++ b) = (p.advanceAll a).advanceAll b := by
  simp [advanceAll]

/-- Reading a stretch moves each count by the length of the stretch in that unit. -/
theorem advanceAll_eq (p : Position) (text : List Char) :
    p.advanceAll text =
      ⟨p.symbol + text.length, p.unit16 + utf16Length text, p.byte + utf8Length text⟩ := by
  induction text generalizing p with
  | nil => rfl
  | cons c text ih => simp [ih, advance]; omega

@[simp] theorem after_nil : after [] = {} := rfl

theorem after_append (a b : List Char) : after (a ++ b) = (after a).advanceAll b :=
  advanceAll_append {} a b

@[simp] theorem after_symbol (text : List Char) : (after text).symbol = text.length := by
  simp [after, advanceAll_eq]

@[simp] theorem after_unit16 (text : List Char) : (after text).unit16 = utf16Length text := by
  simp [after, advanceAll_eq]

@[simp] theorem after_byte (text : List Char) : (after text).byte = utf8Length text := by
  simp [after, advanceAll_eq]

end Position

end StyleTemplate
