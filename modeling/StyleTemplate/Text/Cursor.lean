/-
  **A cursor over a text.**

  A cursor is a text together with a place in it.  What is still to be read is
  not stored but derived (`Cursor.rest`), and every operation moves the place
  by the symbols that it has read, so that the three counts of the position
  stay those of the part already read.  Going back is setting the place to one
  that was saved before.
-/
import StyleTemplate.Text.ByteRange
import StyleTemplate.Text.SymbolClass

namespace StyleTemplate

/-! ### Errors -/

/-- Why a cursor could not read on. -/
inductive ReadError where
  /-- Nothing is left to read. -/
  | endOfInput (position : Position)
  /-- The next symbol, if any, is not of the expected kind. -/
  | unexpectedInput (expected : String) (found : Option Char) (position : Position)
deriving DecidableEq, Repr

namespace ReadError

def position : ReadError → Position
  | endOfInput p => p
  | unexpectedInput _ _ p => p

/-- The error in words; places are counted in UTF-16 units. -/
def message : ReadError → String
  | endOfInput p => s!"can't read at {p.unit16}: end of input"
  | unexpectedInput expected (some c) p => s!"expected {expected} at {p.unit16} but got '{c}'"
  | unexpectedInput expected none p => s!"expected {expected} at {p.unit16} but got EOF"

end ReadError

/-! ### The cursor -/

/-- A text and a place in it. -/
structure Cursor where
  source : List Char
  position : Position := {}
deriving DecidableEq, Repr

namespace Cursor

def ofText (source : List Char) : Cursor where
  source

/-- The part that is still to be read. -/
def rest (r : Cursor) : List Char :=
  r.source.drop r.position.symbol

/-- Moves over `text`, which stands at the cursor. -/
def moveOver (r : Cursor) (text : List Char) : Cursor :=
  { r with position := r.position.advanceAll text }

theorem rest_moveOver {r : Cursor} {front behind : List Char}
    (h : r.rest = front ++ behind) : (r.moveOver front).rest = behind := by
  have hdrop : r.rest.drop front.length = behind := by rw [h, List.drop_left]
  rw [rest, List.drop_drop] at hdrop
  rw [rest, moveOver, Position.advanceAll_eq]
  exact hdrop

theorem moveOver_append (r : Cursor) (front behind : List Char) :
    r.moveOver (front ++ behind) = (r.moveOver front).moveOver behind := by
  rw [moveOver, Position.advanceAll_append]
  rfl

def isAtEnd (r : Cursor) : Bool :=
  r.rest.isEmpty

theorem isAtEnd_iff {r : Cursor} : r.isAtEnd = true ↔ r.rest = [] :=
  List.isEmpty_iff

def hasLeft (r : Cursor) (n : Nat) : Bool :=
  r.position.symbol + n ≤ r.source.length

/-! ### Looking -/

def peek? (r : Cursor) : Option Char :=
  r.rest.head?

def looksAt (r : Cursor) (cls : SymbolClass) : Bool :=
  r.peek?.any cls.contains

/-! ### Reading -/

def read (r : Cursor) : Except ReadError Char × Cursor :=
  match r.peek? with
  | some c => (.ok c, r.moveOver [c])
  | none => (.error (.endOfInput r.position), r)

theorem read_of_rest {r : Cursor} {c : Char} {behind : List Char} (h : r.rest = c :: behind) :
    r.read = (.ok c, r.moveOver [c]) := by
  rw [read, peek?, h]
  rfl

/-- Reads the next symbol if it is of the class, and nothing otherwise. -/
def accept (r : Cursor) (cls : SymbolClass) : Option Char × Cursor :=
  match r.peek?.filter cls.contains with
  | some c => (some c, r.moveOver [c])
  | none => (none, r)

/-- Reads the next symbol, which has to be of the class. -/
def expect (r : Cursor) (cls : SymbolClass) : Except ReadError Char × Cursor :=
  match r.accept cls with
  | (some c, r') => (.ok c, r')
  | (none, r') => (.error (.unexpectedInput cls.describe r.peek? r.position), r')

/-- Reads the longest run of symbols of the class; it may be empty. -/
def readWhile (r : Cursor) (cls : SymbolClass) : List Char × Cursor :=
  let run := r.rest.takeWhile cls.contains
  (run, r.moveOver run)

def skipWhitespace (r : Cursor) : List Char × Cursor :=
  r.readWhile .whitespace

/-- Moves to the next symbol of the class and leaves it unread; without one,
moves to the end and answers `false`. -/
def seek (r : Cursor) (cls : SymbolClass) : Bool × Cursor :=
  let r' := r.moveOver (r.rest.takeWhile fun c => !cls.contains c)
  (!r'.isAtEnd, r')

/-! ### Going back -/

/-- Goes to a place saved before. -/
def restore (r : Cursor) (saved : Position) : Cursor :=
  { r with position := saved }

def reset (r : Cursor) : Cursor :=
  r.restore {}

/-! ### Cutting pieces out of the source -/

/-- The symbols from `start` to `stop`, both clamped to the text. -/
def slice (r : Cursor) (start stop : Nat) : List Char :=
  (r.source.take stop).drop start

/-- The stretch between two saved places; none if the second comes first. -/
def sliceBetween? (r : Cursor) (start stop : Position) : Option (List Char) :=
  cutBytes? r.source start.byte stop.byte

end Cursor

end StyleTemplate
