/-
  **Lines and columns.**

  A place given by its number of symbols is shown as a line and a column, both
  counted from 1.  A line ends after any of Unicode's mandatory breaks, and a
  carriage return with its line feed is one break.  A break at the very end of
  the text starts no line: the end of the text then still belongs to the line
  that the break ends.
-/

namespace StyleTemplate

def isLineBreak (c : Char) : Bool :=
  c == '\n' || c == '\r' || c == '\x0b' || c == '\x0c' || c == '\u0085' ||
  c == '\u2028' || c == '\u2029'

/-- Where lines start in `text`, whose first symbol has the number `offset` and
starts no line of its own. -/
def laterLineStarts (offset : Nat) : List Char → List Nat
  | [] => []
  | '\r' :: '\n' :: text =>
    (if text.isEmpty then [] else [offset + 2]) ++ laterLineStarts (offset + 2) text
  | c :: text =>
    (if isLineBreak c && !text.isEmpty then [offset + 1] else []) ++
      laterLineStarts (offset + 1) text

/-- Where the lines of a text start, in symbols. -/
def lineStarts (text : List Char) : List Nat :=
  0 :: laterLineStarts 0 text

/-- A line and a column, both counted from 1. -/
structure Location where
  line : Nat
  column : Nat
deriving DecidableEq, Repr

namespace Location

/-- The location of the symbol number `offset`. -/
def ofOffset (text : List Char) (offset : Nat) : Location :=
  let starts := (lineStarts text).filter (· ≤ offset)
  { line := starts.length, column := offset - starts.getLastD 0 + 1 }

/-- The location of the first symbol of a stretch, unless the stretch begins, or
its last symbol lies, beyond the end of the text. -/
def ofStretch? (text : List Char) (start stop : Nat) : Option Location :=
  if start ≤ text.length ∧ stop - 1 ≤ text.length then
    some (ofOffset text start)
  else
    none

def inFile (l : Location) (file : String) : String :=
  s!"{file}:{l.line}:{l.column}"

end Location

end StyleTemplate
