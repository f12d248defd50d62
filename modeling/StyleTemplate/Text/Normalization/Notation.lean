/-
  **The notation of symbol properties.**

  Properties of symbols are noted as words with blanks between them.  A symbol is
  its number in hexadecimal.  `0300..0314;230` gives a range of symbols a class,
  `0315;232` a single one; `00C0=0041+0300` says what a symbol is made of.
-/
import Std.Data.HashMap
import StyleTemplate.Number.Digits
import StyleTemplate.Text.Split

namespace StyleTemplate

/-- The words of some lines. -/
def wordsOf (lines : List String) : List (List Char) :=
  lines.flatMap fun line => splitOnSymbol ' ' line.toList

/-- A range, first and last symbol, with its class. -/
def classRangeOfWord (word : List Char) : Nat × Nat × Nat :=
  match splitOnSymbol ';' word with
  | [range, cls] =>
    match splitOnSymbol '.' range with
    | [first, _, last] => (ofDigits 16 first, ofDigits 16 last, ofDigits 10 cls)
    | _ => (ofDigits 16 range, ofDigits 16 range, ofDigits 10 cls)
  | _ => (0, 0, 0)

/-- A symbol with what it is made of. -/
def mappingOfWord (word : List Char) : Nat × List Nat :=
  match splitOnSymbol '=' word with
  | [symbol, parts] => (ofDigits 16 symbol, (splitOnSymbol '+' parts).map (ofDigits 16))
  | _ => (0, [])

end StyleTemplate
