/-
  **Blank space, strings and numbers of TOML.**

  Blank space within a line is spaces and tabs; a comment goes to the end of its
  line and holds no control symbol but the tab.  Strings come in four sorts, with
  double or single quotes, on one line or on several.  Whole numbers fit 64 bits,
  and floating point numbers are the nearest ones to what is written.
-/
import StyleTemplate.Number.Decimal
import StyleTemplate.Toml.Value

namespace StyleTemplate.Toml.Reader

/-! ### Blank space and comments -/

/-- Symbols of the blank space within a line. -/
def isBlank (c : Char) : Bool :=
  c == ' ' || c == '\t'

/-- Symbols that may stand in a comment: no control but the tab. -/
def isText (c : Char) : Bool :=
  c == '\t' || (0x20 ≤ c.toNat && c.toNat != 0x7F)

def blank : Reader Unit :=
  discard (run isBlank)

/-- The end of a line; a carriage return counts only with its line feed. -/
def newline : Reader Unit := do
  discard (attempt (skip '\r'))
  skip '\n'

/-- A comment up to the end of its line. -/
def comment : Reader Unit := do
  skip '#'
  discard (run isText)

/-- The end of a line or of the text. -/
def lineEnd : Reader Unit := do
  unless ← accepts newline do
    endOfText

/-- What may stand behind a statement on its line, and the end of the line. -/
def restOfLine : Reader Unit := do
  blank
  discard (attempt comment)
  lineEnd

/-- Blank space over any number of lines, with comments. -/
def blankLines : Reader Unit := do
  blank
  discard <| many do
    discard (attempt comment)
    newline
    blank

/-! ### Strings -/

/-- Symbols that stand for themselves between double quotes. -/
def isBasicSymbol (c : Char) : Bool :=
  isText c && c != '"' && c != '\\'

/-- Symbols that may stand between single quotes. -/
def isLiteralSymbol (c : Char) : Bool :=
  isText c && c != '\''

def isHexDigit (c : Char) : Bool :=
  c.isDigit || ('a' ≤ c && c ≤ 'f') || ('A' ≤ c && c ≤ 'F')

/-- A given number of hexadecimal digits, as the symbol of that number. -/
def numberedSymbol (count : Nat) : Reader Char := do
  let digits ← upTo count (symbol isHexDigit)
  check (digits.length == count)
  let n := ofDigits 16 digits
  if n.isValidChar then return Char.ofNat n else failure

/-- A symbol written with a backslash. -/
def escaped : Reader Char := do
  skip '\\'
  match ← symbol fun _ => true with
  | 'b' => return '\x08'
  | 'f' => return '\x0c'
  | 'n' => return '\n'
  | 'r' => return '\r'
  | 't' => return '\t'
  | 'u' => numberedSymbol 4
  | 'U' => numberedSymbol 8
  | '\\' => return '\\'
  | '"' => return '"'
  | _ => failure

def basicSymbol : Reader Char := do
  match ← peek? with
  | some '\\' => escaped
  | _ => symbol isBasicSymbol

/-- A string between double quotes on one line. -/
def basicString : Reader String := do
  skip '"'
  let body ← many basicSymbol
  skip '"'
  return String.ofList body

/-- A string between single quotes on one line. -/
def literalString : Reader String := do
  skip '\''
  let body ← run isLiteralSymbol
  skip '\''
  return String.ofList body

/-- One or two quotes that do not close a string of several lines, because
another symbol follows them. -/
def innerQuotes (quote : Char) : Reader (List Char) := do
  let quotes ← run (· == quote)
  check (1 ≤ quotes.length && quotes.length ≤ 2)
  match ← peek? with
  | some _ => return quotes
  | none => failure

/-- The quotes at the end of a string of several lines: three that close it, and
up to two before them that belong to it, which are the result. -/
def closingQuotes (quote : Char) : Reader (List Char) := do
  let quotes ← upTo 5 (symbol (· == quote))
  check (3 ≤ quotes.length)
  return quotes.drop 3

/-- A backslash at the end of a line, which takes away the line end and all blank
space and line ends behind it. -/
def joinedLines : Reader (List Char) := do
  skip '\\'
  blank
  newline
  discard <| many do
    unless ← accepts newline do
      discard (symbol isBlank)
  return []

/-- A line end within a string counts as a line feed. -/
def newlineText : Reader (List Char) := do
  newline
  return ['\n']

def firstOf {α : Type} : List (Reader α) → Reader α
  | [] => failure
  | r :: more => do
    match ← attempt r with
    | some a => return a
    | none => firstOf more

def basicPiece : Reader (List Char) :=
  firstOf [joinedLines, List.singleton <$> basicSymbol, newlineText, innerQuotes '"']

def literalPiece : Reader (List Char) :=
  firstOf [List.singleton <$> symbol isLiteralSymbol, newlineText, innerQuotes '\'']

/-- A string of several lines, made of pieces; a line end right behind the
opening quotes does not belong to it. -/
def linesString (quote : Char) (piece : Reader (List Char)) : Reader String := do
  word (String.ofList [quote, quote, quote])
  discard (attempt newline)
  let pieces ← many piece
  let last ← closingQuotes quote
  return String.ofList (pieces.flatten ++ last)

def string : Reader String := do
  if ← followed "\"\"\"" then linesString '"' basicPiece
  else if ← followed "'''" then linesString '\'' literalPiece
  else firstOf [basicString, literalString]
where
  /-- Whether the text goes on with given symbols, which stay unread. -/
  followed (symbols : String) : Reader Bool :=
    fun text => some (symbols.toList.isPrefixOf text, text)

/-! ### Numbers -/

/-- Digits, with single underscores allowed between them; the underscores are
left out of the result. -/
def digitRun (isDigit : Char → Bool) : Reader (List Char) :=
  many1 (symbol isDigit) do
    discard (attempt (skip '_'))
    symbol isDigit

/-- A decimal number without zeros in front, with its sign. -/
def decimalDigits : Reader (Bool × List Char) := do
  let sign ← attempt (symbol fun c => c == '+' || c == '-')
  let negative := sign == some '-'
  if ← accepts (skip '0') then
    return (negative, ['0'])
  else
    return (negative, ← digitRun Char.isDigit)

def basedInteger (introduction : String) (base : Nat) (isDigit : Char → Bool) : Reader Int := do
  word introduction
  return ofDigits base (← digitRun isDigit)

/-- A whole number, which has to fit 64 bits. -/
def integer : Reader Int := do
  let n ← firstOf
    [basedInteger "0x" 16 isHexDigit,
     basedInteger "0o" 8 fun c => '0' ≤ c && c ≤ '7',
     basedInteger "0b" 2 fun c => c == '0' || c == '1',
     do
      let (negative, digits) ← decimalDigits
      let size : Int := ofDigits 10 digits
      return if negative then -size else size]
  check (Int64.minValue.toInt ≤ n && n ≤ Int64.maxValue.toInt)
  return n

def exponent : Reader Int := do
  discard (symbol fun c => c == 'e' || c == 'E')
  let sign ← attempt (symbol fun c => c == '+' || c == '-')
  let size : Int := ofDigits 10 (← digitRun Char.isDigit)
  return if sign == some '-' then -size else size

def decimals : Reader (List Char) := do
  skip '.'
  digitRun Char.isDigit

/-- A floating point number in digits.  One that is too great is refused; too far
below zero, it is negative infinity. -/
def decimalFloat : Reader Binary64 := do
  let (negative, whole) ← decimalDigits
  let places? ← attempt decimals
  let exponent? ← attempt exponent
  check (places?.isSome || exponent?.isSome)
  let places := places?.getD []
  let d : Decimal :=
    { coefficient := ofDigits 10 (whole ++ places),
      exponent := exponent?.getD 0 - places.length }
  let x := d.toBinary64 negative
  check (negative || !x.isInfinite)
  return x

/-- Infinity or not a number, in words. -/
def namedFloat : Reader Binary64 := do
  let sign ← attempt (symbol fun c => c == '+' || c == '-')
  if ← accepts (word "inf") then
    return .infinity (sign == some '-')
  else
    word "nan"
    return .nan

def float : Reader Binary64 :=
  firstOf [decimalFloat, namedFloat]

/-! ### Scalars -/

def boolean : Reader Bool := do
  if ← accepts (word "true") then
    return true
  else
    word "false"
    return false

def scalar : Reader Value :=
  firstOf
    [.string <$> string, .dateTime <$> dateTime, .float <$> float, .integer <$> integer,
     .boolean <$> boolean]

end StyleTemplate.Toml.Reader
