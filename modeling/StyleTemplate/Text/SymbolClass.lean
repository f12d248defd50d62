/-
  **The classes of symbols that the placeholder grammar tells apart.**

  Every decision of the grammar looks at one symbol and asks whether it belongs
  to a class.  The classes are data (`SymbolClass`), so that an error can say
  which one was expected (`SymbolClass.describe`), and membership is a decision
  on a single symbol (`SymbolClass.contains`).
-/

namespace StyleTemplate

/-! ### White space -/

/-- The Unicode property White_Space, all 25 symbols of it. -/
def isWhite (c : Char) : Bool :=
  let n := c.toNat
  (0x09 ≤ n && n ≤ 0x0D) || n == 0x20 || n == 0x85 || n == 0xA0 || n == 0x1680 ||
  (0x2000 ≤ n && n ≤ 0x200A) || n == 0x2028 || n == 0x2029 || n == 0x202F ||
  n == 0x205F || n == 0x3000

/-- The white space at the front of a text. -/
def leadingWhite (text : List Char) : List Char :=
  text.takeWhile isWhite

/-- A text less the white space at its front. -/
def skipWhite (text : List Char) : List Char :=
  text.dropWhile isWhite

/-- A text less the white space at its end. -/
def trimEnd (text : List Char) : List Char :=
  (text.reverse.dropWhile isWhite).reverse

theorem skipWhite_length_le (text : List Char) : (skipWhite text).length ≤ text.length :=
  (List.dropWhile_sublist isWhite).length_le

/-! ### Names, quotes and terminators -/

/-- Symbols of a placeholder's name: ASCII letters and digits, `_`, `-` and the
dot that separates the segments. -/
def isNameSymbol (c : Char) : Bool :=
  c.isAlphanum || c == '_' || c == '-' || c == '.'

/-- The two delimiters of a quoted argument. -/
def isQuote (c : Char) : Bool :=
  c == '"' || c == '\''

/-- The symbols that end a declaration or its property name. -/
def isTerminator (c : Char) : Bool :=
  c == ';' || c == ':'

/-- Symbols of an argument that is written without quotes. -/
def isBareArgument (c : Char) : Bool :=
  !(c == ',' || c == ')')

/-- Symbols that stand for themselves between two quotes `delimiter`. -/
def isQuotedBody (delimiter c : Char) : Bool :=
  !(c == delimiter || c == '\\')

/-! ### Classes as data -/

inductive SymbolClass where
  | exactly (symbol : Char)
  | whitespace
  | nameSymbol
  | quote
  | terminator
  | bareArgument
  | quotedBody (delimiter : Char)
deriving DecidableEq, Repr

namespace SymbolClass

def contains : SymbolClass → Char → Bool
  | exactly symbol, c => c == symbol
  | whitespace, c => isWhite c
  | nameSymbol, c => isNameSymbol c
  | quote, c => isQuote c
  | terminator, c => isTerminator c
  | bareArgument, c => isBareArgument c
  | quotedBody delimiter, c => isQuotedBody delimiter c

/-- The class in the words of an error message. -/
def describe : SymbolClass → String
  | exactly symbol => "'" ++ symbol.toString ++ "'"
  | whitespace => "whitespace"
  | nameSymbol => "name character [a-zA-Z0-9_.-]"
  | quote => "quote"
  | terminator => "';' or ':'"
  | bareArgument => "argument character"
  | quotedBody delimiter => "anything but '" ++ delimiter.toString ++ "' or '\\'"

end SymbolClass

end StyleTemplate
