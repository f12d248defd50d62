/-
  **Errors of malformed placeholders.**

  A phrase that cannot be read becomes an error that says what is wrong and
  which stretch of the text it concerns: from the marker to the symbol at which
  reading stopped.
-/
import StyleTemplate.Text.Cursor
import StyleTemplate.Token.Phrase

namespace StyleTemplate

/-- The stretch of a text that an error concerns, in symbols, and the place of
its first symbol in UTF-16 units. -/
structure Extent where
  start : Nat
  stop : Nat
  unit16 : Nat
deriving DecidableEq, Repr

namespace Extent

def between (start stop : Position) : Extent where
  start := start.symbol
  stop := stop.symbol
  unit16 := start.unit16

end Extent

inductive SyntaxError where
  | emptyTokenName (marker : Char) (extent : Extent)
  | emptyPathSegment (name : String) (extent : Extent)
  | missingArgument (name : String) (extent : Extent)
  | unterminatedQuotedArgument (name : String) (extent : Extent)
  /-- `cause` says what stands in place of the closing parenthesis. -/
  | unterminatedArgumentList (name : String) (extent : Extent) (cause : ReadError)
  /-- The text could not be read at all. -/
  | unreadable (cause : ReadError)
deriving DecidableEq, Repr

namespace SyntaxError

/-- The stretch that the error concerns, if it is known. -/
def extent? : SyntaxError → Option Extent
  | emptyTokenName _ extent => some extent
  | emptyPathSegment _ extent => some extent
  | missingArgument _ extent => some extent
  | unterminatedQuotedArgument _ extent => some extent
  | unterminatedArgumentList _ extent _ => some extent
  | unreadable _ => none

def name? : SyntaxError → Option String
  | emptyTokenName _ _ => none
  | emptyPathSegment name _ => some name
  | missingArgument name _ => some name
  | unterminatedQuotedArgument name _ => some name
  | unterminatedArgumentList name _ _ => some name
  | unreadable _ => none

def cause? : SyntaxError → Option ReadError
  | unterminatedArgumentList _ _ cause => some cause
  | unreadable cause => some cause
  | _ => none

/-- The error in words; places are counted in UTF-16 units. -/
def message : SyntaxError → String
  | emptyTokenName marker extent => s!"empty token name after '{marker}' at {extent.unit16}"
  | emptyPathSegment name extent => s!"empty path segment in '{name}' at {extent.unit16}"
  | missingArgument name extent => s!"missing argument for '{name}' at {extent.unit16}"
  | unterminatedQuotedArgument name extent =>
    s!"unterminated string for argument of '{name}' at {extent.unit16}"
  | unterminatedArgumentList name _ cause =>
    s!"unterminated argument list for '{name}': {cause.message}"
  | unreadable cause => cause.message

/-- The error of a phrase: the marker stands at `start`, and reading stopped at
`stop` with `rest` still to be read. -/
def ofFault (marker : Char) (start stop : Position) (rest : List Char) : Fault → SyntaxError
  | .emptyName => emptyTokenName marker (.between start stop)
  | .emptySegment name => emptyPathSegment name (.between start stop)
  | .arguments name .missing => missingArgument name (.between start stop)
  | .arguments name .openQuote => unterminatedQuotedArgument name (.between start stop)
  | .arguments name .openList =>
    unterminatedArgumentList name (.between start stop)
      (.unexpectedInput (SymbolClass.exactly ')').describe rest.head? stop)

end SyntaxError

end StyleTemplate
