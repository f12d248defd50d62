/-
  **Reports of malformed placeholders.**

  The report of an error is drawn around the text that the error is in.  What goes into
  it is fixed here (`ErrorReport`): the file, the message and a label with the same
  message at the stretch of the error.  How it looks is left to a `Drawing`, which may
  show lines of the text and colours as it likes.  An error whose report cannot be drawn
  is written as its message.
-/
import StyleTemplate.Text.Location
import StyleTemplate.Token.SyntaxError

namespace StyleTemplate

/-- What is shown of an error, with one label at a stretch of the text. -/
structure ErrorReport where
  file : String
  /-- The place of the error, in symbols. -/
  offset : Nat
  message : String
  labelStart : Nat
  labelStop : Nat
  labelMessage : String
deriving DecidableEq, Repr

/-- A way to draw reports of errors in a text, which may fail. -/
abbrev Drawing := ErrorReport → List Char → Option String

/-! ### Errors as reports -/

namespace SyntaxError

/-- The report of an error.  That of an error of no known stretch is about the start of
the text. -/
def report (e : SyntaxError) (file : String) : ErrorReport :=
  let (start, stop) :=
    match e.extent? with
    | some extent => (extent.start, extent.stop)
    | none => (0, 0)
  { file
    offset := start
    message := e.message
    labelStart := start
    labelStop := stop
    labelMessage := e.message }

/-- The error as it is written for a text, or just its message. -/
def format (draw : Drawing) (e : SyntaxError) (text : List Char) (file : String) : String :=
  (draw (e.report file) text).getD e.message

end SyntaxError

/-! ### Plain reports -/

namespace ErrorReport

def header (r : ErrorReport) : String :=
  s!"Error: {r.message}"

/-- The place of the error as a line and a column, or nothing if its label leaves the
text: an error need not be one of the text that is shown. -/
def locationText (r : ErrorReport) (text : List Char) : String :=
  match Location.ofStretch? text r.labelStart r.labelStop with
  | some _ => (Location.ofOffset text r.offset).inFile r.file
  | none => ""

end ErrorReport

/-- Reports of two lines, the error and where it is. -/
def Drawing.plain : Drawing := fun r text =>
  some (r.header ++ "\n" ++ r.locationText text ++ "\n")

end StyleTemplate
