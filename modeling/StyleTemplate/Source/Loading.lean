/-
  **Sources in TOML.**

  The table of a TOML document is a source.  Its values are scalars, sequences and
  mappings only; dates and times become strings.  A table below that of the
  document which starts with the reserved key is a date-time, or a fault.
-/
import StyleTemplate.File.Basic
import StyleTemplate.Source.Basic
import StyleTemplate.Toml.Document

namespace StyleTemplate

namespace Value

mutual

/-- The value that a value of a document stands for; none if a table in it has the
reserved key first and spells no date-time. -/
def ofToml? : Toml.Value → Option Value
  | .string s => some (.string s)
  | .integer n => some (.integer n)
  | .float x => some (.float x)
  | .boolean b => some (.boolean b)
  | .dateTime d => some (.string d.text)
  | .array items => (itemsOfToml? items).map .sequence
  | .table entries =>
    match Toml.reservedValue? entries with
    | some value => value.spelled?.map fun d => .string d.text
    | none => (entriesOfToml? entries).map .mapping
termination_by structural v => v

/-- The items that those of an array stand for. -/
def itemsOfToml? : List Toml.Value → Option (List Value)
  | [] => some []
  | item :: more => do return (← ofToml? item) :: (← itemsOfToml? more)
termination_by structural items => items

/-- The entries that those of a table stand for. -/
def entriesOfToml? : List (String × Toml.Value) → Option (Entries Value)
  | [] => some []
  | entry :: more => do return (← entryOfToml? entry) :: (← entriesOfToml? more)
termination_by structural entries => entries

/-- The entry that one of a table stands for. -/
def entryOfToml? : String × Toml.Value → Option (String × Value)
  | (key, value) => (ofToml? value).map fun value => (key, value)
termination_by structural entry => entry

end

end Value

inductive SourceError where
  | unreadable (error : FileError)
  /-- A text that is no TOML document, or in which a table should be a date-time and is none. -/
  | malformed (document : List Char)
deriving DecidableEq, Repr

namespace SourceError

/-- The error in words.  What is wrong with a document is in the words of whoever reads
TOML. -/
def message (fault : List Char → String) : SourceError → String
  | unreadable error => s!"Failed to read value source file: {error.message}"
  | malformed document => s!"Failed to parse value source TOML: {fault document}"

end SourceError

namespace Source

def ofToml (text : List Char) : Except SourceError Source :=
  match (Toml.parse? text).bind Value.entriesOfToml? with
  | some values => .ok { values }
  | none => .error (.malformed text)

def ofFile (read : FileReader) (path : String) : Except SourceError Source :=
  match read.text path with
  | .error e => .error (.unreadable e)
  | .ok text =>
    match ofToml text with
    | .ok source => .ok { source with name? := fileStem? path }
    | .error e => .error e

end Source

end StyleTemplate
