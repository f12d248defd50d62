/-
  **Options in TOML.**

  A document may set options in its table `options`.  What is not set keeps its
  default, and keys of no meaning are passed over.  The options may also be given
  by position, as an array; a date or time in their place sets nothing.
-/
import StyleTemplate.File.Basic
import StyleTemplate.Options.Basic
import StyleTemplate.Toml.Document

namespace StyleTemplate

/-! ### Single options -/

/-- A marker is a string of one symbol. -/
def markerOfToml? : Toml.Value → Option Char
  | .string s =>
    match s.toList with
    | [c] => some c
    | _ => none
  | _ => none

def ErrorPolicy.ofName? (name : String) : Option ErrorPolicy :=
  if name = "report" then some .report
  else if name = "abort" then some .abort
  else none

/-- A policy is a string, or a table with the policy as its one key and nothing
below it. -/
def ErrorPolicy.ofToml? : Toml.Value → Option ErrorPolicy
  | .string name => ofName? name
  | .table [(name, .table [])] => ofName? name
  | .table [(name, .array [])] => ofName? name
  | _ => none

def filenameOfToml? : Toml.Value → Option String
  | .string s => some s
  | _ => none

def printErrorsOfToml? : Toml.Value → Option Bool
  | .boolean b => some b
  | _ => none

namespace Options

def set? (o : Options) (key : String) (value : Toml.Value) : Option Options :=
  if key = "prefix" then
    (markerOfToml? value).map fun marker => { o with marker }
  else if key = "on-error" then
    (ErrorPolicy.ofToml? value).map fun onError => { o with onError }
  else if key = "filename" then
    (filenameOfToml? value).map fun filename => { o with filename }
  else if key = "print-errors" then
    (printErrorsOfToml? value).map fun printErrors => { o with printErrors }
  else
    some o

/-- The keys in the order in which an array gives their values. -/
def positions : List String := ["prefix", "on-error", "filename", "print-errors"]

def setAll? (o : Options) (entries : List (String × Toml.Value)) : Option Options :=
  entries.foldlM (fun (o : Options) (entry : String × Toml.Value) => o.set? entry.1 entry.2) o

/-- The options that a value gives. -/
def ofTomlValue? : Toml.Value → Option Options
  | .table entries => setAll? {} entries
  | .array items => setAll? {} (positions.zip items)
  | .dateTime _ => some {}
  | _ => none

/-- The options that a document gives, or none if it is malformed. -/
def ofToml? (text : List Char) : Option Options := do
  match Entries.get? "options" (← Toml.parse? text) with
  | some value => ofTomlValue? value
  | none => return {}

end Options

inductive OptionsError where
  | unreadable (error : FileError)
  /-- A text that is no TOML document, or no document of options. -/
  | malformed (document : List Char)
deriving DecidableEq, Repr

/-- The error in words.  What is wrong with a document is in the words of whoever reads
TOML. -/
def OptionsError.message (fault : List Char → String) : OptionsError → String
  | .unreadable error => error.message
  | .malformed document => fault document

namespace Options

def ofFile (read : FileReader) (path : String) : Except OptionsError Options :=
  match read.text path with
  | .error e => .error (.unreadable e)
  | .ok text =>
    match ofToml? text with
    | some options => .ok options
    | none => .error (.malformed text)

end Options

end StyleTemplate
