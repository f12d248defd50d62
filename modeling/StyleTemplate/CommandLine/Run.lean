/-
  **Running a command line.**

  A run loads the options, the sources and the input, in this order, and stops at
  the first that fails.  Then it substitutes.  Only a run that succeeds writes
  to the standard output, and what it writes is the text; diagnostics and errors
  go to the standard error.  Where an error is told in the words of another library,
  these words are given with the run (`Wording`).
-/
import StyleTemplate.CommandLine.Arguments
import StyleTemplate.Options.Loading
import StyleTemplate.Source.Loading
import StyleTemplate.Substitution.Basic
import StyleTemplate.Token.ErrorReport

namespace StyleTemplate.CommandLine

structure Outcome where
  exit : Nat
  stdout : String := ""
  stderr : String := ""
deriving DecidableEq, Repr

/-! ### Wording -/

/-- What a run writes in the words of others: drawings of reports, and what is wrong with
a document of options or of values, for each that is malformed. -/
structure Wording where
  draw : Drawing
  optionsFault : List Char → String
  sourceFault : List Char → String

/-- The shortest words. -/
def Wording.plain : Wording where
  draw := .plain
  optionsFault _ := "TOML parse error"
  sourceFault _ := "TOML parse error"

/-! ### Loading -/

inductive LoadError where
  | config (path : String) (error : OptionsError)
  | source (path : String) (error : SourceError)
  | input (path : String) (error : FileError)
  | standardInput (error : FileError)
deriving DecidableEq, Repr

/-- The error as it is written. -/
def LoadError.text (wording : Wording) : LoadError → String
  | config path e => s!"Error loading config '{path}': {e.message wording.optionsFault}\n"
  | source path e => s!"Error loading value source '{path}': {e.message wording.sourceFault}\n"
  | input path e => s!"Error reading file '{path}': {e.message}\n"
  | standardInput e => s!"Error reading from stdin: {e.message}\n"

/-- Everything that a run works on. -/
structure Loaded where
  options : Options
  sources : List Source
  text : List Char
deriving Repr

namespace Invocation

def paths (i : Invocation) : List String :=
  i.config?.toList ++ i.sources ++ i.input?.toList

/-- The label for diagnostics: as given, or the input. -/
def label (i : Invocation) : String :=
  i.filename?.getD (i.input?.getD "<stdin>")

/-- The options of the file, with those of the command line in their place. -/
def options (i : Invocation) (read : FileReader) : Except LoadError Options := do
  let loaded ←
    match i.config? with
    | some path => (Options.ofFile read path).mapError (.config path)
    | none => .ok {}
  return {
    marker := i.marker?.getD loaded.marker
    onError := if i.abort then .abort else loaded.onError
    filename := i.label
    printErrors := loaded.printErrors }

/-- The sources, all of them or the error of the first that cannot be loaded. -/
def loadSources (read : FileReader) (paths : List String) : Except LoadError (List Source) :=
  paths.mapM fun path => (Source.ofFile read path).mapError (.source path)

def inputText (i : Invocation) (read : FileReader) (stdin : ByteArray) :
    Except LoadError (List Char) :=
  match i.input? with
  | some path => (read.text path).mapError (.input path)
  | none => (decodeText stdin).mapError .standardInput

/-- Everything that a run works on, or the first error on the way to it. -/
def load (i : Invocation) (read : FileReader) (stdin : ByteArray) : Except LoadError Loaded := do
  let options ← i.options read
  let sources ← loadSources read i.sources
  let text ← i.inputText read stdin
  return { options, sources, text }

end Invocation

/-! ### Running -/

/-- There are no functions on the command line. -/
def noFunctions : Host Unit where
  call _ _ _ := (none, ())

/-- How an error of a substitution is written. -/
def errorText (draw : Drawing) (label : String) (text : List Char) : SubstituteError → String
  | .malformed error => error.format draw text label
  | error => s!"Error: {error.message}\n"

def process (wording : Wording) (i : Invocation) (options : Options) (sources : List Source)
    (text : List Char) : Outcome :=
  let p : Processor Unit OutputStream := { options, host := noFunctions, sink := .stream }
  let start : RunState Unit OutputStream := { functions := (), reported := {} }
  let text := normalize text
  let (result, state) :=
    if i.chained then p.substituteEach sources text start else p.substitute sources text start
  match result with
  | .ok output =>
    { exit := 0, stdout := String.ofList output, stderr := state.reported.written }
  | .error error =>
    { exit := 1, stderr := state.reported.written ++ errorText wording.draw i.label text error }

def run (wording : Wording) (i : Invocation) (read : FileReader) (stdin : ByteArray) : Outcome :=
  match i.load read stdin with
  | .ok loaded => process wording i loaded.options loaded.sources loaded.text
  | .error error => { exit := 1, stderr := error.text wording }

end StyleTemplate.CommandLine
