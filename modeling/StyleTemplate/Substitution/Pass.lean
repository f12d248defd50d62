/-
  **One pass of substitution over a text.**

  The text is brought into its composed normal form and scanned as a whole
  before anything is replaced.  Then the placeholders are replaced from the last
  to the first, each by cutting its byte range out of the text as it is by then.
  What stands left of a placeholder is at that moment still what was scanned, so
  its byte range is still right.  Functions are called in the same order, and
  their state and that of the sink are carried along (`RunState`).  Events for
  tracing, which nothing comes back from, are left out.
-/
import StyleTemplate.Diagnostic
import StyleTemplate.Options.Basic
import StyleTemplate.Source.Basic
import StyleTemplate.Text.Normalization
import StyleTemplate.Value.Rendering

namespace StyleTemplate

inductive SubstituteError where
  /-- The text of a pass cannot be scanned, and that pass has replaced nothing. -/
  | malformed (error : SyntaxError)
  /-- A placeholder could not be resolved, and the policy is to stop there. -/
  | unresolved (raw : String) (error : ResolveError)
deriving DecidableEq, Repr

namespace SubstituteError

def message : SubstituteError → String
  | malformed error => s!"syntax error: {error.message}"
  | unresolved raw error => s!"failed to resolve '{raw}': {error.message}"

end SubstituteError

/-- What a run changes beside the text: the state behind the functions, and what
has been reported. -/
structure RunState (σ τ : Type) where
  functions : σ
  reported : τ
deriving DecidableEq

/-- Options, functions and a sink for any number of calls. -/
structure Processor (σ τ : Type) where
  options : Options
  host : Host σ
  sink : Sink τ

namespace Processor

variable {σ τ : Type}

/-! ### One placeholder -/

/-- The text that replaces a token: the marker with the token's suffix for an
escape, none if no source has its path, and else the value's text. -/
def replacement? (p : Processor σ τ) (sources : List Source) (token : Token) (functions : σ) :
    Except ResolveError (Option String) × σ :=
  if token.escape then
    (.ok (some (p.options.marker.toString ++ Value.suffixText token.suffix)), functions)
  else
    match lookup? token.path sources with
    | none => (.ok none, functions)
    | some (_, value) =>
      match resolve p.host value token.args token.suffix functions with
      | (.ok text, functions) => (.ok (some text), functions)
      | (.error e, functions) => (.error e, functions)

/-- What has been reported once the error of a token has been. -/
def reportError (p : Processor σ τ) (token : Token) (error : ResolveError) (reported : τ) : τ :=
  if p.options.printErrors then
    p.sink.report (.ofToken p.options.filename token error.message) reported
  else
    reported

def splice (text : List Char) (token : Token) (replacement : String) : List Char :=
  (replaceBytes? text token.start.byte token.stop.byte replacement.toList).getD text

/-! ### All of them -/

/-- Replaces tokens one after another, which are given from the last to the
first.  Escapes stay as they are unless they are to be collapsed. -/
def replaceAll (p : Processor σ τ) (sources : List Source) (collapse : Bool) :
    List Token → List Char → RunState σ τ → Except SubstituteError (List Char) × RunState σ τ
  | [], text, state => (.ok text, state)
  | token :: more, text, state =>
    if token.escape && !collapse then
      replaceAll p sources collapse more text state
    else
      match p.replacement? sources token state.functions with
      | (.ok (some replacement), functions) =>
        replaceAll p sources collapse more (splice text token replacement) { state with functions }
      | (.ok none, functions) =>
        replaceAll p sources collapse more text { state with functions }
      | (.error error, functions) =>
        let state := { functions, reported := p.reportError token error state.reported }
        match p.options.onError with
        | .report => replaceAll p sources collapse more text state
        | .abort => (.error (.unresolved token.raw error), state)

/-- Normalizes and scans a text and replaces its tokens. -/
def pass (p : Processor σ τ) (sources : List Source) (collapse : Bool) (text : List Char)
    (state : RunState σ τ) : Except SubstituteError (List Char) × RunState σ τ :=
  let text := normalize text
  match scanAll p.options.marker text with
  | .error error => (.error (.malformed error), state)
  | .ok tokens => p.replaceAll sources collapse tokens.reverse text state

end Processor

end StyleTemplate
