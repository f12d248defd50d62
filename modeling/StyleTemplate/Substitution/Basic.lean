/-
  **Substitution of all placeholders of a text.**

  A text is processed in one pass with all sources side by side
  (`Processor.substitute`), or in one pass for each source
  (`Processor.substituteEach`), where what one source gives is scanned again for
  the next.  `substituteReport` hands back the diagnostics beside the text.
-/
import StyleTemplate.Substitution.Pass

namespace StyleTemplate

namespace Processor

variable {σ τ : Type}

/-- Replaces every placeholder by its value from the first source that has it. -/
def substitute (p : Processor σ τ) (sources : List Source) (text : List Char)
    (state : RunState σ τ) : Except SubstituteError (List Char) × RunState σ τ :=
  p.pass sources true text state

/-- One pass for each source, in order.  Escapes are only collapsed by the last
pass, so that no later source takes what they stand for as a placeholder. -/
def substituteEach (p : Processor σ τ) :
    List Source → List Char → RunState σ τ → Except SubstituteError (List Char) × RunState σ τ
  | [], text, state => p.substitute [] text state
  | [last], text, state => p.pass [last] true text state
  | source :: more, text, state =>
    match p.pass [source] false text state with
    | (.ok text, state) => substituteEach p more text state
    | (.error error, state) => (.error error, state)

end Processor

/-! ### Collected diagnostics -/

/-- A substituted text with one diagnostic for each placeholder that could not
be resolved. -/
structure Report where
  text : List Char
  diagnostics : List Diagnostic
deriving DecidableEq, Repr

/-- Substitutes and collects the diagnostics, whether or not the options ask for
them to be printed. -/
def substituteReport {σ : Type} (host : Host σ) (options : Options) (sources : List Source)
    (text : List Char) (functions : σ) : Except SubstituteError Report × σ :=
  let p : Processor σ (List Diagnostic) :=
    { options := { options with printErrors := true }, host, sink := .memory }
  match p.substitute sources text { functions, reported := [] } with
  | (.ok text, state) => (.ok { text, diagnostics := state.reported }, state.functions)
  | (.error error, state) => (.error error, state.functions)

end StyleTemplate
