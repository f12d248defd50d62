/-
  **Style blocks of a build.**

  A build tool hands over one style block after another, each with the language
  it claims to be in and the file it came from.  Blocks in languages that are not
  accepted are declined untouched.
-/
import StyleTemplate.Substitution.Basic

namespace StyleTemplate

/-- A style block as a build tool supplies it. -/
structure StyleBlock where
  content : List Char
  lang? : Option String := none
  filename? : Option String := none
deriving DecidableEq, Repr

/-- Languages accepted unless others are given; a missing one counts as empty. -/
def defaultLangs : List String := ["", "text/css", "text/sheetsub"]

/-- What all style blocks of a build share. -/
structure StyleProcessor where
  sources : List Source
  options : Options := {}
  langs : List String := defaultLangs
deriving Repr

namespace StyleProcessor

/-- Whether blocks of a language are processed. -/
def accepts (p : StyleProcessor) (lang? : Option String) : Bool :=
  p.langs.contains (lang?.getD "")

/-- The code of a block, or none if it is declined.  Diagnostics are labelled
with the block's own file. -/
def style {σ τ : Type} (p : StyleProcessor) (host : Host σ) (sink : Sink τ) (block : StyleBlock)
    (state : RunState σ τ) : Except SubstituteError (Option (List Char)) × RunState σ τ :=
  if p.accepts block.lang? then
    let processor : Processor σ τ :=
      { options := { p.options with filename := block.filename?.getD "" }, host, sink }
    match processor.substitute p.sources block.content state with
    | (.ok code, state) => (.ok (some code), state)
    | (.error error, state) => (.error error, state)
  else
    (.ok none, state)

end StyleProcessor

end StyleTemplate
