/-
  **Diagnostics, and where they go.**

  A placeholder that cannot be resolved leaves a diagnostic.  A sink takes it
  in; what a sink is made of is up to its user (`Sink`).  A sink only ever takes
  in, and it shares no state with the functions that values may be, so nothing
  that is reported can come back into a substitution.
-/
import StyleTemplate.Token.Scanner

namespace StyleTemplate

/-! ### Diagnostics -/

/-- What is known of a placeholder that could not be resolved. -/
structure Diagnostic where
  filename : String
  raw : String
  path : String
  /-- The place of the placeholder in UTF-16 units. -/
  unit16 : Nat
  message : String
deriving DecidableEq, Repr

namespace Diagnostic

def ofToken (filename : String) (token : Token) (message : String) : Diagnostic where
  filename
  raw := token.raw
  path := token.name
  unit16 := token.start.unit16
  message

def line (d : Diagnostic) : String :=
  s!"{d.filename}:{d.unit16}: '{d.raw}': {d.message}"

/-- What goes to the error stream. -/
def errorText (d : Diagnostic) : String :=
  s!"sheetsub error: {d.filename}\n{d.message}\n"

/-- What goes to the information stream. -/
def tokenText (d : Diagnostic) : String :=
  s!"sheetsub token: '{d.raw}' (path {d.path}, position {d.unit16})\n"

end Diagnostic

/-! ### Sinks -/

/-- A way of taking in diagnostics, with what has been taken in so far as `τ`.  No
function sees that state, and no sink sees the state of functions: a function that
looks into the sink of its own run is left out. -/
structure Sink (τ : Type) where
  report : Diagnostic → τ → τ

/-- An output stream with what has been written to it.  Writing to a broken
stream has no effect. -/
structure OutputStream where
  broken : Bool := false
  written : String := ""
deriving DecidableEq, Repr

/-- Writes a text, unless the stream is broken. -/
def OutputStream.write (s : OutputStream) (text : String) : OutputStream :=
  if s.broken then s else { s with written := s.written ++ text }

structure OutputStreams where
  info : OutputStream := {}
  error : OutputStream := {}
deriving DecidableEq, Repr

namespace Sink

/-- Keeps every diagnostic, in order. -/
def memory : Sink (List Diagnostic) where
  report d kept := kept ++ [d]

/-- Drops every diagnostic. -/
def null : Sink Unit where
  report _ _ := ()

/-- Writes errors to one stream and the placeholders to the other. -/
def streams : Sink OutputStreams where
  report d s := { info := s.info.write d.tokenText, error := s.error.write d.errorText }

/-- Writes errors and placeholders to one stream. -/
def stream : Sink OutputStream where
  report d s := (s.write d.errorText).write d.tokenText

/-- Keeps something made of each diagnostic, in order. -/
def collect {α : Type} (f : Diagnostic → α) : Sink (List α) where
  report d kept := kept ++ [f d]

end Sink

end StyleTemplate
