/-
  **The text that replaces a placeholder.**

  A scalar is written as it is, a sequence as its items with `, ` between them,
  and a mapping as a list of CSS properties.  The suffix of the placeholder is
  put back behind the text, except behind null, which swallows it; a property
  list without a suffix ends like each of its lines.  A function is called once
  and its result is written, which may be anything but another function.
-/
import StyleTemplate.Number.FloatText
import StyleTemplate.Value.Basic

namespace StyleTemplate

/-! ### Errors -/

/-- Why a value cannot be written. -/
inductive ResolveError where
  | undefinedFunctionResult
  | functionReturningFunction
  | invalidPropertyValue (property : String) (kind : Kind)
  | invalidSequenceElement (kind : Kind)
deriving DecidableEq, Repr

namespace ResolveError

def message : ResolveError → String
  | undefinedFunctionResult => "function returned no value"
  | functionReturningFunction =>
    "to avoid infinite recursion, a function can't return a function"
  | invalidPropertyValue property kind =>
    s!"the CSS property '{property}' does not have a valid type ({kind.name})"
  | invalidSequenceElement kind => s!"a sequence can't contain a {kind.name}"

end ResolveError

namespace Value

/-! ### Scalars and sequences -/

mutual

/-- The text of a scalar or of a sequence of renderable items. -/
def text : Value → Except ResolveError String
  | null => .ok ""
  | boolean b => .ok (if b then "true" else "false")
  | integer n => .ok (toString n)
  | bigInteger n => .ok (toString n)
  | float x => .ok x.text
  | string s => .ok s
  | sequence items =>
    match texts items with
    | .ok parts => .ok (", ".intercalate parts)
    | .error e => .error e
  | mapping _ => .error (.invalidSequenceElement .mapping)
  | function _ => .error (.invalidSequenceElement .function)
termination_by structural v => v

/-- The texts of some items, or the error of the first that has none. -/
def texts : List Value → Except ResolveError (List String)
  | [] => .ok []
  | item :: more =>
    match text item with
    | .error e => .error e
    | .ok part =>
      match texts more with
      | .error e => .error e
      | .ok parts => .ok (part :: parts)
termination_by structural items => items

end

/-! ### Property lists -/

def propertyText (property : String) (value : Value) : Except ResolveError String :=
  match value with
  | null | mapping _ | function _ => .error (.invalidPropertyValue property value.kind)
  | value => text value

/-- One line for each property, or the error of the first that cannot be written. -/
def propertyLines : Entries Value → Except ResolveError (List String)
  | [] => .ok []
  | (property, value) :: more =>
    match propertyText property value with
    | .error e => .error e
    | .ok part =>
      match propertyLines more with
      | .error e => .error e
      | .ok lines => .ok ((property ++ ": " ++ part) :: lines)

/-- What ends a line of a property list, and the list if there is no suffix. -/
def propertyEnd : String := ";\n"

/-! ### Replacements -/

def suffixText (suffix : Option Char) : String :=
  (suffix.map Char.toString).getD ""

/-- The text that replaces a placeholder for this value; no function is called. -/
def replacement (suffix : Option Char) : Value → Except ResolveError String
  | null => .ok ""
  | function _ => .error .functionReturningFunction
  | mapping entries =>
    match propertyLines entries with
    | .ok lines =>
      .ok (propertyEnd.intercalate lines ++ (suffix.map Char.toString).getD propertyEnd)
    | .error e => .error e
  | value =>
    match text value with
    | .ok t => .ok (t ++ suffixText suffix)
    | .error e => .error e

end Value

/-! ### Functions -/

/-- What calling a function does.  Calls may depend on, and change, a state of
type `σ`; a call may give no value. -/
structure Host (σ : Type) where
  call : FunctionId → List String → σ → Option Value × σ

/-- Writes a value in the place of a placeholder with the given arguments and
suffix, calling it if it is a function. -/
def resolve {σ : Type} (host : Host σ) (value : Value) (args : List String)
    (suffix : Option Char) (state : σ) : Except ResolveError String × σ :=
  match value with
  | .function id =>
    match host.call id args state with
    | (some result, state) => (result.replacement suffix, state)
    | (none, state) => (.error .undefinedFunctionResult, state)
  | value => (value.replacement suffix, state)

end StyleTemplate
