/-
  **Sources of values, and looking up a path in them.**

  A source is a tree of values under named entries.  A path names an entry and
  then goes down one child for each further segment.  Several sources are
  searched in order, and the first in which the path can be walked decides.
-/
import StyleTemplate.Value.Basic

namespace StyleTemplate

/-- A tree of values with a name for messages. -/
structure Source where
  name? : Option String := none
  values : Entries Value := []
deriving DecidableEq, Repr

namespace Source

def label (s : Source) : String :=
  s.name?.getD "unnamed"

def get? (s : Source) (key : String) : Option Value :=
  Entries.get? key s.values

def insert (s : Source) (key : String) (value : Value) : Source :=
  { s with values := Entries.insert key value s.values }

end Source

/-! ### Looking up -/

/-- Walks a path down from a value.  Nothing lies below null, but the walk may
end there. -/
def Value.walk? : Value → List String → Option Value
  | value, [] => some value
  | value, segment :: path =>
    match value.child? segment with
    | some child => child.walk? path
    | none => none

namespace Source

/-- The value at a path; nothing is at the empty path. -/
def find? (s : Source) : List String → Option Value
  | [] => none
  | segment :: path => (s.get? segment).bind (·.walk? path)

end Source

/-- The first source in which a path can be walked, with the value there. -/
def lookup? (path : List String) : List Source → Option (Source × Value)
  | [] => none
  | source :: more =>
    match source.find? path with
    | some value => some (source, value)
    | none => lookup? path more

end StyleTemplate
