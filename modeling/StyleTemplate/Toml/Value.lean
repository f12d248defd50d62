/-
  **Values of TOML documents.**

  Unlike the values of a source, those of a document never are null, a function,
  or a whole number beyond 64 bits, while dates and times are values of their own.
  One key is reserved: a table that starts with it stands for the date-time that
  the key's value spells.
-/
import StyleTemplate.Number.Binary64
import StyleTemplate.Toml.DateTime

namespace StyleTemplate.Toml

/-- A value of a document; tables keep the order of declaration. -/
inductive Value where
  | string (s : String)
  | integer (n : Int)
  | float (x : Binary64)
  | boolean (b : Bool)
  | dateTime (d : DateTime)
  | array (items : List Value)
  | table (entries : List (String × Value))
deriving Repr

/-! ### Date-times in the form of tables -/

def dateTimeKey : String := "$__toml_private_datetime"

/-- The value of the reserved key in a table that starts with it. -/
def reservedValue? : List (String × Value) → Option Value
  | [] => none
  | (key, value) :: _ => if key = dateTimeKey then some value else none

/-- The date-time that a value spells; only a string can spell one. -/
def Value.spelled? : Value → Option DateTime
  | .string s => DateTime.ofText? s
  | _ => none

end StyleTemplate.Toml
