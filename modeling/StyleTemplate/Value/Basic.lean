/-
  **The values that placeholders stand for.**

  Values form trees: scalars at the leaves, sequences and mappings inside.  A
  function is a leaf, too; the tree holds only its identity, and what a call
  does is the business of a `Host`.
-/
import StyleTemplate.Number.Binary64
import StyleTemplate.Number.Digits
import StyleTemplate.Value.Entries

namespace StyleTemplate

abbrev FunctionId := Nat

/-- A node of a value tree. -/
inductive Value where
  /-- Explicitly nothing; written as the empty text. -/
  | null
  | boolean (b : Bool)
  /-- A whole number of ordinary size. -/
  | integer (n : Int)
  /-- A whole number of a type of its own, for numbers beyond the ordinary. -/
  | bigInteger (n : Int)
  | float (x : Binary64)
  | string (s : String)
  | sequence (items : List Value)
  | mapping (entries : List (String × Value))
  | function (id : FunctionId)
deriving Repr, Inhabited

inductive Kind where
  | null
  | boolean
  | number
  | bigInteger
  | string
  | sequence
  | mapping
  | function
deriving DecidableEq, Repr

namespace Kind

def name : Kind → String
  | null => "null"
  | boolean => "boolean"
  | number => "number"
  | bigInteger => "bigint"
  | string => "string"
  | sequence => "sequence"
  | mapping => "mapping"
  | function => "function"

end Kind

namespace Value

def kind : Value → Kind
  | null => .null
  | boolean _ => .boolean
  | integer _ => .number
  | bigInteger _ => .bigInteger
  | float _ => .number
  | string _ => .string
  | sequence _ => .sequence
  | mapping _ => .mapping
  | function _ => .function

def isNull : Value → Bool
  | null => true
  | _ => false

def isMapping : Value → Bool
  | mapping _ => true
  | _ => false

/-! ### Children -/

/-- The position that a path segment denotes: one or more ASCII digits behind at
most one plus sign, of a value that fits 64 bits. -/
def position? (segment : String) : Option Nat :=
  let digits :=
    match segment.toList with
    | '+' :: digits => digits
    | digits => digits
  if digits.isEmpty || !digits.all Char.isDigit || UInt64.size ≤ ofDigits 10 digits then
    none
  else
    some (ofDigits 10 digits)

/-- The child under a path segment: a mapping's by its key, a sequence's by its
position from 0 on.  Nothing else has children. -/
def child? (segment : String) : Value → Option Value
  | mapping entries => Entries.get? segment entries
  | sequence items => (position? segment).bind (items[·]?)
  | _ => none

/-! ### Equality -/

mutual

/-- Whether two values are equal.  Floating point numbers compare as numbers,
mappings regardless of the order of their entries, functions by identity, and
values of different sorts are never equal. -/
protected def beq : Value → Value → Bool
  | null, null => true
  | boolean a, boolean b => a == b
  | integer a, integer b => a == b
  | bigInteger a, bigInteger b => a == b
  | float a, float b => a == b
  | string a, string b => a == b
  | sequence a, sequence b => beqItems a b
  | mapping a, mapping b => a.length == b.length && entriesWithin a b
  | function a, function b => a == b
  | _, _ => false
termination_by structural a => a

/-- Whether two lists have equal values in equal places. -/
def beqItems : List Value → List Value → Bool
  | [], [] => true
  | a :: as, b :: bs => Value.beq a b && beqItems as bs
  | _, _ => false
termination_by structural as => as

/-- Whether each entry has an equal value under its key among `others`. -/
def entriesWithin : List (String × Value) → Entries Value → Bool
  | [], _ => true
  | entry :: more, others => entryWithin entry others && entriesWithin more others
termination_by structural entries => entries

/-- Whether `others` has an equal value under the entry's key. -/
def entryWithin : String × Value → Entries Value → Bool
  | (key, value), others =>
    match Entries.get? key others with
    | some other => Value.beq value other
    | none => false
termination_by structural entry => entry

end

instance : BEq Value := ⟨Value.beq⟩

mutual

/-- Decides whether two values are one tree, which is a finer question: it matters
there in which order entries stand, and a NaN is itself. -/
protected def decEq (a b : Value) : Decidable (a = b) :=
  if h : a.ctorIdx = b.ctorIdx then
    match a, b, h with
    | null, null, _ => isTrue rfl
    | boolean a, boolean b, _ => decidable_of_iff (a = b) (by simp)
    | integer a, integer b, _ => decidable_of_iff (a = b) (by simp)
    | bigInteger a, bigInteger b, _ => decidable_of_iff (a = b) (by simp)
    | float a, float b, _ => decidable_of_iff (a = b) (by simp)
    | string a, string b, _ => decidable_of_iff (a = b) (by simp)
    | sequence a, sequence b, _ => @decidable_of_iff _ (a = b) (by simp) (decEqItems a b)
    | mapping a, mapping b, _ => @decidable_of_iff _ (a = b) (by simp) (decEqEntries a b)
    | function a, function b, _ => decidable_of_iff (a = b) (by simp)
  else
    isFalse fun hab => h (congrArg Value.ctorIdx hab)
termination_by structural a

def decEqItems (as bs : List Value) : Decidable (as = bs) :=
  match as, bs with
  | [], [] => isTrue rfl
  | a :: as, b :: bs =>
    have := Value.decEq a b
    have := decEqItems as bs
    decidable_of_iff (a = b ∧ as = bs) (by simp)
  | [], _ :: _ => isFalse nofun
  | _ :: _, [] => isFalse nofun
termination_by structural as

def decEqEntries (as bs : List (String × Value)) : Decidable (as = bs) :=
  match as, bs with
  | [], [] => isTrue rfl
  | a :: as, b :: bs =>
    have := decEqEntry a b
    have := decEqEntries as bs
    decidable_of_iff (a = b ∧ as = bs) (by simp)
  | [], _ :: _ => isFalse nofun
  | _ :: _, [] => isFalse nofun
termination_by structural as

def decEqEntry (a b : String × Value) : Decidable (a = b) :=
  match a, b with
  | (key, value), (other, value') =>
    have := Value.decEq value value'
    decidable_of_iff (key = other ∧ value = value') (by simp)
termination_by structural a

end

instance : DecidableEq Value := Value.decEq

end Value

end StyleTemplate
