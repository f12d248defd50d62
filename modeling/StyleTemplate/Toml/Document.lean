/-
  **Documents of TOML 1.0.**

  A document is a sequence of statements, one to a line: an entry, the header of
  a table, or the header of a further table of an array.  Reading it takes two
  steps: from symbols to statements, and from statements to a table.  Arrays and
  inline tables nest less than 80 deep, and keys have less than 80 parts.
-/
import StyleTemplate.Toml.Scalar
import StyleTemplate.Toml.Table

namespace StyleTemplate.Toml

/-! ### Statements -/

structure Key where
  path : List String
  last : String
deriving DecidableEq, Repr

inductive Statement where
  | entry (key : Key) (value : Value)
  | header (key : Key)
  | arrayHeader (key : Key)
deriving Repr

/-- The bound on nesting, and on the parts of a key. -/
def depthLimit : Nat := 80

namespace Reader

/-! ### Keys -/

def keyPart : Reader String := do
  blank
  let part ← firstOf
    [basicString, literalString,
     do
      let bare ← run fun c => c.isAlphanum || c == '-' || c == '_'
      check (!bare.isEmpty)
      return String.ofList bare]
  blank
  return part

def key : Reader Key := do
  let first ← keyPart
  let more ← many do
    skip '.'
    keyPart
  check (more.length + 1 < depthLimit)
  match more.getLast? with
  | some last => return { path := first :: more.dropLast, last }
  | none => return { path := [], last := first }

/-! ### Arrays and inline tables -/

/-- What follows the bracket that opens an array.  A comma may stand behind the
last item. -/
def arrayItems (item : Reader Value) (text : List Char) : Option (List Value × List Char) :=
  match blankLines text with
  | some (_, ']' :: rest) => some ([], rest)
  | some (_, start) =>
    match item start with
    | some (value, behind) =>
      match blankLines behind with
      | some (_, ']' :: rest) => some ([value], rest)
      | some (_, ',' :: rest) =>
        -- An item and its comma have been read, so the rest is shorter.
        if _h : rest.length < text.length then
          (arrayItems item rest).map fun (values, rest) => (value :: values, rest)
        else
          none
      | _ => none
    | none => none
  | none => none
termination_by text.length

/-- An entry of an inline table. -/
def inlineEntry (item : Reader Value) : Reader (Key × Value) := do
  let k ← key
  skip '='
  blank
  let value ← item
  blank
  return (k, value)

/-- What follows the brace that opens an inline table. -/
def inlineEntries (item : Reader Value) : Reader (List (Key × Value)) := do
  blank
  if ← accepts (skip '}') then
    return []
  else
    let entries ← many1 (inlineEntry item) do
      skip ','
      inlineEntry item
    skip '}'
    return entries

/-- The table of an inline table's entries. -/
def inlineTable (entries : List (Key × Value)) : Option Value := do
  let add (level : Level) (entry : Key × Value) : Option Level :=
    addEntry? entry.1.path entry.1.last entry.2 level
  let level ← entries.foldlM add {}
  return .table (finished level.entries)

/-- A value with at most so many arrays and inline tables around each other. -/
def value : Nat → Reader Value
  | 0 => scalar
  | depth + 1 => do
    if ← accepts (skip '[') then
      .array <$> (arrayItems (value depth) : Reader (List Value))
    else if ← accepts (skip '\x7b') then
      ofOption (inlineTable (← inlineEntries (value depth)))
    else
      scalar

/-! ### Lines -/

def entryLine : Reader Statement := do
  let k ← key
  skip '='
  blank
  let v ← value (depthLimit - 1)
  restOfLine
  return .entry k v

def headerLine : Reader Statement := do
  skip '['
  if ← accepts (skip '[') then
    let k ← key
    word "]]"
    restOfLine
    return .arrayHeader k
  else
    let k ← key
    skip ']'
    restOfLine
    return .header k

def emptyLine : Reader (Option Statement) := do
  discard (attempt comment)
  lineEnd
  return none

/-- A line with its end, and the blank space that the next one starts with. -/
def line : Reader (Option Statement) := do
  let statement? ←
    match ← peek? with
    | none => failure
    | some '[' => some <$> headerLine
    | some '#' | some '\n' | some '\r' => emptyLine
    | some _ => some <$> entryLine
  blank
  pure statement?

/-- All statements of a document, which may start with a byte order mark. -/
def statements : Reader (List Statement) := do
  discard (attempt (skip '\ufeff'))
  blank
  let lines ← many line
  endOfText
  return lines.filterMap id

end Reader

/-! ### From statements to a table -/

/-- The table that entries go to at present. -/
inductive Target where
  | root
  | table (key : Key)
  | element (key : Key)
deriving DecidableEq, Repr

/-- A document as far as it has been put together. -/
structure Draft where
  /-- All tables but the open one. -/
  root : Level := {}
  target : Target := .root
  /-- The table that entries go to. -/
  current : Level := {}
deriving Repr

namespace Draft

def close? (d : Draft) : Option Level :=
  match d.target with
  | .root => some d.current
  | .table key => closeTable? key.path key.last d.current.entries d.root
  | .element key => closeElement? key.path key.last d.current.entries d.root

def add? (d : Draft) : Statement → Option Draft
  | .entry key value => do
    let current ← addEntry? key.path key.last value d.current
    return { d with current }
  | .header key => do
    let (entries, root) ← openTable? key.path key.last (← d.close?)
    return { root, target := .table key, current := { entries } }
  | .arrayHeader key => do
    let root ← openArray? key.path key.last (← d.close?)
    return { root, target := .element key, current := {} }

end Draft

/-- The table of a document, or none if it is no proper document. -/
def parse? (text : List Char) : Option (Entries Value) := do
  let (statements, _) ← Reader.statements text
  let draft ← statements.foldlM Draft.add? {}
  let level ← draft.close?
  return finished level.entries

end StyleTemplate.Toml
