/-
  **Building up tables.**

  A document says what its tables hold piece by piece: by keys, by keys with
  dots, and under headers.  While it is read, a table remembers how it came
  about, because that decides what may still be added to it:

  * a table that was only passed through on the way to another one is implicit,
    and may still get a header of its own, once;
  * a table made by a key with dots is dotted, and gets its entries only by keys
    with dots;
  * any other table is complete under its header, or within its braces.

  `descend?` walks down to the table in which something is to be changed and
  makes implicit tables where there are none.
-/
import StyleTemplate.Toml.Value
import StyleTemplate.Value.Entries

namespace StyleTemplate.Toml

/-! ### Unfinished tables -/

structure Origin where
  /-- Made on the way to another table. -/
  implicit : Bool := false
  /-- Made by a key with dots. -/
  dotted : Bool := false
deriving DecidableEq, Repr

/-- What stands under a key while a document is read. -/
inductive Node where
  | value (v : Value)
  | table (origin : Origin) (entries : List (String × Node))
  /-- The tables of an array, the last of which is still open. -/
  | tables (elements : List (List (String × Node)))
deriving Repr

/-- A table that entries are added to. -/
structure Level where
  origin : Origin := {}
  entries : Entries Node := []
deriving Repr

/-! ### Finished tables -/

mutual

/-- The value that a node has in the end. -/
def Node.toValue : Node → Value
  | .value v => v
  | .table _ entries => .table (finished entries)
  | .tables elements => .array (finishedTables elements)
termination_by structural node => node

/-- Entries with the values that they have in the end. -/
def finished : List (String × Node) → Entries Value
  | [] => []
  | entry :: more => finishedEntry entry :: finished more
termination_by structural entries => entries

def finishedEntry : String × Node → String × Value
  | (key, node) => (key, node.toValue)
termination_by structural entry => entry

/-- The tables of an array as they are in the end. -/
def finishedTables : List (List (String × Node)) → List Value
  | [] => []
  | entries :: more => .table (finished entries) :: finishedTables more
termination_by structural elements => elements

end

/-! ### Changes -/

/-- Changes the table at the end of a path.  Keys with dots pass only through
tables that are implicit; an array of tables is passed through its last one. -/
def descend? {α : Type} (dotted : Bool) (path : List String) (level : Level)
    (change : Level → Option (α × Level)) : Option (α × Level) :=
  match path with
  | [] => change level
  | key :: path =>
    let put (node : Node) : Level :=
      { level with entries := Entries.insert key node level.entries }
    match Entries.get? key level.entries with
    | none =>
      (descend? dotted path { origin := { implicit := true, dotted } } change).map
        fun (a, below) => (a, put (.table below.origin below.entries))
    | some (.value _) => none
    | some (.table origin entries) =>
      if dotted && !origin.implicit then
        none
      else
        (descend? dotted path { origin, entries } change).map
          fun (a, below) => (a, put (.table below.origin below.entries))
    | some (.tables elements) =>
      match elements.getLast? with
      | none => none
      | some entries =>
        (descend? dotted path { entries } change).map
          fun (a, below) => (a, put (.tables (elements.dropLast ++ [below.entries])))

/-- Adds an entry below the path of a key with dots.  A key must be new, and a
dotted table is the place for keys with dots alone. -/
def addEntry? (path : List String) (key : String) (value : Value) (level : Level) :
    Option Level :=
  Prod.snd <$> descend? true path level fun below =>
    if below.origin.dotted == path.isEmpty || (Entries.get? key below.entries).isSome then
      none
    else
      some ((), { below with entries := Entries.insert key (.value value) below.entries })

/-- Takes out the table that a header opens, with what it holds already: it may
only have been passed through before. -/
def openTable? (path : List String) (key : String) (level : Level) :
    Option (Entries Node × Level) :=
  descend? false path level fun below =>
    match Entries.get? key below.entries with
    | none => some ([], below)
    | some (.table origin entries) =>
      if origin.implicit && !origin.dotted then
        some (entries, { below with entries := Entries.erase key below.entries })
      else
        none
    | some _ => none

/-- Makes sure that there is an array of tables under a header. -/
def openArray? (path : List String) (key : String) (level : Level) : Option Level :=
  Prod.snd <$> descend? false path level fun below =>
    match Entries.get? key below.entries with
    | none =>
      some ((), { below with entries := Entries.insert key (.tables []) below.entries })
    | some (.tables _) => some ((), below)
    | some _ => none

/-- Puts the table of a header in its place, behind what is there already. -/
def closeTable? (path : List String) (key : String) (entries : Entries Node) (level : Level) :
    Option Level :=
  Prod.snd <$> descend? false path level fun below =>
    match Entries.get? key below.entries with
    | none =>
      some ((), { below with entries := Entries.insert key (.table {} entries) below.entries })
    | some _ => none

/-- Puts the table of a header behind the others of its array. -/
def closeElement? (path : List String) (key : String) (entries : Entries Node) (level : Level) :
    Option Level :=
  Prod.snd <$> descend? false path level fun below =>
    match Entries.get? key below.entries with
    | some (.tables elements) =>
      some ((), { below with
        entries := Entries.insert key (.tables (elements ++ [entries])) below.entries })
    | _ => none

end StyleTemplate.Toml
