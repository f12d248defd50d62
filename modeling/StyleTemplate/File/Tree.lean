/-
  **A tree of files in memory.**

  The files below a working directory, each under its path from there.  A name on
  the way to a file is a directory.  Paths are followed step by step: through
  directories only, staying in place at `.` and at an empty step, and upwards at
  `..`.  Above the working directory there is nothing to be read.  Names and paths
  have a greatest length, which is counted in bytes.
-/
import StyleTemplate.File.Basic

namespace StyleTemplate

/-- Files with the steps that lead to each; of two files in one place the first
counts. -/
structure FileTree where
  files : List (List (List Char) × ByteArray) := []

namespace FileTree

/-- The steps to a file that is written to a path. -/
def stepsOfPath (path : String) : List (List Char) :=
  (splitOnSymbol '/' path.toList).foldl
    (fun steps name =>
      if staysInPlace name then steps
      else if leadsUpwards name then steps.dropLast
      else steps ++ [name])
    []

/-- The tree that comes from writing files to paths, one after the other.  A later
file takes the place of an earlier one. -/
def ofList (files : List (String × ByteArray)) : FileTree where
  files := files.reverse.map fun (path, content) => (stepsOfPath path, content)

/-- The greatest length of a name. -/
def nameLimit : Nat := 255

/-- The length from which on a path is too long. -/
def pathLimit : Nat := 4096

/-- The content of the file at the end of some steps. -/
def file? (t : FileTree) (steps : List (List Char)) : Option ByteArray :=
  (t.files.find? fun file => file.1 == steps).map Prod.snd

def isDirectory (t : FileTree) (steps : List (List Char)) : Bool :=
  steps.isEmpty || t.files.any fun file => steps.isPrefixOf file.1 && file.1 != steps

/-- Where a path leads. -/
inductive Place where
  /-- To some steps below the working directory. -/
  | within (steps : List (List Char))
  /-- To a directory above it. -/
  | above
deriving DecidableEq, Repr

def step (t : FileTree) (place : Place) (name : List Char) : Except FileError Place :=
  let tooLong := (String.ofList name).utf8ByteSize > nameLimit
  match place with
  | .above =>
    if staysInPlace name || leadsUpwards name then .ok .above
    else if tooLong then .error .nameTooLong
    else .error .notFound
  | .within steps =>
    if t.isDirectory steps then
      if staysInPlace name then .ok place
      else if leadsUpwards name then
        .ok (if steps.isEmpty then .above else .within steps.dropLast)
      else if tooLong then .error .nameTooLong
      else
        let steps := steps ++ [name]
        if t.isDirectory steps || (t.file? steps).isSome then .ok (.within steps)
        else .error .notFound
    else
      .error .notADirectory

def read (t : FileTree) : FileReader := fun path =>
  let steps := splitOnSymbol '/' path.toList
  let start : Place := if path.startsWith "/" then .above else .within []
  if path.contains '\x00' then
    .error .invalidPath
  else if path.utf8ByteSize ≥ pathLimit then
    .error .nameTooLong
  else if path.isEmpty then
    .error .notFound
  else
    match steps.foldlM t.step start with
    | .error e => .error e
    | .ok .above => .error .isADirectory
    | .ok (.within steps) =>
      match t.file? steps with
      | some content => .ok content
      | none => .error .isADirectory

end FileTree

end StyleTemplate
