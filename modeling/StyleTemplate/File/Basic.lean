/-
  **Reading files.**

  The library never opens a file.  Whoever runs it says what reading a path gives
  (`FileReader`): bytes, or a cause in the words of the operating system.
-/
import StyleTemplate.Text.Split

namespace StyleTemplate

inductive FileError where
  | notFound
  | notADirectory
  | isADirectory
  | nameTooLong
  /-- A path with the symbol U+0000 in it. -/
  | invalidPath
  | invalidText
  /-- Any other failure, in words. -/
  | other (message : String)
deriving DecidableEq, Repr

namespace FileError

def message : FileError → String
  | notFound => "No such file or directory (os error 2)"
  | notADirectory => "Not a directory (os error 20)"
  | isADirectory => "Is a directory (os error 21)"
  | nameTooLong => "File name too long (os error 36)"
  | invalidPath => "file name contained an unexpected NUL byte"
  | invalidText => "stream did not contain valid UTF-8"
  | other message => message

end FileError

/-- What reading the file at a path gives. -/
abbrev FileReader := String → Except FileError ByteArray

/-- Bytes as the text that they encode in UTF-8. -/
def decodeText (bytes : ByteArray) : Except FileError (List Char) :=
  match String.fromUTF8? bytes with
  | some text => .ok text.toList
  | none => .error .invalidText

def FileReader.text (read : FileReader) (path : String) : Except FileError (List Char) :=
  match read path with
  | .ok bytes => decodeText bytes
  | .error e => .error e

/-! ### Paths and names -/

/-- Whether a step of a path stays in place. -/
def staysInPlace (name : List Char) : Bool :=
  name.isEmpty || name == ['.']

def leadsUpwards (name : List Char) : Bool :=
  name == ['.', '.']

/-- The last name of a path; steps that stay in place do not count, and a step
upwards is no name. -/
def fileName? (path : String) : Option (List Char) :=
  let steps := (splitOnSymbol '/' path.toList).filter (!staysInPlace ·)
  steps.getLast?.filter (!leadsUpwards ·)

/-- The last name of a path up to its last dot, unless that dot stands first. -/
def fileStem? (path : String) : Option String :=
  (fileName? path).map fun name =>
    let behind := name.reverse.takeWhile (· != '.')
    let stem := name.take (name.length - behind.length - 1)
    String.ofList (if behind.length = name.length || stem.isEmpty then name else stem)

end StyleTemplate
