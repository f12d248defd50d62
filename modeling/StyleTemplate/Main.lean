/-
  **The program.**

  Reads the arguments, the files that they name and, where no file is to be
  processed, the standard input; hands all of it to `CommandLine.run`; and writes
  out what that leaves behind.
-/
import StyleTemplate.CommandLine.Run

namespace StyleTemplate.CommandLine

/-- A failure of the operating system as the cause of an unreadable file. -/
def fileErrorOf : IO.Error → FileError
  | .noFileOrDirectory .. => .notFound
  | .inappropriateType _ 21 _ => .isADirectory
  | .inappropriateType .. => .notADirectory
  | .invalidArgument _ 36 _ => .nameTooLong
  | .permissionDenied .. => .other "Permission denied (os error 13)"
  | e => .other (toString e)

def readFile (path : String) : IO (Except FileError ByteArray) := do
  try
    return .ok (← IO.FS.readBinFile path)
  catch e =>
    return .error (fileErrorOf e)

/-- A reader of files that have been read before. -/
def readerOf (files : List (String × Except FileError ByteArray)) : FileReader := fun path =>
  match files.lookup path with
  | some result => result
  | none => .error .notFound

partial def readAll (stream : IO.FS.Stream) (read : ByteArray) : IO ByteArray := do
  let chunk ← stream.read 65536
  if chunk.isEmpty then return read else readAll stream (read ++ chunk)

def usage : String :=
  "Replace placeholder tokens in stylesheets with values from TOML sources\n\n" ++
  "Usage: sheetsub [OPTIONS] [INPUT]\n\n" ++
  "Arguments:\n" ++
  "  [INPUT]  Input file (reads from stdin if not provided)\n\n" ++
  "Options:\n" ++
  "  -s, --source <SOURCES>     Value source file (TOML); may be repeated, earlier sources take " ++
  "precedence\n" ++
  "  -c, --config <CONFIG>      TOML file with an [options] table\n" ++
  "  -p, --prefix <PREFIX>      Placeholder prefix\n" ++
  "      --abort                Stop at the first token that fails to resolve\n" ++
  "      --chained              Run one pass per source, in order\n" ++
  "      --filename <FILENAME>  Label used in diagnostics (defaults to the input path)\n" ++
  "  -h, --help                 Print help\n"

def program (arguments : List String) : IO UInt32 := do
  match parse arguments with
  | .error .help =>
    IO.print usage
    return 0
  | .error .misuse =>
    IO.eprint "error: the arguments make no sense\n\nFor more information, try '--help'.\n"
    return 2
  | .ok invocation =>
    let stdin ← IO.getStdin
    if invocation.input?.isNone && (← stdin.isTty) then
      IO.eprintln "Reading from stdin; pass a FILE or pipe input. See --help."
    let files ← invocation.paths.mapM fun path => return (path, ← readFile path)
    let input ← if invocation.input?.isNone then readAll stdin .empty else pure .empty
    let outcome := run .plain invocation (readerOf files) input
    IO.print outcome.stdout
    IO.eprint outcome.stderr
    return UInt32.ofNat outcome.exit

end StyleTemplate.CommandLine

def main (arguments : List String) : IO UInt32 :=
  StyleTemplate.CommandLine.program arguments
