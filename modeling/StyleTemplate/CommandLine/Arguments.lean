/-
  **The arguments of the command line.**

  An argument that starts with a dash, other than a dash alone, is an option; all
  arguments behind `--` are not.  Options that take a value find it behind `=` in
  the long form, directly behind the letter in the short form (a first `=` is
  left out), or in the next argument, unless that looks like an option.  Of
  everything but sources there is one at most.  What is written when there is
  nothing to run is left to the program (`Refusal`).
-/

namespace StyleTemplate.CommandLine

structure Invocation where
  /-- The file to process; the standard input if there is none. -/
  input? : Option String := none
  /-- Files with sources, in order of precedence. -/
  sources : List String := []
  /-- A file with options. -/
  config? : Option String := none
  marker? : Option Char := none
  /-- Stop at the first placeholder that cannot be resolved. -/
  abort : Bool := false
  /-- One pass for each source. -/
  chained : Bool := false
  /-- The label for diagnostics. -/
  filename? : Option String := none
deriving DecidableEq, Repr

/-- Why there is nothing to run. -/
inductive Refusal where
  | help
  /-- The arguments make no sense. -/
  | misuse
deriving DecidableEq, Repr

/-- The options that take a value. -/
inductive ValueOption where
  | source
  | config
  | marker
  | filename
deriving DecidableEq, Repr

namespace ValueOption

def ofLong? (name : List Char) : Option ValueOption :=
  if name = "source".toList then some source
  else if name = "config".toList then some config
  else if name = "prefix".toList then some marker
  else if name = "filename".toList then some filename
  else none

def ofShort? (letter : Char) : Option ValueOption :=
  if letter = 's' then some source
  else if letter = 'c' then some config
  else if letter = 'p' then some marker
  else none

end ValueOption

namespace Invocation

/-- A path has to have at least one symbol. -/
def path (value : List Char) : Except Refusal String :=
  if value.isEmpty then .error .misuse else .ok (String.ofList value)

/-- Sets an option that takes a value. -/
def set (i : Invocation) (option : ValueOption) (value : List Char) :
    Except Refusal Invocation := do
  match option with
  | .source => return { i with sources := i.sources ++ [← path value] }
  | .config =>
    if i.config?.isSome then throw .misuse
    return { i with config? := some (← path value) }
  | .marker =>
    if i.marker?.isSome then throw .misuse
    match value with
    | [c] => return { i with marker? := some c }
    | _ => throw .misuse
  | .filename =>
    if i.filename?.isSome then throw .misuse
    return { i with filename? := some (String.ofList value) }

/-- Takes an argument that is no option. -/
def addInput (i : Invocation) (argument : List Char) : Except Refusal Invocation := do
  if i.input?.isSome then throw .misuse
  return { i with input? := some (← path argument) }

/-- Sets an option that takes no value. -/
def addFlag (i : Invocation) (name : List Char) : Except Refusal Invocation :=
  if name = "abort".toList ∧ !i.abort then .ok { i with abort := true }
  else if name = "chained".toList ∧ !i.chained then .ok { i with chained := true }
  else if name = "help".toList then .error .help
  else .error .misuse

end Invocation

/-! ### One argument -/

/-- What one argument is. -/
inductive Argument where
  /-- The two dashes behind which there are no options. -/
  | endOfOptions
  | flag (name : List Char)
  /-- An option with its value, if that is part of the argument. -/
  | valued (option : ValueOption) (value? : Option (List Char))
  | input (text : List Char)
  | unknown
deriving DecidableEq, Repr

/-- What an argument is, looked at for itself. -/
def Argument.ofText : List Char → Argument
  | ['-', '-'] => .endOfOptions
  | '-' :: '-' :: text =>
    let name := text.takeWhile (· != '=')
    let value? :=
      match text.dropWhile (· != '=') with
      | _ :: value => some value
      | [] => none
    match ValueOption.ofLong? name, value? with
    | some option, value? => .valued option value?
    | none, none => .flag name
    | none, some _ => .unknown
  | '-' :: letter :: text =>
    match ValueOption.ofShort? letter with
    | some option =>
      .valued option
        (match text with
        | [] => none
        | '=' :: value => some value
        | value => some value)
    | none => if letter = 'h' then .flag "help".toList else .unknown
  | text => .input text

/-! ### All of them -/

/-- Takes the arguments behind the end of options. -/
def takeInputs (i : Invocation) (arguments : List (List Char)) : Except Refusal Invocation :=
  arguments.foldlM Invocation.addInput i

def takeAll (i : Invocation) : List (List Char) → Except Refusal Invocation
  | [] => .ok i
  | argument :: more =>
    match Argument.ofText argument with
    | .endOfOptions => takeInputs i more
    | .flag name =>
      match i.addFlag name with
      | .ok i => takeAll i more
      | .error e => .error e
    | .valued option (some value) =>
      match i.set option value with
      | .ok i => takeAll i more
      | .error e => .error e
    | .valued option none =>
      match more with
      | [] => .error .misuse
      | value :: more =>
        match Argument.ofText value with
        | .input value =>
          match i.set option value with
          | .ok i => takeAll i more
          | .error e => .error e
        | _ => .error .misuse
    | .input text =>
      match i.addInput text with
      | .ok i => takeAll i more
      | .error e => .error e
    | .unknown => .error .misuse

def parse (arguments : List String) : Except Refusal Invocation :=
  takeAll {} (arguments.map String.toList)

end StyleTemplate.CommandLine
