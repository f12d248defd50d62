/-
  **Readers of a text.**

  A reader takes what it understands from the front of a text and leaves the
  rest, or fails.  Readers are put together by sequence (`do`), by trying
  (`attempt`) and by repetition (`many`); repetition takes at most as many turns
  as there are symbols, so every reader comes to an end.
-/

namespace StyleTemplate.Toml

/-- Takes a value from the front of a text, or fails. -/
abbrev Reader := StateT (List Char) Option

namespace Reader

variable {α : Type}

/-! ### Single symbols -/

def peek? : Reader (Option Char) :=
  fun text => some (text.head?, text)

def symbol (p : Char → Bool) : Reader Char
  | [] => none
  | c :: text => if p c then some (c, text) else none

def skip (c : Char) : Reader Unit :=
  discard (symbol (· == c))

def word (symbols : String) : Reader Unit :=
  fun text =>
    if symbols.toList.isPrefixOf text then some ((), text.drop symbols.toList.length) else none

/-- Succeeds at the end of the text only. -/
def endOfText : Reader Unit
  | [] => some ((), [])
  | _ :: _ => none

/-- Reads the longest run of symbols that meet a condition; it may be empty. -/
def run (p : Char → Bool) : Reader (List Char) :=
  fun text => some (text.takeWhile p, text.dropWhile p)

/-! ### Choice and repetition -/

/-- Reads something if it is there, and nothing otherwise. -/
def attempt (r : Reader α) : Reader (Option α) :=
  fun text =>
    match r text with
    | some (a, rest) => some (some a, rest)
    | none => some (none, text)

/-- Whether something is there, which then is read. -/
def accepts (r : Reader α) : Reader Bool :=
  Option.isSome <$> attempt r

/-- Repeats a reader until it fails, a given number of times at most. -/
def upTo : Nat → Reader α → Reader (List α)
  | 0, _ => pure []
  | n + 1, r => do
    match ← attempt r with
    | some a => return a :: (← upTo n r)
    | none => return []

/-- Repeats a reader, which takes at least one symbol, until it fails. -/
def many (r : Reader α) : Reader (List α) :=
  fun text => upTo text.length r text

def many1 (first others : Reader α) : Reader (List α) := do
  let a ← first
  return a :: (← many others)

/-! ### Digits -/

def digits : Nat → Reader (List Char)
  | 0 => pure []
  | n + 1 => do
    let c ← symbol Char.isDigit
    return c :: (← digits n)

def check (condition : Bool) : Reader Unit :=
  if condition then pure () else failure

def ofOption : Option α → Reader α
  | some a => pure a
  | none => failure

end Reader

end StyleTemplate.Toml
