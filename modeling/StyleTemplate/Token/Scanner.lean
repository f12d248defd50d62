/-
  **Scanning the placeholders of a text.**

  A token is a phrase in its place: the three ranges that it takes up, and its
  exact text.  Everything between tokens is opaque.  One step of the scan
  (`scanStep`) goes to the next marker and reads the phrase behind it;
  `scanAll` repeats the step until no marker is left or one is malformed.  A
  `Scanner` does the same one token at a time, and can be made to go on behind
  an error.
-/
import StyleTemplate.Token.SyntaxError

namespace StyleTemplate

/-! ### Tokens -/

/-- A placeholder found in a text. -/
structure Token extends Phrase where
  /-- Where its marker stands. -/
  start : Position
  /-- The place just behind it, the suffix included. -/
  stop : Position
  raw : String
deriving DecidableEq, Repr

/-- What of `text` has been read when `rest` is left. -/
def consumed (text rest : List Char) : List Char :=
  text.take (text.length - rest.length)

theorem consumed_append {text rest : List Char} (h : rest <:+ text) :
    consumed text rest ++ rest = text := by
  obtain ⟨front, rfl⟩ := h
  simp [consumed]

/-! ### One step -/

/-- What one step of the scan finds in a text. -/
inductive ScanStep where
  | finished
  /-- A token, and the text behind it. -/
  | token (token : Token) (rest : List Char)
  /-- A malformed placeholder, and the text at which reading it stopped. -/
  | failed (error : SyntaxError) (rest : List Char)
deriving DecidableEq, Repr

/-- Goes to the next marker in `text`, which starts at `position`, and reads the
phrase behind it. -/
def scanStep (marker : Char) (position : Position) (text : List Char) : ScanStep :=
  let start := position.advanceAll (text.takeWhile (· != marker))
  match text.dropWhile (· != marker) with
  | [] => .finished
  | m :: body =>
    match Phrase.read marker body with
    | .ok (phrase, rest) =>
      let raw := consumed (m :: body) rest
      .token { phrase with start, stop := start.advanceAll raw, raw := String.ofList raw } rest
    | .error (fault, rest) =>
      let stop := start.advanceAll (consumed (m :: body) rest)
      .failed (.ofFault marker start stop rest fault) rest

/-- A step that finds a token leaves a shorter text. -/
theorem scanStep_token_length {marker : Char} {position : Position} {text rest : List Char}
    {token : Token} (h : scanStep marker position text = .token token rest) :
    rest.length < text.length := by
  have tail := (List.dropWhile_suffix (l := text) (· != marker)).length_le
  unfold scanStep at h
  dsimp only at h
  split at h
  next => simp at h
  next m body heq =>
    rw [heq, List.length_cons] at tail
    split at h
    next phrase r hRead =>
      simp only [ScanStep.token.injEq] at h
      obtain ⟨_, rfl⟩ := h
      have := (Phrase.read_rest_suffix hRead).length_le
      omega
    next => simp at h

/-! ### The whole text -/

/-- All tokens of `text`, which starts at `position`, or the first error. -/
def scanFrom (marker : Char) (position : Position) (text : List Char) :
    Except SyntaxError (List Token) :=
  match _h : scanStep marker position text with
  | .finished => .ok []
  | .token token rest =>
    match scanFrom marker token.stop rest with
    | .ok tokens => .ok (token :: tokens)
    | .error e => .error e
  | .failed error _ => .error error
termination_by text.length
decreasing_by exact scanStep_token_length _h

/-- All tokens of a text from left to right, or the first error. -/
def scanAll (marker : Char) (text : List Char) : Except SyntaxError (List Token) :=
  scanFrom marker {} text

/-! ### One token at a time -/

structure Scanner where
  marker : Char
  cursor : Cursor
  /-- Whether an error has ended the scan. -/
  halted : Bool := false
deriving Repr

namespace Scanner

def ofText (marker : Char) (text : List Char) : Scanner where
  marker
  cursor := .ofText text

/-- Moves the scanner so that `rest` is left. -/
def skipTo (s : Scanner) (rest : List Char) : Scanner :=
  { s with cursor := s.cursor.moveOver (consumed s.cursor.rest rest) }

/-- Scans the next token from where the scanner stands, whether or not an error
has occurred before.  Without a marker left it answers none and goes to the end. -/
def scanToken (s : Scanner) : Except SyntaxError (Option Token) × Scanner :=
  match scanStep s.marker s.cursor.position s.cursor.rest with
  | .finished => (.ok none, s.skipTo [])
  | .token token rest => (.ok (some token), s.skipTo rest)
  | .failed error rest => (.error error, s.skipTo rest)

/-- The next token or error; nothing more follows an error, since every place
behind a malformed token is suspect. -/
def next (s : Scanner) : Option (Except SyntaxError Token) × Scanner :=
  if s.halted then
    (none, s)
  else
    match s.scanToken with
    | (.ok none, s) => (none, s)
    | (.ok (some token), s) => (some (.ok token), s)
    | (.error error, s) => (some (.error error), { s with halted := true })

end Scanner

end StyleTemplate
