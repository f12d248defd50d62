/-
  **Phrases: what stands behind a marker.**

  A placeholder is a marker followed by a phrase.  The grammar, with the
  longest match taken everywhere and white space allowed where `_` stands:

      phrase    := marker suffix  |  name params suffix
      name      := one or more name symbols, no segment between dots empty
      params    := nothing  |  _ ( _ )  |  _ ( arg { , arg } )
      arg       := _ quoted _  |  _ bare
      quoted    := quote { symbol | \ symbol } same quote
      bare      := one or more symbols other than comma and closing parenthesis
      suffix    := _ terminator  |  one white space symbol  |  nothing

  Reading works on the text that follows the marker and knows nothing of where
  the marker stands.  A reader answers what it has read and the rest of the
  text, or what is wrong and the text at which it stopped; the rest is always a
  tail of the text (`Phrase.read_rest_suffix`, `Phrase.read_fault_suffix`), so
  scanning on from it comes to an end.
-/
import StyleTemplate.Text.Split
import StyleTemplate.Text.SymbolClass

namespace StyleTemplate

/-! ### What can be wrong -/

/-- What can be wrong with an argument list. -/
inductive ArgumentFault where
  /-- Nothing stands where an argument has to stand. -/
  | missing
  /-- The text ends before the closing quote. -/
  | openQuote
  /-- Neither a comma nor a closing parenthesis follows an argument. -/
  | openList
deriving DecidableEq, Repr

/-- What can be wrong with a phrase. -/
inductive Fault where
  /-- No name symbol follows the marker. -/
  | emptyName
  /-- Two dots stand side by side, or one stands at an end of the name. -/
  | emptySegment (name : String)
  /-- The name is followed by a broken argument list. -/
  | arguments (name : String) (fault : ArgumentFault)
deriving DecidableEq, Repr

/-- What a reader answers: a value and the text behind it, or a fault and the
text at which reading stopped. -/
abbrev Reading (ε α : Type) := Except (ε × List Char) (α × List Char)

/-! ### Suffixes -/

/-- One white space symbol, if the text starts with one. -/
def readWhite : List Char → Option Char × List Char
  | c :: text => if isWhite c then (some c, text) else (none, c :: text)
  | [] => (none, [])

/-- A terminator, which may stand behind any white space; failing that, a single
white space symbol; failing that, nothing. -/
def readSuffix (text : List Char) : Option Char × List Char :=
  match skipWhite text with
  | c :: behind => if isTerminator c then (some c, behind) else readWhite text
  | [] => readWhite text

/-! ### Arguments -/

/-- A quoted argument, from behind its opening quote up to and with the closing
one.  A backslash keeps the next symbol from being the closing quote; it is
dropped before the quote and before another backslash, and kept before any
other symbol.  Without a closing quote there is no argument. -/
def readQuoted (delimiter : Char) : List Char → Option (List Char × List Char)
  | [] => none
  | '\\' :: c :: text =>
    (readQuoted delimiter text).map fun (body, rest) =>
      (if c == delimiter || c == '\\' then c :: body else '\\' :: c :: body, rest)
  | c :: text =>
    if c == delimiter then
      some ([], text)
    else
      (readQuoted delimiter text).map fun (body, rest) => (c :: body, rest)

def readArgument (text : List Char) : Reading ArgumentFault String :=
  match skipWhite text with
  | [] => .error (.missing, [])
  | c :: behind =>
    if isQuote c then
      match readQuoted c behind with
      | some (body, rest) => .ok (String.ofList body, rest)
      | none => .error (.openQuote, [])
    else
      let bare := trimEnd ((c :: behind).takeWhile isBareArgument)
      let rest := (c :: behind).dropWhile isBareArgument
      if bare.isEmpty then .error (.missing, rest) else .ok (String.ofList bare, rest)

/-! ### Tails -/

theorem skipWhite_suffix (text : List Char) : skipWhite text <:+ text :=
  List.dropWhile_suffix isWhite

theorem readQuoted_suffix {delimiter : Char} {text body rest : List Char}
    (h : readQuoted delimiter text = some (body, rest)) : rest <:+ text := by
  fun_induction readQuoted delimiter text generalizing body rest with
  | case1 => simp at h
  | case2 c text ih =>
    obtain ⟨⟨b, r⟩, hr, heq⟩ := Option.map_eq_some_iff.1 h
    simp only [Prod.mk.injEq] at heq
    obtain ⟨_, rfl⟩ := heq
    exact (ih hr).trans ⟨['\\', c], rfl⟩
  | case3 c text _ hc =>
    simp only [Option.some.injEq, Prod.mk.injEq] at h
    obtain ⟨_, rfl⟩ := h
    exact List.suffix_cons c text
  | case4 c text _ hc ih =>
    obtain ⟨⟨b, r⟩, hr, heq⟩ := Option.map_eq_some_iff.1 h
    simp only [Prod.mk.injEq] at heq
    obtain ⟨_, rfl⟩ := heq
    exact (ih hr).trans (List.suffix_cons c text)

theorem readArgument_rest_suffix {text rest : List Char} {argument : String}
    (h : readArgument text = .ok (argument, rest)) : rest <:+ text := by
  have white := skipWhite_suffix text
  unfold readArgument at h
  split at h
  next => simp at h
  next c behind heq =>
    rw [heq] at white
    split at h
    next =>
      split at h
      next body r hq =>
        simp only [Except.ok.injEq, Prod.mk.injEq] at h
        obtain ⟨_, rfl⟩ := h
        exact ((readQuoted_suffix hq).trans (List.suffix_cons c behind)).trans white
      next => simp at h
    next =>
      dsimp only at h
      split at h
      next => simp at h
      next =>
        simp only [Except.ok.injEq, Prod.mk.injEq] at h
        obtain ⟨_, rfl⟩ := h
        exact (List.dropWhile_suffix isBareArgument).trans white

theorem readArgument_fault_suffix {text rest : List Char} {fault : ArgumentFault}
    (h : readArgument text = .error (fault, rest)) : rest <:+ text := by
  have white := skipWhite_suffix text
  unfold readArgument at h
  split at h
  next =>
    simp only [Except.error.injEq, Prod.mk.injEq] at h
    obtain ⟨_, rfl⟩ := h
    exact List.nil_suffix
  next c behind heq =>
    rw [heq] at white
    split at h
    next =>
      split at h
      next => simp at h
      next =>
        simp only [Except.error.injEq, Prod.mk.injEq] at h
        obtain ⟨_, rfl⟩ := h
        exact List.nil_suffix
    next =>
      dsimp only at h
      split at h
      next =>
        simp only [Except.error.injEq, Prod.mk.injEq] at h
        obtain ⟨_, rfl⟩ := h
        exact (List.dropWhile_suffix isBareArgument).trans white
      next => simp at h

/-! ### Argument lists -/

/-- One or more arguments with commas between them and a closing parenthesis
behind the last. -/
def readArguments (text : List Char) : Reading ArgumentFault (List String) :=
  match _hArgument : readArgument text with
  | .error (fault, rest) => .error (fault, rest)
  | .ok (argument, rest) =>
    match _hRest : skipWhite rest with
    | ',' :: behind =>
      match readArguments behind with
      | .ok (more, rest) => .ok (argument :: more, rest)
      | .error e => .error e
    | ')' :: behind => .ok ([argument], behind)
    | behind => .error (.openList, behind)
termination_by text.length
decreasing_by
  have h₁ := (readArgument_rest_suffix _hArgument).length_le
  have h₂ := skipWhite_length_le rest
  rw [_hRest, List.length_cons] at h₂
  omega

/-- The parameters of a phrase: none at all unless an opening parenthesis
follows, with white space before it or not. -/
def readParameters (text : List Char) : Reading ArgumentFault (List String) :=
  match skipWhite text with
  | '(' :: inside =>
    match skipWhite inside with
    | ')' :: behind => .ok ([], behind)
    | inside => readArguments inside
  | _ => .ok ([], text)

/-! ### Phrases -/

/-- The stretches between the dots of a name. -/
def segments (name : List Char) : List (List Char) :=
  splitOnSymbol '.' name

/-- What a placeholder says, wherever it stands. -/
structure Phrase where
  /-- The segments of the name; the marker alone for an escape. -/
  path : List String
  /-- The arguments, with quotes and backslashes already dealt with. -/
  args : List String
  /-- The terminator or the white space symbol taken in behind the name and its parameters. -/
  suffix : Option Char
  /-- Whether this is a doubled marker, which stands for the marker itself. -/
  escape : Bool
deriving DecidableEq, Repr

namespace Phrase

/-- Reads a phrase from the text behind a marker. -/
def readNamed (text : List Char) : Reading Fault Phrase :=
  let name := text.takeWhile isNameSymbol
  let behind := text.dropWhile isNameSymbol
  if name.isEmpty then
    .error (.emptyName, behind)
  else if (segments name).any List.isEmpty then
    .error (.emptySegment (String.ofList name), behind)
  else
    match readParameters behind with
    | .error (fault, rest) => .error (.arguments (String.ofList name) fault, rest)
    | .ok (args, rest) =>
      let (suffix, rest) := readSuffix rest
      .ok ({ path := (segments name).map String.ofList, args, suffix, escape := false }, rest)

/-- The phrase of a doubled marker, from the text behind both. -/
def readEscape (marker : Char) (text : List Char) : Phrase × List Char :=
  let (suffix, rest) := readSuffix text
  ({ path := [marker.toString], args := [], suffix, escape := true }, rest)

/-- Reads a phrase from the text behind a `marker`. -/
def read (marker : Char) : List Char → Reading Fault Phrase
  | [] => readNamed []
  | c :: text => if c == marker then .ok (readEscape marker text) else readNamed (c :: text)

def name (p : Phrase) : String :=
  ".".intercalate p.path

end Phrase

/-! ### More tails -/

theorem readArguments_rest_suffix {text rest : List Char} {args : List String}
    (h : readArguments text = .ok (args, rest)) : rest <:+ text := by
  fun_induction readArguments text generalizing args rest with
  | case1 => simp at h
  | case2 text argument r hArgument behind hRest more r' hMore ih =>
    simp only [Except.ok.injEq, Prod.mk.injEq] at h
    obtain ⟨_, rfl⟩ := h
    have white := skipWhite_suffix r
    rw [hRest] at white
    exact (((ih hMore).trans (List.suffix_cons _ _)).trans white).trans
      (readArgument_rest_suffix hArgument)
  | case3 => simp at h
  | case4 text argument r hArgument behind hRest =>
    simp only [Except.ok.injEq, Prod.mk.injEq] at h
    obtain ⟨_, rfl⟩ := h
    have white := skipWhite_suffix r
    rw [hRest] at white
    exact ((List.suffix_cons _ _).trans white).trans (readArgument_rest_suffix hArgument)
  | case5 => simp at h

theorem readArguments_fault_suffix {text rest : List Char} {fault : ArgumentFault}
    (h : readArguments text = .error (fault, rest)) : rest <:+ text := by
  fun_induction readArguments text generalizing fault rest with
  | case1 text f r hArgument =>
    simp only [Except.error.injEq, Prod.mk.injEq] at h
    obtain ⟨rfl, rfl⟩ := h
    exact readArgument_fault_suffix hArgument
  | case2 => simp at h
  | case3 text argument r hArgument behind hRest e hMore ih =>
    simp only [Except.error.injEq] at h
    subst h
    have white := skipWhite_suffix r
    rw [hRest] at white
    exact (((ih hMore).trans (List.suffix_cons _ _)).trans white).trans
      (readArgument_rest_suffix hArgument)
  | case4 => simp at h
  | case5 text argument r hArgument _ _ =>
    simp only [Except.error.injEq, Prod.mk.injEq] at h
    obtain ⟨_, rfl⟩ := h
    exact (skipWhite_suffix r).trans (readArgument_rest_suffix hArgument)

theorem readWhite_suffix (text : List Char) : (readWhite text).2 <:+ text := by
  fun_cases readWhite text with
  | case1 c text _ => exact List.suffix_cons c text
  | case2 => exact List.suffix_refl _
  | case3 => exact List.suffix_refl _

theorem readSuffix_suffix (text : List Char) : (readSuffix text).2 <:+ text := by
  have white := skipWhite_suffix text
  unfold readSuffix
  split
  next c behind heq =>
    rw [heq] at white
    split
    next => exact (List.suffix_cons c behind).trans white
    next => exact readWhite_suffix text
  next => exact readWhite_suffix text

theorem readParameters_rest_suffix {text rest : List Char} {args : List String}
    (h : readParameters text = .ok (args, rest)) : rest <:+ text := by
  have white := skipWhite_suffix text
  unfold readParameters at h
  split at h
  next inside heq =>
    rw [heq] at white
    have tail := ((skipWhite_suffix inside).trans (List.suffix_cons _ _)).trans white
    split at h
    next behind heq' =>
      simp only [Except.ok.injEq, Prod.mk.injEq] at h
      obtain ⟨_, rfl⟩ := h
      rw [heq'] at tail
      exact (List.suffix_cons _ _).trans tail
    next => exact (readArguments_rest_suffix h).trans tail
  next =>
    simp only [Except.ok.injEq, Prod.mk.injEq] at h
    obtain ⟨_, rfl⟩ := h
    exact List.suffix_refl _

theorem readParameters_fault_suffix {text rest : List Char} {fault : ArgumentFault}
    (h : readParameters text = .error (fault, rest)) : rest <:+ text := by
  have white := skipWhite_suffix text
  unfold readParameters at h
  split at h
  next inside heq =>
    rw [heq] at white
    have tail := ((skipWhite_suffix inside).trans (List.suffix_cons _ _)).trans white
    split at h
    next => simp at h
    next => exact (readArguments_fault_suffix h).trans tail
  next => simp at h

namespace Phrase

theorem readNamed_rest_suffix {text rest : List Char} {phrase : Phrase}
    (h : readNamed text = .ok (phrase, rest)) : rest <:+ text := by
  unfold readNamed at h
  dsimp only at h
  split at h
  next => simp at h
  next =>
    split at h
    next => simp at h
    next =>
      split at h
      next => simp at h
      next args r hParameters =>
        simp only [Except.ok.injEq, Prod.mk.injEq] at h
        obtain ⟨_, rfl⟩ := h
        exact ((readSuffix_suffix r).trans (readParameters_rest_suffix hParameters)).trans
          (List.dropWhile_suffix isNameSymbol)

theorem readNamed_fault_suffix {text rest : List Char} {fault : Fault}
    (h : readNamed text = .error (fault, rest)) : rest <:+ text := by
  unfold readNamed at h
  dsimp only at h
  split at h
  next =>
    simp only [Except.error.injEq, Prod.mk.injEq] at h
    obtain ⟨_, rfl⟩ := h
    exact List.dropWhile_suffix isNameSymbol
  next =>
    split at h
    next =>
      simp only [Except.error.injEq, Prod.mk.injEq] at h
      obtain ⟨_, rfl⟩ := h
      exact List.dropWhile_suffix isNameSymbol
    next =>
      split at h
      next f r hParameters =>
        simp only [Except.error.injEq, Prod.mk.injEq] at h
        obtain ⟨_, rfl⟩ := h
        exact (readParameters_fault_suffix hParameters).trans
          (List.dropWhile_suffix isNameSymbol)
      next => simp at h

theorem read_rest_suffix {marker : Char} {text rest : List Char} {phrase : Phrase}
    (h : read marker text = .ok (phrase, rest)) : rest <:+ text := by
  unfold read at h
  split at h
  next => exact readNamed_rest_suffix h
  next c text =>
    split at h
    next =>
      simp only [readEscape, Except.ok.injEq, Prod.mk.injEq] at h
      obtain ⟨_, rfl⟩ := h
      exact (readSuffix_suffix text).trans (List.suffix_cons c text)
    next => exact readNamed_rest_suffix h

theorem read_fault_suffix {marker : Char} {text rest : List Char} {fault : Fault}
    (h : read marker text = .error (fault, rest)) : rest <:+ text := by
  unfold read at h
  split at h
  next => exact readNamed_fault_suffix h
  next c text =>
    split at h
    next => simp at h
    next => exact readNamed_fault_suffix h

end Phrase

end StyleTemplate
