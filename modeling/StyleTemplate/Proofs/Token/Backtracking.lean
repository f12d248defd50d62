/-
  **Phrases read with a cursor.**

  A cursor finds out whether a suffix or parameters follow by reading on, and goes back to
  a saved place if they do not (`Cursor.readSuffix`, `Cursor.readParameters`).  Reading on
  loses nothing: what a cursor answers, and where it stands behind that, is what the
  readers of a text make of the rest of its text (`Cursor.readToken_eq`).  So a scanner
  may be run symbol by symbol (`Scanner.scanToken_eq_readToken`).
-/
import StyleTemplate.Proofs.Token.ClosingQuote

namespace StyleTemplate

namespace Cursor

variable {r : Cursor}

/-! ### Moving on -/

/-- The cursor moved to where `rest` is left. -/
def moveTo (r : Cursor) (rest : List Char) : Cursor :=
  r.moveOver (consumed r.rest rest)

theorem moveTo_of_rest {front behind : List Char} (h : r.rest = front ++ behind) :
    r.moveTo behind = r.moveOver front := by
  rw [moveTo, h, consumed_append_right]

theorem moveTo_rest (r : Cursor) : r.moveTo r.rest = r :=
  @moveTo_of_rest r [] r.rest rfl

theorem rest_moveTo {rest : List Char} (h : rest <:+ r.rest) : (r.moveTo rest).rest = rest :=
  rest_moveOver (consumed_append h).symm

theorem moveTo_moveTo {rest rest' : List Char} (h : rest <:+ r.rest) (h' : rest' <:+ rest) :
    (r.moveTo rest).moveTo rest' = r.moveTo rest' := by
  obtain ⟨front, hfront⟩ := h
  obtain ⟨front', rfl⟩ := h'
  have hmoved : (r.moveTo (front' ++ rest')).rest = front' ++ rest' := rest_moveTo ⟨front, hfront⟩
  rw [moveTo_of_rest hmoved, moveTo_of_rest hfront.symm, ← moveOver_append,
    moveTo_of_rest (by rw [← hfront, List.append_assoc])]

theorem readWhile_eq (r : Cursor) (cls : SymbolClass) :
    r.readWhile cls =
      (r.rest.takeWhile cls.contains, r.moveTo (r.rest.dropWhile cls.contains)) := by
  rw [moveTo_of_rest List.takeWhile_append_dropWhile.symm]
  rfl

theorem skipWhitespace_eq (r : Cursor) : r.skipWhitespace.2 = r.moveTo (skipWhite r.rest) := by
  rw [skipWhitespace, readWhile_eq]
  rfl

theorem accept_at_end (cls : SymbolClass) (h : r.rest = []) : r.accept cls = (none, r) := by
  rw [accept, peek?, h]
  rfl

theorem accept_of_contains (cls : SymbolClass) {c : Char} {behind : List Char}
    (h : r.rest = c :: behind) (hc : cls.contains c = true) :
    r.accept cls = (some c, r.moveTo behind) := by
  rw [accept, peek?, h, List.head?_cons, Option.filter_some, if_pos hc,
    @moveTo_of_rest r [c] behind h]

theorem accept_of_not_contains (cls : SymbolClass) {c : Char} {behind : List Char}
    (h : r.rest = c :: behind) (hc : cls.contains c = false) : r.accept cls = (none, r) := by
  rw [accept, peek?, h, List.head?_cons, Option.filter_some, if_neg (by simp [hc])]

/-! ### Suffixes -/

/-- A terminator behind any white space.  Without one the cursor goes back to where it
    was, and takes one white space symbol from there. -/
def readSuffix (r : Cursor) : Option Char × Cursor :=
  let saved := r.position
  match r.skipWhitespace.2.accept .terminator with
  | (some c, r) => (some c, r)
  | (none, r) => (r.restore saved).accept .whitespace

theorem accept_whitespace_eq (r : Cursor) :
    r.accept .whitespace = ((readWhite r.rest).1, r.moveTo (readWhite r.rest).2) := by
  cases hrest : r.rest with
  | nil => rw [accept_at_end _ hrest, readWhite, ← hrest, moveTo_rest]
  | cons c behind =>
    rw [readWhite]
    cases hc : isWhite c with
    | true => rw [accept_of_contains .whitespace hrest hc, if_pos rfl]
    | false =>
      rw [accept_of_not_contains .whitespace hrest hc, if_neg Bool.false_ne_true, ← hrest,
        moveTo_rest]

/-- **Going back leaves nothing of what was tried.** -/
theorem readSuffix_eq (r : Cursor) :
    r.readSuffix =
      ((StyleTemplate.readSuffix r.rest).1, r.moveTo (StyleTemplate.readSuffix r.rest).2) := by
  have hsuffix := skipWhite_suffix r.rest
  have hskipped := rest_moveTo hsuffix
  have hback : ((r.moveTo (skipWhite r.rest)).restore r.position).accept .whitespace =
      ((readWhite r.rest).1, r.moveTo (readWhite r.rest).2) :=
    accept_whitespace_eq r
  rw [readSuffix, StyleTemplate.readSuffix, skipWhitespace_eq]
  cases hwhite : skipWhite r.rest with
  | nil =>
    rw [hwhite] at hskipped hback
    rw [accept_at_end _ hskipped]
    exact hback
  | cons c behind =>
    rw [hwhite] at hskipped hsuffix hback
    cases hc : isTerminator c with
    | true =>
      rw [accept_of_contains .terminator hskipped hc,
        moveTo_moveTo hsuffix (List.suffix_cons c behind)]
      simp only [hc, if_true]
    | false =>
      rw [accept_of_not_contains .terminator hskipped hc]
      simp only [hc, Bool.false_eq_true, if_false]
      exact hback

/-! ### Arguments -/

/-- What a reader of a text answers, said of a cursor at that text: the value or the error
    from the marker, which stands at `start`, on, and the cursor where reading stopped. -/
def answer {ε α : Type} (r : Cursor) (marker : Char) (start : Position) (fault : ε → Fault) :
    Reading ε α → Except SyntaxError α × Cursor
  | .ok (value, rest) => (.ok value, r.moveTo rest)
  | .error (e, rest) =>
    (.error (.ofFault marker start (r.moveTo rest).position rest (fault e)), r.moveTo rest)

/-- What a reader has left of a text. -/
def leftBy {ε α : Type} : Reading ε α → List Char
  | .ok (_, rest) => rest
  | .error (_, rest) => rest

theorem answer_moveTo {ε α : Type} {marker : Char} {start : Position} {fault : ε → Fault}
    {reading : Reading ε α} {rest : List Char} (h : rest <:+ r.rest)
    (h' : leftBy reading <:+ rest) :
    (r.moveTo rest).answer marker start fault reading = r.answer marker start fault reading := by
  match reading with
  | .ok (value, left) => rw [answer, answer, @moveTo_moveTo r rest left h h']
  | .error (e, left) => rw [answer, answer, @moveTo_moveTo r rest left h h']

theorem leftBy_readArguments (text : List Char) :
    leftBy (StyleTemplate.readArguments text) <:+ text := by
  cases h : StyleTemplate.readArguments text with
  | ok => exact readArguments_rest_suffix h
  | error => exact readArguments_fault_suffix h

/-- One argument: a quoted one behind a quote, and otherwise a bare one. -/
def readArgument (r : Cursor) (name : String) (start : Position) :
    Except SyntaxError String × Cursor :=
  match r.skipWhitespace.2.accept .quote with
  | (some quote, r) => r.readQuoted quote name start
  | (none, r) =>
    let (bare, r) := r.readWhile .bareArgument
    let argument := trimEnd bare
    if argument.isEmpty then (.error (.missingArgument name (.between start r.position)), r)
    else (.ok (String.ofList argument), r)

/-- The loop over a quoted argument, from behind its quote. -/
theorem readQuoted_moveTo_eq {quote : Char} (hquote : isQuote quote = true) {behind : List Char}
    (h : quote :: behind <:+ r.rest) (marker : Char) (name : String) (start : Position) :
    (r.moveTo behind).readQuoted quote name start =
      r.answer marker start (.arguments name) (StyleTemplate.readArgument (quote :: behind)) := by
  have hsuffix : behind <:+ r.rest := (List.suffix_cons quote behind).trans h
  have hmoved := rest_moveTo hsuffix
  rw [readQuoted_eq hquote, readArgument_quote hquote, hmoved]
  cases hread : StyleTemplate.readQuoted quote behind with
  | none =>
    have hend : (r.moveTo behind).moveOver behind = r.moveTo [] := by
      rw [← moveTo_of_rest (hmoved.trans (List.append_nil _).symm),
        moveTo_moveTo hsuffix List.nil_suffix]
    dsimp only
    rw [hend]
    rfl
  | some reading =>
    have hbehind := moveTo_moveTo hsuffix (readQuoted_suffix hread)
    rw [moveTo, hmoved] at hbehind
    dsimp only
    rw [hbehind]
    rfl

theorem readArgument_skipWhite (text : List Char) :
    StyleTemplate.readArgument (skipWhite text) = StyleTemplate.readArgument text := by
  have hidem : skipWhite (skipWhite text) = skipWhite text :=
    skipWhite_of_noneNext (noneNext_dropWhile isWhite text)
  rw [StyleTemplate.readArgument, StyleTemplate.readArgument, hidem]

theorem readArgument_eq (r : Cursor) (marker : Char) (name : String) (start : Position) :
    r.readArgument name start =
      r.answer marker start (.arguments name) (StyleTemplate.readArgument r.rest) := by
  have hsuffix := skipWhite_suffix r.rest
  have hskipped := rest_moveTo hsuffix
  have hnone := noneNext_dropWhile isWhite r.rest
  rw [readArgument, skipWhitespace_eq, ← readArgument_skipWhite]
  cases hwhite : skipWhite r.rest with
  | nil =>
    rw [hwhite] at hskipped hsuffix
    rw [accept_at_end _ hskipped]
    dsimp only
    rw [readWhile_eq, hskipped, List.dropWhile_nil, moveTo_moveTo hsuffix List.suffix_rfl]
    rfl
  | cons c behind =>
    rw [hwhite] at hskipped hsuffix
    cases hquote : isQuote c with
    | true =>
      rw [accept_of_contains .quote hskipped hquote,
        moveTo_moveTo hsuffix (List.suffix_cons c behind)]
      exact readQuoted_moveTo_eq hquote hsuffix marker name start
    | false =>
      have hclass : SymbolClass.bareArgument.contains = isBareArgument := rfl
      have hskip : skipWhite (c :: behind) = c :: behind := skipWhite_of_noneNext (hwhite ▸ hnone)
      rw [accept_of_not_contains .quote hskipped hquote, StyleTemplate.readArgument, hskip]
      dsimp only
      rw [readWhile_eq, hskipped, hclass, moveTo_moveTo hsuffix (List.dropWhile_suffix _), hquote,
        if_neg Bool.false_ne_true]
      dsimp only
      split <;> rfl

/-! ### Argument lists -/

/-- A symbol that is accepted is read. -/
theorem exists_of_accept {cls : SymbolClass} {c : Char} {r' : Cursor}
    (h : r.accept cls = (some c, r')) :
    ∃ behind, r.rest = c :: behind ∧ cls.contains c = true ∧ r' = r.moveTo behind := by
  cases hrest : r.rest with
  | nil => simp [accept_at_end cls hrest] at h
  | cons d behind =>
    cases hd : cls.contains d with
    | true =>
      rw [accept_of_contains cls hrest hd] at h
      obtain ⟨⟨rfl⟩, rfl⟩ := Prod.mk.inj h
      exact ⟨behind, rfl, hd, rfl⟩
    | false => simp [accept_of_not_contains cls hrest hd] at h

/-- A symbol that is not accepted stays where it is. -/
theorem noneNext_of_accept {cls : SymbolClass} {r' : Cursor} (h : r.accept cls = (none, r')) :
    NoneNext cls.contains r.rest ∧ r' = r := by
  cases hrest : r.rest with
  | nil =>
    rw [accept_at_end cls hrest] at h
    exact ⟨by simp [NoneNext], (Prod.mk.inj h).2.symm⟩
  | cons d behind =>
    cases hd : cls.contains d with
    | true => simp [accept_of_contains cls hrest hd] at h
    | false =>
      rw [accept_of_not_contains cls hrest hd] at h
      exact ⟨.cons hd behind, (Prod.mk.inj h).2.symm⟩

theorem accept_of_expect {cls : SymbolClass} {c : Char} {r' : Cursor}
    (h : r.expect cls = (.ok c, r')) : r.accept cls = (some c, r') := by
  rw [expect] at h
  split at h
  next c' behind heq =>
    obtain ⟨⟨rfl⟩, rfl⟩ := Prod.mk.inj h
    exact heq
  next => simp at h

theorem noneNext_of_expect {cls : SymbolClass} {cause : ReadError} {r' : Cursor}
    (h : r.expect cls = (.error cause, r')) : NoneNext cls.contains r.rest ∧
      cause = .unexpectedInput cls.describe r.rest.head? r.position ∧ r' = r := by
  rw [expect] at h
  split at h
  next => simp at h
  next behind heq =>
    obtain ⟨hnone, rfl⟩ := noneNext_of_accept heq
    obtain ⟨⟨rfl⟩, rfl⟩ := Prod.mk.inj h
    exact ⟨hnone, rfl, rfl⟩

/-- An argument that a cursor reads is one of its text. -/
theorem exists_of_readArgument {r' : Cursor} {name argument : String} {start : Position}
    (h : r.readArgument name start = (.ok argument, r')) :
    ∃ left, StyleTemplate.readArgument r.rest = .ok (argument, left) ∧ r' = r.moveTo left := by
  rw [readArgument_eq r '$'] at h
  cases hread : StyleTemplate.readArgument r.rest with
  | error e => simp [hread, answer] at h
  | ok reading =>
    rw [hread] at h
    obtain ⟨⟨rfl⟩, rfl⟩ := Prod.mk.inj h
    exact ⟨reading.2, rfl, rfl⟩

/-- What stands behind an argument and white space. -/
theorem skipWhitespace_of_readArgument {r' : Cursor} {name argument : String} {start : Position}
    (h : r.readArgument name start = (.ok argument, r')) :
    ∃ left, StyleTemplate.readArgument r.rest = .ok (argument, left) ∧
      skipWhite left <:+ r.rest ∧ r'.skipWhitespace.2 = r.moveTo (skipWhite left) := by
  obtain ⟨left, hread, rfl⟩ := exists_of_readArgument h
  have hsuffix := readArgument_rest_suffix hread
  have hskipped := skipWhite_suffix left
  refine ⟨left, hread, hskipped.trans hsuffix, ?_⟩
  rw [skipWhitespace_eq, rest_moveTo hsuffix, moveTo_moveTo hsuffix hskipped]

/-- What stands behind an argument and a comma. -/
theorem exists_comma {r' behind : Cursor} {name argument : String} {start : Position} {c : Char}
    (hargument : r.readArgument name start = (.ok argument, r'))
    (hcomma : r'.skipWhitespace.2.accept (.exactly ',') = (some c, behind)) :
    ∃ left text, StyleTemplate.readArgument r.rest = .ok (argument, left) ∧
      skipWhite left = ',' :: text ∧ ',' :: text <:+ r.rest ∧ behind = r.moveTo text := by
  obtain ⟨left, hread, hsuffix, hskipped⟩ := skipWhitespace_of_readArgument hargument
  rw [hskipped] at hcomma
  obtain ⟨text, hrest, hc, rfl⟩ := exists_of_accept hcomma
  rw [rest_moveTo hsuffix] at hrest
  obtain rfl : c = ',' := by simpa [SymbolClass.contains] using hc
  rw [hrest] at hsuffix
  refine ⟨left, text, hread, hrest, hsuffix, ?_⟩
  rw [hrest, moveTo_moveTo hsuffix (List.suffix_cons ',' text)]

/-- Arguments with commas between them.  Where no comma follows, a closing parenthesis has
    to. -/
def readArguments (r : Cursor) (name : String) (start : Position) :
    Except SyntaxError (List String) × Cursor :=
  match _hArgument : r.readArgument name start with
  | (.error e, r) => (.error e, r)
  | (.ok argument, behind) =>
    match _hComma : behind.skipWhitespace.2.accept (.exactly ',') with
    | (some _, r) =>
      match r.readArguments name start with
      | (.ok more, r) => (.ok (argument :: more), r)
      | (.error e, r) => (.error e, r)
    | (none, r) =>
      match r.expect (.exactly ')') with
      | (.ok _, r) => (.ok [argument], r)
      | (.error cause, r) =>
        (.error (.unterminatedArgumentList name (.between start r.position) cause), r)
termination_by r.rest.length
decreasing_by
  obtain ⟨_, text, _, _, hsuffix, rfl⟩ := exists_comma _hArgument _hComma
  rw [rest_moveTo ((List.suffix_cons ',' text).trans hsuffix)]
  exact hsuffix.length_le

/-- Arguments behind a comma, by those of the text there. -/
theorem answer_of_comma {marker : Char} {name argument : String} {start : Position}
    {left text : List Char} (hread : StyleTemplate.readArgument r.rest = .ok (argument, left))
    (hskip : skipWhite left = ',' :: text) (hsuffix : ',' :: text <:+ r.rest) :
    r.answer marker start (.arguments name) (StyleTemplate.readArguments r.rest) =
      match (r.moveTo text).answer marker start (.arguments name)
        (StyleTemplate.readArguments text) with
      | (.ok more, last) => (.ok (argument :: more), last)
      | (.error e, last) => (.error e, last) := by
  have hbehind := (List.suffix_cons ',' text).trans hsuffix
  rw [answer_moveTo hbehind (leftBy_readArguments text), readArguments_of_comma hread hskip]
  cases StyleTemplate.readArguments text <;> rfl

/-- **A loop over arguments reads those of the text.** -/
theorem readArguments_eq (r : Cursor) (marker : Char) (name : String) (start : Position) :
    r.readArguments name start =
      r.answer marker start (.arguments name) (StyleTemplate.readArguments r.rest) := by
  fun_induction Cursor.readArguments r name start with
  | case1 r e stopped hargument =>
    rw [readArgument_eq r marker] at hargument
    cases hread : StyleTemplate.readArgument r.rest with
    | ok reading => simp [hread, answer] at hargument
    | error reading =>
      rw [hread] at hargument
      rw [readArguments_of_fault hread]
      obtain ⟨⟨rfl⟩, rfl⟩ := Prod.mk.inj hargument
      rfl
  | case2 r argument stopped hargument c behind hcomma more last hmore ih =>
    obtain ⟨left, text, hread, hskip, hsuffix, rfl⟩ := exists_comma hargument hcomma
    rw [rest_moveTo ((List.suffix_cons ',' text).trans hsuffix), hmore] at ih
    rw [answer_of_comma hread hskip hsuffix, ← ih]
  | case3 r argument stopped hargument c behind hcomma e last hmore ih =>
    obtain ⟨left, text, hread, hskip, hsuffix, rfl⟩ := exists_comma hargument hcomma
    rw [rest_moveTo ((List.suffix_cons ',' text).trans hsuffix), hmore] at ih
    rw [answer_of_comma hread hskip hsuffix, ← ih]
  | case4 r argument stopped hargument behind hcomma c last hclose =>
    obtain ⟨left, hread, hsuffix, hskipped⟩ := skipWhitespace_of_readArgument hargument
    obtain ⟨-, rfl⟩ := noneNext_of_accept hcomma
    rw [hskipped] at hclose
    obtain ⟨text, hrest, hc, rfl⟩ := exists_of_accept (accept_of_expect hclose)
    rw [rest_moveTo hsuffix] at hrest
    obtain rfl : c = ')' := by simpa [SymbolClass.contains] using hc
    rw [hrest] at hsuffix
    rw [readArguments_of_parenthesis hread hrest, hrest,
      moveTo_moveTo hsuffix (List.suffix_cons ')' text)]
    rfl
  | case5 r argument stopped hargument behind hcomma cause last hclose =>
    obtain ⟨left, hread, hsuffix, hskipped⟩ := skipWhitespace_of_readArgument hargument
    rw [hskipped] at hcomma
    obtain ⟨hother, rfl⟩ := noneNext_of_accept hcomma
    obtain ⟨hopen, rfl, rfl⟩ := noneNext_of_expect hclose
    rw [rest_moveTo hsuffix] at hother hopen
    rw [readArguments_of_open hread, rest_moveTo hsuffix]
    · rfl
    · intro text htext
      rw [htext] at hother
      exact absurd hother.of_cons (by decide)
    · intro text htext
      rw [htext] at hopen
      exact absurd hopen.of_cons (by decide)

/-! ### Parameters -/

/-- Arguments in parentheses behind any white space.  Without parentheses the cursor goes
    back to where it was. -/
def readParameters (r : Cursor) (name : String) (start : Position) :
    Except SyntaxError (List String) × Cursor :=
  let saved := r.position
  match r.skipWhitespace.2.accept (.exactly '(') with
  | (none, r) => (.ok [], r.restore saved)
  | (some _, r) =>
    match r.skipWhitespace.2.accept (.exactly ')') with
    | (some _, r) => (.ok [], r)
    | (none, r) => r.readArguments name start

/-- What stands behind an opening parenthesis. -/
theorem readInside_eq {inside : List Char} (hsuffix : inside <:+ r.rest) (marker : Char)
    (name : String) (start : Position) :
    (match (r.moveTo inside).skipWhitespace.2.accept (.exactly ')') with
      | (some _, r) => (.ok [], r)
      | (none, r) => r.readArguments name start) =
      r.answer marker start (.arguments name)
        (match skipWhite inside with
          | ')' :: behind => .ok ([], behind)
          | inside => StyleTemplate.readArguments inside) := by
  have hwhite := skipWhite_suffix inside
  have hskipped := rest_moveTo (hwhite.trans hsuffix)
  rw [skipWhitespace_eq, rest_moveTo hsuffix, moveTo_moveTo hsuffix hwhite]
  split
  next c behind heq =>
    obtain ⟨text, hrest, hc, rfl⟩ := exists_of_accept heq
    rw [hskipped] at hrest
    obtain rfl : c = ')' := by simpa [SymbolClass.contains] using hc
    rw [hrest] at hwhite
    rw [hrest, moveTo_moveTo (hwhite.trans hsuffix) (List.suffix_cons ')' text)]
    rfl
  next behind heq =>
    obtain ⟨hother, rfl⟩ := noneNext_of_accept heq
    rw [hskipped] at hother
    rw [readArguments_eq _ marker, hskipped,
      answer_moveTo (hwhite.trans hsuffix) (leftBy_readArguments _)]
    split
    next text htext =>
      rw [htext] at hother
      exact absurd hother.of_cons (by decide)
    next => rfl

/-- **Going back leaves nothing of what was tried**, parameters included. -/
theorem readParameters_eq (r : Cursor) (marker : Char) (name : String) (start : Position) :
    r.readParameters name start =
      r.answer marker start (.arguments name) (StyleTemplate.readParameters r.rest) := by
  have hwhite := skipWhite_suffix r.rest
  have hskipped := rest_moveTo hwhite
  rw [readParameters, StyleTemplate.readParameters, skipWhitespace_eq]
  split
  next behind heq =>
    obtain ⟨hother, rfl⟩ := noneNext_of_accept heq
    rw [hskipped] at hother
    split
    next text htext =>
      rw [htext] at hother
      exact absurd hother.of_cons (by decide)
    next =>
      rw [answer, moveTo_rest]
      rfl
  next c behind heq =>
    obtain ⟨text, hrest, hc, rfl⟩ := exists_of_accept heq
    rw [hskipped] at hrest
    obtain rfl : c = '(' := by simpa [SymbolClass.contains] using hc
    rw [hrest] at hwhite
    rw [hrest, moveTo_moveTo hwhite (List.suffix_cons '(' text)]
    exact readInside_eq ((List.suffix_cons '(' text).trans hwhite) marker name start

/-! ### Phrases -/

/-- A phrase with a name. -/
def readNamed (r : Cursor) (marker : Char) (start : Position) :
    Except SyntaxError Phrase × Cursor :=
  let (name, r) := r.readWhile .nameSymbol
  if name.isEmpty then (.error (.emptyTokenName marker (.between start r.position)), r)
  else if (segments name).any List.isEmpty then
    (.error (.emptyPathSegment (String.ofList name) (.between start r.position)), r)
  else
    match r.readParameters (String.ofList name) start with
    | (.error e, r) => (.error e, r)
    | (.ok args, r) =>
      let (suffix, r) := r.readSuffix
      (.ok { path := (segments name).map String.ofList, args, suffix, escape := false }, r)

/-- A phrase, from behind the marker that stands at `start`. -/
def readPhrase (r : Cursor) (marker : Char) (start : Position) :
    Except SyntaxError Phrase × Cursor :=
  match r.accept (.exactly marker) with
  | (some _, r) =>
    let (suffix, r) := r.readSuffix
    (.ok { path := [marker.toString], args := [], suffix, escape := true }, r)
  | (none, r) => r.readNamed marker start

theorem readNamed_eq (r : Cursor) (marker : Char) (start : Position) :
    r.readNamed marker start = r.answer marker start id (Phrase.readNamed r.rest) := by
  have hclass : SymbolClass.nameSymbol.contains = isNameSymbol := rfl
  have hsuffix : r.rest.dropWhile isNameSymbol <:+ r.rest := List.dropWhile_suffix _
  rw [readNamed, Phrase.readNamed, readWhile_eq, hclass]
  dsimp only
  split
  next => rfl
  next =>
    split
    next => rfl
    next =>
      rw [readParameters_eq _ marker, rest_moveTo hsuffix]
      cases hread : StyleTemplate.readParameters (r.rest.dropWhile isNameSymbol) with
      | error e =>
        have hstop := moveTo_moveTo hsuffix (readParameters_fault_suffix hread)
        simp only [answer, hstop]
        rfl
      | ok reading =>
        have hargs := readParameters_rest_suffix hread
        have hlast := readSuffix_suffix reading.2
        simp only [answer, moveTo_moveTo hsuffix hargs]
        rw [readSuffix_eq, rest_moveTo (hargs.trans hsuffix),
          moveTo_moveTo (hargs.trans hsuffix) hlast]

/-- **A phrase read symbol by symbol is that of the text.** -/
theorem readPhrase_eq (r : Cursor) (marker : Char) (start : Position) :
    r.readPhrase marker start = r.answer marker start id (Phrase.read marker r.rest) := by
  rw [readPhrase]
  split
  next c behind heq =>
    obtain ⟨text, hrest, hc, rfl⟩ := exists_of_accept heq
    have hsuffix : text <:+ r.rest := hrest ▸ List.suffix_cons c text
    have hc' : (c == marker) = true := hc
    rw [readSuffix_eq, rest_moveTo hsuffix, moveTo_moveTo hsuffix (readSuffix_suffix text), hrest,
      Phrase.read, if_pos hc']
    rfl
  next behind heq =>
    obtain ⟨hother, rfl⟩ := noneNext_of_accept heq
    rw [readNamed_eq]
    cases hrest : behind.rest with
    | nil => rfl
    | cons c text =>
      rw [hrest] at hother
      have hc : (c == marker) = false := hother.of_cons
      rw [Phrase.read, hc, if_neg Bool.false_ne_true]

/-! ### Tokens -/

/-- A phrase with its place.  The text of the token is cut out of the source. -/
def finish (r : Cursor) (start : Position) (phrase : Phrase) : Token where
  toPhrase := phrase
  start
  stop := r.position
  raw := String.ofList ((r.sliceBetween? start r.position).getD [])

/-- Goes to the next marker and reads the phrase behind it. -/
def readToken (r : Cursor) (marker : Char) : Except SyntaxError (Option Token) × Cursor :=
  match r.seek (.exactly marker) with
  | (false, r) => (.ok none, r)
  | (true, r) =>
    let start := r.position
    match r.read with
    | (.error cause, r) => (.error (.unreadable cause), r)
    | (.ok _, r) =>
      match r.readPhrase marker start with
      | (.error e, r) => (.error e, r)
      | (.ok phrase, r) => (.ok (some (r.finish start phrase)), r)

theorem seek_marker_eq (r : Cursor) (marker : Char) :
    r.seek (.exactly marker) =
      (!(r.rest.dropWhile (· != marker)).isEmpty, r.moveTo (r.rest.dropWhile (· != marker))) := by
  have hmoved : r.moveTo (r.rest.dropWhile (· != marker)) =
      r.moveOver (r.rest.takeWhile (· != marker)) :=
    moveTo_of_rest List.takeWhile_append_dropWhile.symm
  have hleft := rest_moveTo (List.dropWhile_suffix (l := r.rest) (· != marker))
  rw [hmoved] at hleft ⊢
  exact Prod.ext (congrArg (fun left : List Char => !left.isEmpty) hleft) rfl

/-- A token behind a gap has the text that has been read. -/
theorem finish_eq (before gap : List Char) {text rest : List Char} (hsuffix : rest <:+ text)
    (phrase : Phrase) :
    let r : Cursor := { source := before ++ (gap ++ text), position := .after before }
    (r.moveTo rest).finish (r.position.advanceAll gap) phrase =
      { phrase with
        start := r.position.advanceAll gap
        stop := (r.position.advanceAll gap).advanceAll (consumed text rest)
        raw := String.ofList (consumed text rest) } := by
  intro r
  obtain ⟨raw, rfl⟩ := hsuffix
  have hrest : r.rest = gap ++ raw ++ rest := by simp [r, Cursor.rest]
  have hstart : r.position.advanceAll gap = .after (before ++ gap) :=
    (Position.after_append before gap).symm
  have hposition : (r.moveTo rest).position = .after (before ++ gap ++ raw) := by
    rw [moveTo_of_rest hrest, List.append_assoc, Position.after_append]
    rfl
  have hraw : (r.moveTo rest).sliceBetween? (.after (before ++ gap))
      (.after (before ++ gap ++ raw)) = some raw := by
    have hcut := cutBytes?_append (before ++ gap) raw rest
    rw [← utf8Length_append] at hcut
    rw [sliceBetween?, Position.after_byte, Position.after_byte, ← hcut]
    simp [moveTo, moveOver, r]
  rw [finish, hposition, hstart, hraw, consumed_append_right, ← Position.after_append]
  rfl

/-- **A token read symbol by symbol is the one that a step of a scan finds.** -/
theorem readToken_eq (marker : Char) (before text : List Char) :
    let r : Cursor := { source := before ++ text, position := .after before }
    r.readToken marker =
      match scanStep marker r.position text with
      | .finished => (.ok none, r.moveTo [])
      | .token token rest => (.ok (some token), r.moveTo rest)
      | .failed error rest => (.error error, r.moveTo rest) := by
  intro r
  have hrest : r.rest = text := by simp [r, rest]
  have hgap : text.takeWhile (· != marker) ++ text.dropWhile (· != marker) = text :=
    List.takeWhile_append_dropWhile
  have hsuffix : text.dropWhile (· != marker) <:+ r.rest := hrest ▸ List.dropWhile_suffix _
  rw [readToken, scanStep, seek_marker_eq, hrest]
  cases hdrop : text.dropWhile (· != marker) with
  | nil => rfl
  | cons m body =>
    rw [hdrop] at hsuffix hgap
    have hbody : body <:+ r.rest := (List.suffix_cons m body).trans hsuffix
    have hmarker := rest_moveTo hsuffix
    have hstart : (r.moveTo (m :: body)).position =
        r.position.advanceAll (text.takeWhile (· != marker)) := by
      rw [moveTo_of_rest (hrest.trans hgap.symm)]
      rfl
    have hread : (r.moveTo (m :: body)).read = (.ok m, r.moveTo body) := by
      rw [read_of_rest hmarker, ← @moveTo_of_rest _ [m] body hmarker,
        moveTo_moveTo hsuffix (List.suffix_cons m body)]
    simp only [List.isEmpty_cons, Bool.not_false, hread, hstart, readPhrase_eq, rest_moveTo hbody]
    have hstop : ∀ rest, rest <:+ body → (r.moveTo rest).position =
        (r.position.advanceAll (text.takeWhile (· != marker))).advanceAll
          (consumed (m :: body) rest) := by
      intro rest hle
      rw [← moveTo_moveTo hsuffix (hle.trans (List.suffix_cons m body)), moveTo, hmarker, ← hstart]
      rfl
    cases hphrase : Phrase.read marker body with
    | error reading =>
      have hle := Phrase.read_fault_suffix hphrase
      simp only [answer, moveTo_moveTo hbody hle, hstop _ hle]
      rfl
    | ok reading =>
      have hle := Phrase.read_rest_suffix hphrase
      have hfinish := finish_eq before (text.takeWhile (· != marker))
        (hle.trans (List.suffix_cons m body)) reading.1
      rw [hgap] at hfinish
      simp only [answer, moveTo_moveTo hbody hle]
      rw [hfinish]

end Cursor

/-! ### Whole texts -/

/-- `Scans marker r result`: so the tokens from `r` on are read, one after another, until
    there is no marker left or one is malformed. -/
inductive Cursor.Scans (marker : Char) : Cursor → Except SyntaxError (List Token) → Prop where
  | finished {r r' : Cursor} : r.readToken marker = (.ok none, r') → Scans marker r (.ok [])
  | failed {r r' : Cursor} {error : SyntaxError} : r.readToken marker = (.error error, r') →
      Scans marker r (.error error)
  | token {r r' : Cursor} {token : Token} {result : Except SyntaxError (List Token)} :
      r.readToken marker = (.ok (some token), r') → Scans marker r' result →
      Scans marker r (result.map (token :: ·))

/-- Behind a token the cursor stands where the token ends. -/
theorem Cursor.readToken_of_token {marker : Char} {before text rest : List Char} {token : Token}
    (h : scanStep marker (.after before) text = .token token rest) :
    ∃ front, text = front ++ rest ∧ token.stop = .after (before ++ front) ∧
      ({ source := before ++ text, position := .after before } : Cursor).readToken marker =
        (.ok (some token),
          { source := before ++ front ++ rest, position := .after (before ++ front) }) := by
  obtain ⟨gap, written, phrase, -, htext, -, htoken⟩ := exists_form_of_scanStep h
  have hfront : text = (gap ++ marker :: written) ++ rest := by simp [htext]
  have hmoved : ({ source := before ++ text, position := .after before } : Cursor).moveTo rest =
      { source := before ++ (gap ++ marker :: written) ++ rest
        position := .after (before ++ (gap ++ marker :: written)) } := by
    have hrest : ({ source := before ++ text, position := .after before } : Cursor).rest =
        (gap ++ marker :: written) ++ rest := by simp [Cursor.rest, hfront]
    rw [moveTo_of_rest hrest, moveOver, Position.after_append, hfront, ← List.append_assoc]
  have hread := readToken_eq marker before text
  simp only [h, hmoved] at hread
  refine ⟨_, hfront, ?_, hread⟩
  rw [htoken, ← Position.after_append, Token.placed_after_stop, List.append_assoc]

/-- **A text scanned symbol by symbol has the tokens and the error of its scan.** -/
theorem Cursor.scans_scanFrom (marker : Char) (before text : List Char) :
    Scans marker { source := before ++ text, position := .after before }
      (scanFrom marker (.after before) text) := by
  generalize hposition : Position.after before = position
  fun_induction scanFrom marker position text generalizing before with
  | case1 position text hstep =>
    subst hposition
    have hread := readToken_eq marker before text
    simp only [hstep] at hread
    exact .finished hread
  | case2 position text token rest hstep tokens hmore ih =>
    subst hposition
    obtain ⟨front, rfl, hstop, hread⟩ := readToken_of_token hstep
    have hscans := ih (before ++ front) hstop.symm
    rw [hmore, hstop] at hscans
    exact .token hread hscans
  | case3 position text token rest hstep error hmore ih =>
    subst hposition
    obtain ⟨front, rfl, hstop, hread⟩ := readToken_of_token hstep
    have hscans := ih (before ++ front) hstop.symm
    rw [hmore, hstop] at hscans
    exact .token hread hscans
  | case4 position text error rest hstep =>
    subst hposition
    have hread := readToken_eq marker before text
    simp only [hstep] at hread
    exact .failed hread

theorem Cursor.scans_scanAll (marker : Char) (text : List Char) :
    Scans marker (.ofText text) (scanAll marker text) :=
  scans_scanFrom marker [] text

/-- **A scanner can be run symbol by symbol**, from wherever it stands. -/
theorem Scanner.scanToken_eq_readToken (marker : Char) (before text : List Char) (halted : Bool) :
    let cursor : Cursor := { source := before ++ text, position := .after before }
    let scanner : Scanner := { marker, cursor, halted }
    scanner.scanToken =
      ((cursor.readToken marker).1, { scanner with cursor := (cursor.readToken marker).2 }) := by
  intro cursor scanner
  have hrest : cursor.rest = text := by simp [cursor, Cursor.rest]
  have hread : cursor.readToken marker = _ := Cursor.readToken_eq marker before text
  have hstep : scanStep scanner.marker scanner.cursor.position scanner.cursor.rest =
      scanStep marker cursor.position text := by
    rw [hrest]
  rw [hread, scanToken, hstep]
  cases scanStep marker cursor.position text <;> rfl

end StyleTemplate
