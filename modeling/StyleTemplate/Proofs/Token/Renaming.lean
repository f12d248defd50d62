/-
  **Any marker will do.**

  The grammar asks two things of a symbol: of which class it is, and whether it is the
  marker.  A symbol without a class (`IsPlain`) is the marker or mere text, and no more.
  So when one such symbol takes the place of another, in the text and as the marker,
  every reader reads as before (`Phrase.read_renamed`), although the two may take up
  different numbers of bytes and units.  Only in the old text the new marker must not
  occur, since it would turn into a marker from mere text.
-/
import Mathlib.Data.Nat.Init
import StyleTemplate.Proofs.Token.Failure

namespace StyleTemplate

/-! ### Symbols in the place of others -/

/-- A symbol that the grammar knows only as a marker or as text. -/
structure IsPlain (c : Char) : Prop where
  name : isNameSymbol c = false
  white : isWhite c = false
  quote : isQuote c = false
  terminator : isTerminator c = false
  other : c ∉ ['\\', '(', ')', ',']

/-- The symbol `q` in the place of `p`. -/
def renamed (p q c : Char) : Char :=
  if c = p then q else c

section Renamed

variable {p q : Char}

@[simp] theorem renamed_self : renamed p q p = q := if_pos rfl

theorem renamed_of_ne {c : Char} (h : c ≠ p) : renamed p q c = c := if_neg h

/-- What does not tell the two symbols apart does not tell the texts apart. -/
theorem apply_renamed {cls : Char → Bool} (h : cls p = cls q) :
    cls ∘ renamed p q = cls := by
  funext c
  by_cases hc : c = p
  · rw [hc, Function.comp_apply, renamed_self, h]
  · rw [Function.comp_apply, renamed_of_ne hc]

theorem renamed_of_class {cls : Char → Bool} (h : cls p = false) {c : Char} (hc : cls c = true) :
    renamed p q c = c := by
  apply renamed_of_ne
  rintro rfl
  exact absurd hc (by simp [h])

theorem map_renamed_of_class {cls : Char → Bool} (h : cls p = false) {text : List Char}
    (hall : ∀ c ∈ text, cls c = true) : text.map (renamed p q) = text := by
  have hmap : text.map (renamed p q) = text.map id :=
    List.map_congr_left fun c hc => renamed_of_class h (hall c hc)
  rw [hmap, List.map_id]

theorem takeWhile_renamed {cls : Char → Bool} (h : cls p = cls q) (text : List Char) :
    (text.map (renamed p q)).takeWhile cls = (text.takeWhile cls).map (renamed p q) := by
  rw [List.takeWhile_map, apply_renamed h]

theorem dropWhile_renamed {cls : Char → Bool} (h : cls p = cls q) (text : List Char) :
    (text.map (renamed p q)).dropWhile cls = (text.dropWhile cls).map (renamed p q) := by
  rw [List.dropWhile_map, apply_renamed h]

/-- A symbol that has a meaning is not one of the two, and takes no other's place. -/
theorem renamed_beq_of_mem (hp : IsPlain p) (hq : IsPlain q) {d : Char}
    (hd : isQuote d = true ∨ d ∈ ['\\', '(', ')', ',']) (c : Char) :
    (renamed p q c == d) = (c == d) := by
  have hne : ∀ s, IsPlain s → (s == d) = false := by
    intro s hs
    rw [beq_eq_false_iff_ne]
    rintro rfl
    rcases hd with hd | hd
    · exact absurd hd (by simp [hs.quote])
    · exact hs.other hd
  have h : (· == d) ∘ renamed p q = (· == d) :=
    apply_renamed ((hne p hp).trans (hne q hq).symm)
  exact congrFun h c

end Renamed

/-! ### Readers -/

/-- A reading of the text in which `q` has taken the place of `p`; `value` is what becomes of
    what is read. -/
def Reading.renamed {ε α : Type} (p q : Char) (value : α → α) : Reading ε α → Reading ε α
  | .ok (a, rest) => .ok (value a, rest.map (StyleTemplate.renamed p q))
  | .error (fault, rest) => .error (fault, rest.map (StyleTemplate.renamed p q))

section Readers

variable {p q : Char} (hp : IsPlain p) (hq : IsPlain q)

include hp hq

theorem skipWhite_renamed (text : List Char) :
    skipWhite (text.map (renamed p q)) = (skipWhite text).map (renamed p q) :=
  dropWhile_renamed (hp.white.trans hq.white.symm) text

theorem trimEnd_renamed (text : List Char) :
    trimEnd (text.map (renamed p q)) = (trimEnd text).map (renamed p q) := by
  rw [trimEnd, ← List.map_reverse, dropWhile_renamed (hp.white.trans hq.white.symm),
    ← List.map_reverse, trimEnd]

theorem readWhite_renamed (text : List Char) :
    readWhite (text.map (renamed p q)) =
      ((readWhite text).1, (readWhite text).2.map (renamed p q)) := by
  cases text with
  | nil => rfl
  | cons c text =>
    have hclass := congrFun (apply_renamed (hp.white.trans hq.white.symm)) c
    rw [Function.comp_apply] at hclass
    rw [List.map_cons, readWhite, readWhite, hclass]
    cases hc : isWhite c with
    | true => simp [renamed_of_class hp.white hc]
    | false => simp

theorem readSuffix_renamed (text : List Char) :
    readSuffix (text.map (renamed p q)) =
      ((readSuffix text).1, (readSuffix text).2.map (renamed p q)) := by
  rw [readSuffix, readSuffix, skipWhite_renamed hp hq]
  cases skipWhite text with
  | nil => exact readWhite_renamed hp hq text
  | cons c behind =>
    have hclass := congrFun (apply_renamed (hp.terminator.trans hq.terminator.symm)) c
    rw [Function.comp_apply] at hclass
    simp only [List.map_cons, hclass]
    cases hc : isTerminator c with
    | true => simp [renamed_of_class hp.terminator hc]
    | false => simpa using readWhite_renamed hp hq text

theorem readQuoted_renamed {quote : Char} (hquote : isQuote quote = true) (text : List Char) :
    readQuoted quote (text.map (renamed p q)) =
      (readQuoted quote text).map fun (body, rest) =>
        (body.map (renamed p q), rest.map (renamed p q)) := by
  have hdelimiter := renamed_beq_of_mem hp hq (.inl hquote)
  have hbackslash := renamed_beq_of_mem hp hq (d := '\\') (.inr (by simp))
  have hkept : renamed p q '\\' = '\\' := beq_iff_eq.1 (hbackslash '\\')
  -- a backslash with nothing behind it is no pair afterwards either
  have hsingle : ∀ {c : Char} {text : List Char},
      (∀ d more, c = '\\' → text = d :: more → False) →
      ∀ d more, renamed p q c = '\\' → text.map (renamed p q) = d :: more → False := by
    intro c text hpair d more hc hmore
    obtain ⟨d', more', rfl, -, -⟩ := List.map_eq_cons_iff.1 hmore
    rw [← beq_iff_eq, hbackslash, beq_iff_eq] at hc
    exact hpair d' more' hc rfl
  fun_induction readQuoted quote text with
  | case1 => rfl
  | case2 c text ih =>
    rw [List.map_cons, List.map_cons, hkept, readQuoted, ih, hdelimiter, hbackslash]
    cases readQuoted quote text with
    | none => rfl
    | some read => cases c == quote || c == '\\' <;> simp [hkept]
  | case3 c text hpair hc =>
    rw [List.map_cons, readQuoted.eq_3 _ _ _ (hsingle hpair), hdelimiter, if_pos hc]
    rfl
  | case4 c text hpair hc ih =>
    rw [List.map_cons, readQuoted.eq_3 _ _ _ (hsingle hpair), hdelimiter, if_neg hc, ih]
    cases readQuoted quote text <;> rfl

theorem readArgument_renamed (text : List Char) :
    readArgument (text.map (renamed p q)) =
      (readArgument text).renamed p q (String.map (renamed p q)) := by
  have hbare : isBareArgument p = isBareArgument q := by
    have hcomma : ∀ s, IsPlain s → isBareArgument s = true := by
      intro s hs
      have hother := hs.other
      simp only [List.mem_cons, not_or] at hother
      simp [isBareArgument, hother]
    rw [hcomma p hp, hcomma q hq]
  rw [readArgument, readArgument, skipWhite_renamed hp hq]
  cases skipWhite text with
  | nil => rfl
  | cons c behind =>
    have hclass := congrFun (apply_renamed (hp.quote.trans hq.quote.symm)) c
    rw [Function.comp_apply] at hclass
    simp only [List.map_cons, hclass]
    cases hc : isQuote c with
    | true =>
      rw [renamed_of_class hp.quote hc, readQuoted_renamed hp hq hc]
      cases readQuoted c behind with
      | none => rfl
      | some read => simp [Reading.renamed, ← String.toList_inj]
    | false =>
      rw [← List.map_cons, takeWhile_renamed hbare, dropWhile_renamed hbare,
        trimEnd_renamed hp hq]
      cases htrim : trimEnd ((c :: behind).takeWhile isBareArgument) with
      | nil => simp [Reading.renamed]
      | cons d more => simp [Reading.renamed, ← String.toList_inj]

/-- What follows white space keeps its meaning, if it has one. -/
theorem skipWhite_renamed_of_cons {d : Char} (hd : d ∈ ['\\', '(', ')', ','])
    {text behind : List Char} (h : skipWhite text = d :: behind) :
    skipWhite (text.map (renamed p q)) = d :: behind.map (renamed p q) := by
  have hkept : renamed p q d = d := by
    apply renamed_of_ne
    rintro rfl
    exact hp.other hd
  rw [skipWhite_renamed hp hq, h, List.map_cons, hkept]

theorem skipWhite_renamed_ne {d : Char} (hd : d ∈ ['\\', '(', ')', ','])
    {text : List Char} (h : ∀ behind, skipWhite text ≠ d :: behind) (behind : List Char) :
    skipWhite (text.map (renamed p q)) ≠ d :: behind := by
  rw [skipWhite_renamed hp hq]
  intro heq
  obtain ⟨c, more, htext, hc, -⟩ := List.map_eq_cons_iff.1 heq
  rw [← beq_iff_eq, renamed_beq_of_mem hp hq (.inr hd), beq_iff_eq] at hc
  exact h more (hc ▸ htext)

theorem readArguments_renamed (text : List Char) :
    readArguments (text.map (renamed p q)) =
      (readArguments text).renamed p q (List.map (String.map (renamed p q))) := by
  have hok : ∀ {text left argument}, readArgument text = .ok (argument, left) →
      readArgument (text.map (renamed p q)) =
        .ok (argument.map (renamed p q), left.map (renamed p q)) := by
    intro text left argument hread
    rw [readArgument_renamed hp hq, hread]
    rfl
  fun_induction readArguments text with
  | case1 text fault rest hread =>
    exact readArguments_of_fault (by rw [readArgument_renamed hp hq, hread]; rfl)
  | case2 text argument left hread behind hskip more rest hmore ih =>
    have hcomma := skipWhite_renamed_of_cons hp hq (by simp) hskip
    rw [readArguments_of_comma (hok hread) hcomma, ih, hmore]
    rfl
  | case3 text argument left hread behind hskip fault hmore ih =>
    have hcomma := skipWhite_renamed_of_cons hp hq (by simp) hskip
    rw [readArguments_of_comma (hok hread) hcomma, ih, hmore]
    rfl
  | case4 text argument left hread behind hskip =>
    have hclose := skipWhite_renamed_of_cons hp hq (by simp) hskip
    exact readArguments_of_parenthesis (hok hread) hclose
  | case5 text argument left hread hcomma hclose =>
    have hcomma' := skipWhite_renamed_ne hp hq (by simp) hcomma
    have hclose' := skipWhite_renamed_ne hp hq (by simp) hclose
    rw [readArguments_of_open (hok hread) hcomma' hclose', skipWhite_renamed hp hq]
    rfl

theorem readParameters_renamed (text : List Char) :
    readParameters (text.map (renamed p q)) =
      (readParameters text).renamed p q (List.map (String.map (renamed p q))) := by
  fun_cases readParameters text with
  | case1 inside hskip behind hinside =>
    have hopen := skipWhite_renamed_of_cons hp hq (by simp) hskip
    have hclose := skipWhite_renamed_of_cons hp hq (by simp) hinside
    simp only [readParameters, hopen, hclose]
    rfl
  | case2 inside hskip hinside =>
    have hopen := skipWhite_renamed_of_cons hp hq (by simp) hskip
    have hclose := skipWhite_renamed_ne hp hq (by simp) hinside
    simp only [readParameters, hopen]
    rw [skipWhite_renamed hp hq, readArguments_renamed hp hq]
  | case3 hskip =>
    have hopen := skipWhite_renamed_ne hp hq (by simp) hskip
    rw [readParameters]
    split
    next inside heq => exact absurd heq (hopen inside)
    next => rfl

/-- The phrase with one marker for another: the path of an escape is its marker, and
    arguments may hold it as text. -/
def Phrase.renamed (p q : Char) (phrase : Phrase) : Phrase :=
  { phrase with
    path := if phrase.escape then [q.toString] else phrase.path
    args := phrase.args.map (String.map (StyleTemplate.renamed p q)) }

theorem Phrase.readNamed_renamed (text : List Char) :
    Phrase.readNamed (text.map (StyleTemplate.renamed p q)) =
      (Phrase.readNamed text).renamed p q (Phrase.renamed p q) := by
  have hname : (text.takeWhile isNameSymbol).map (StyleTemplate.renamed p q) =
      text.takeWhile isNameSymbol :=
    map_renamed_of_class hp.name (List.all_eq_true.1 List.all_takeWhile)
  rw [readNamed, readNamed, takeWhile_renamed (hp.name.trans hq.name.symm),
    dropWhile_renamed (hp.name.trans hq.name.symm), hname, readParameters_renamed hp hq]
  dsimp only
  split
  next => rfl
  next =>
    split
    next => rfl
    next =>
      cases readParameters (text.dropWhile isNameSymbol) with
      | error fault => rfl
      | ok read =>
        simp only [Reading.renamed, readSuffix_renamed hp hq]
        rfl

/-- **One marker is read like another**, if the text does not hold the new one already. -/
theorem Phrase.read_renamed {text : List Char} (hfresh : q ∉ text.head?) :
    Phrase.read q (text.map (StyleTemplate.renamed p q)) =
      (Phrase.read p text).renamed p q (Phrase.renamed p q) := by
  cases text with
  | nil => exact readNamed_renamed hp hq []
  | cons c text =>
    have hcq : c ≠ q := by
      rintro rfl
      exact hfresh rfl
    rw [List.map_cons, read, read]
    by_cases hc : c = p
    · simp only [hc, renamed_self, beq_self_eq_true, if_true, readEscape, readSuffix_renamed hp hq]
      rfl
    · rw [renamed_of_ne hc, if_neg (by simpa using hcq), if_neg (by simpa using hc)]
      have hnamed := readNamed_renamed hp hq (c :: text)
      rwa [List.map_cons, renamed_of_ne hc] at hnamed

end Readers

/-! ### Scans -/

/-- Whether two stretches are the same in symbols. -/
def Extent.SameSymbols (extent extent' : Extent) : Prop :=
  extent'.start = extent.start ∧ extent'.stop = extent.stop

/-- Whether two errors are the same but for the marker, and for places that are not counted
    in symbols. -/
inductive SyntaxError.Renamed (p q : Char) : SyntaxError → SyntaxError → Prop where
  | emptyTokenName {extent extent' : Extent} :
      extent.SameSymbols extent' → Renamed p q (.emptyTokenName p extent) (.emptyTokenName q extent')
  | emptyPathSegment {name : String} {extent extent' : Extent} :
      extent.SameSymbols extent' →
      Renamed p q (.emptyPathSegment name extent) (.emptyPathSegment name extent')
  | missingArgument {name : String} {extent extent' : Extent} :
      extent.SameSymbols extent' →
      Renamed p q (.missingArgument name extent) (.missingArgument name extent')
  | unterminatedQuotedArgument {name : String} {extent extent' : Extent} :
      extent.SameSymbols extent' →
      Renamed p q (.unterminatedQuotedArgument name extent) (.unterminatedQuotedArgument name extent')
  | unterminatedArgumentList {name expected : String} {found : Option Char}
      {extent extent' : Extent} {position position' : Position} :
      extent.SameSymbols extent' → position'.symbol = position.symbol →
      Renamed p q (.unterminatedArgumentList name extent (.unexpectedInput expected found position))
        (.unterminatedArgumentList name extent'
          (.unexpectedInput expected (found.map (renamed p q)) position'))

/-- Whether two tokens are the same but for the marker, and for places that are not counted
    in symbols. -/
structure Token.Renamed (p q : Char) (token token' : Token) : Prop where
  start : token'.start.symbol = token.start.symbol
  stop : token'.stop.symbol = token.stop.symbol
  suffix : token'.suffix = token.suffix
  escape : token'.escape = token.escape
  path : token.escape = false → token'.path = token.path
  path_of_escape : token.escape = true → token.path = [p.toString] ∧ token'.path = [q.toString]
  raw : token'.raw = token.raw.map (renamed p q)
  args : token'.args = token.args.map (String.map (renamed p q))

section Scans

variable {p q : Char}

theorem SyntaxError.renamed_ofFault {start start' stop stop' : Position}
    (hstart : start'.symbol = start.symbol) (hstop : stop'.symbol = stop.symbol)
    (rest : List Char) (fault : Fault) :
    (ofFault p start stop rest fault).Renamed p q
      (ofFault q start' stop' (rest.map (StyleTemplate.renamed p q)) fault) := by
  have hextent : (Extent.between start stop).SameSymbols (.between start' stop') := ⟨hstart, hstop⟩
  match fault with
  | .emptyName => exact .emptyTokenName hextent
  | .emptySegment _ => exact .emptyPathSegment hextent
  | .arguments _ .missing => exact .missingArgument hextent
  | .arguments _ .openQuote => exact .unterminatedQuotedArgument hextent
  | .arguments _ .openList =>
    rw [ofFault, ofFault, List.head?_map]
    exact .unterminatedArgumentList hextent hstop

theorem Token.renamed_placed {written rest : List Char} {phrase : Phrase}
    (hform : PhraseForm p written phrase rest) {start start' : Position}
    (hstart : start'.symbol = start.symbol) :
    (Token.placed phrase start (p :: written)).Renamed p q
      (.placed (phrase.renamed p q) start' (q :: written.map (StyleTemplate.renamed p q))) where
  start := hstart
  stop := by simp [placed, Position.advanceAll_eq, hstart]
  suffix := rfl
  escape := rfl
  path hescape := by
    have hphrase : phrase.escape = false := hescape
    simp [placed, Phrase.renamed, hphrase]
  path_of_escape hescape := by
    cases hform with
    | escape => exact ⟨rfl, rfl⟩
    | named => simp [placed] at hescape
  raw := by simp [placed, ← String.toList_inj]
  args := rfl

theorem symbol_advanceAll_congr {position position' : Position} {text text' : List Char}
    (h : position'.symbol = position.symbol) (hlength : text'.length = text.length) :
    (position'.advanceAll text').symbol = (position.advanceAll text).symbol := by
  rw [Position.advanceAll_eq, Position.advanceAll_eq, h, hlength]

/-- A gap holds neither marker, so it stays as it is. -/
theorem map_renamed_append {gap body : List Char} (hgap : p ∉ gap) :
    (gap ++ p :: body).map (renamed p q) = gap ++ q :: body.map (renamed p q) := by
  have hkept : gap.map (renamed p q) = gap.map id :=
    List.map_congr_left fun c hc => renamed_of_ne (ne_of_mem_of_not_mem hc hgap)
  rw [List.map_append, hkept, List.map_id, List.map_cons, renamed_self]

/-- Both steps of a scan find the same, and leave the same text. -/
inductive SameStep (p q : Char) : ScanStep → ScanStep → Prop where
  | finished : SameStep p q .finished .finished
  | token {token token' : Token} {rest : List Char} :
      token.Renamed p q token' →
      SameStep p q (.token token rest) (.token token' (rest.map (renamed p q)))
  | failed {error error' : SyntaxError} {rest : List Char} :
      error.Renamed p q error' →
      SameStep p q (.failed error rest) (.failed error' (rest.map (renamed p q)))

theorem scanStep_renamed (hp : IsPlain p) (hq : IsPlain q) {position position' : Position}
    (hposition : position'.symbol = position.symbol) {text : List Char} (hfresh : q ∉ text) :
    SameStep p q (scanStep p position text) (scanStep q position' (text.map (renamed p q))) := by
  by_cases hmem : p ∈ text
  · obtain ⟨gap, body, rfl, hgap⟩ := List.eq_append_cons_of_mem hmem
    obtain ⟨hgap', -, hbody⟩ : q ∉ gap ∧ q ≠ p ∧ q ∉ body := by simpa using hfresh
    have hstart := symbol_advanceAll_congr hposition (rfl : gap.length = gap.length)
    have hread := Phrase.read_renamed hp hq fun hhead => hbody (List.mem_of_mem_head? hhead)
    rw [map_renamed_append hgap, scanStep_append hgap, scanStep_append hgap', hread]
    cases h : Phrase.read p body with
    | error answer =>
      obtain ⟨fault, rest⟩ := answer
      refine .failed (SyntaxError.renamed_ofFault hstart ?_ rest fault)
      exact symbol_advanceAll_congr hstart (by simp [consumed])
    | ok answer =>
      obtain ⟨phrase, rest⟩ := answer
      obtain ⟨written, rfl, hform⟩ := Phrase.exists_form_of_read h
      simp only [Reading.renamed, List.map_append, ← List.cons_append, consumed_append_right]
      exact .token (Token.renamed_placed hform hstart)
  · have hkept : text.map (renamed p q) = text.map id :=
      List.map_congr_left fun c hc => renamed_of_ne (ne_of_mem_of_not_mem hc hmem)
    rw [hkept, List.map_id, scanStep_of_not_mem hmem, scanStep_of_not_mem hfresh]
    exact .finished

/-- Both scans succeed with the same tokens, or both fail with the same error. -/
inductive SameScan (p q : Char) :
    Except SyntaxError (List Token) → Except SyntaxError (List Token) → Prop where
  | ok {tokens tokens' : List Token} :
      List.Forall₂ (Token.Renamed p q) tokens tokens' → SameScan p q (.ok tokens) (.ok tokens')
  | error {error error' : SyntaxError} :
      error.Renamed p q error' → SameScan p q (.error error) (.error error')

theorem SameScan.cons {token token' : Token} {result result' : Except SyntaxError (List Token)}
    (htoken : token.Renamed p q token') (h : SameScan p q result result') :
    SameScan p q (result.map (token :: ·)) (result'.map (token' :: ·)) := by
  cases h with
  | ok htokens => exact .ok (.cons htoken htokens)
  | error herror => exact .error herror

theorem scanFrom_renamed (hp : IsPlain p) (hq : IsPlain q) {position position' : Position}
    (hposition : position'.symbol = position.symbol) {text : List Char} (hfresh : q ∉ text) :
    SameScan p q (scanFrom p position text) (scanFrom q position' (text.map (renamed p q))) := by
  induction hlength : text.length using Nat.strong_induction_on
    generalizing position position' text with
  | _ n ih =>
    subst hlength
    have hsame := scanStep_renamed hp hq hposition hfresh
    generalize hstep : scanStep p position text = step at hsame
    generalize hstep' : scanStep q position' (text.map (renamed p q)) = step' at hsame
    cases hsame with
    | finished =>
      rw [scanFrom_of_finished hstep, scanFrom_of_finished hstep']
      exact .ok .nil
    | @token token token' rest htoken =>
      have hlength := scanStep_token_length hstep
      obtain ⟨gap, written, phrase, -, rfl, -, -⟩ := exists_form_of_scanStep hstep
      have hrest : q ∉ rest := fun hmem => hfresh (by simp [hmem])
      rw [scanFrom_of_token hstep, scanFrom_of_token hstep']
      exact .cons htoken (ih rest.length hlength htoken.stop hrest rfl)
    | failed herror =>
      rw [scanFrom_of_failed hstep, scanFrom_of_failed hstep']
      exact .error herror

/-- **Any marker will do.**  Of two symbols that mean nothing else to the grammar, one can
    take the place of the other as the marker of a text that does not hold it: the scan finds
    the same tokens in the same symbols, with the new marker in their texts and arguments
    where the old one was, or fails with the same error there. -/
theorem scanAll_renamed (hp : IsPlain p) (hq : IsPlain q) {text : List Char} (hfresh : q ∉ text) :
    SameScan p q (scanAll p text) (scanAll q (text.map (renamed p q))) :=
  scanFrom_renamed hp hq rfl hfresh

/-- A marker of four bytes for one of a single byte: it is doubled, and stands in a bare
    argument and behind a backslash in a quoted one. -/
theorem scanAll_renamed_wide :
    let text := ['$', '$', ' ', 'é', '$', 'f', '(', 'a', '$', ',', '"', '\\', '$', '"', ')', ';']
    let wide := ['🌀', '🌀', ' ', 'é', '🌀', 'f', '(', 'a', '🌀', ',', '"', '\\', '🌀', '"', ')', ';']
    IsPlain '$' ∧ IsPlain '🌀' ∧ '🌀' ∉ text ∧ text.map (renamed '$' '🌀') = wide ∧
      ∃ tokens tokens', scanAll '$' text = .ok tokens ∧ scanAll '🌀' wide = .ok tokens' ∧
        tokens.map (·.args) = [[], ["a$", "\\$"]] ∧
        List.Forall₂ (Token.Renamed '$' '🌀') tokens tokens' := by
  intro text wide
  have hdollar : IsPlain '$' := ⟨by decide, by decide, by decide, by decide, by decide⟩
  have hwide : IsPlain '🌀' := ⟨by decide, by decide, by decide, by decide, by decide⟩
  have hfresh : '🌀' ∉ text := by decide
  have htext : text.map (renamed '$' '🌀') = wide := by decide
  let first : Token := ⟨⟨["$"], [], some ' ', true⟩, ⟨0, 0, 0⟩, ⟨3, 3, 3⟩, "$$ "⟩
  let second : Token :=
    ⟨⟨["f"], ["a$", "\\$"], some ';', false⟩, ⟨4, 4, 5⟩, ⟨16, 16, 17⟩, "$f(a$,\"\\$\");"⟩
  have hscan : scanAll '$' text = .ok [first, second] := by decide +kernel
  have hsame := scanAll_renamed hdollar hwide hfresh
  rw [htext, hscan] at hsame
  generalize hscan' : scanAll '🌀' wide = result at hsame
  cases hsame with
  | ok htokens => exact ⟨hdollar, hwide, hfresh, htext, _, _, hscan, rfl, rfl, htokens⟩

end Scans

end StyleTemplate
