/-
  **Where and how a scan fails.**

  An iteration over the tokens of a text that cannot be scanned gives the tokens up to
  the malformed placeholder, then its error, and no more (`Scanner.Yields`).  What
  stands in front of the malformed placeholder is a text of its own: it scans to just
  these tokens, as none of them owes anything to what follows it (`ScanFails.exists_front`).
  The error says from where to where it was read, and for each fault the text shows at
  the end of that stretch what is wrong (`SyntaxError.ShownBy`).
-/
import StyleTemplate.Proofs.Token.Failure
import StyleTemplate.Proofs.Token.Malformed

namespace StyleTemplate

/-! ### Iterating -/

namespace Scanner

/-- `s.Yields results`: the scanner gives these results one after another, and then
    none. -/
inductive Yields : Scanner → List (Except SyntaxError Token) → Prop where
  | done {s s' : Scanner} : s.next = (none, s') → Yields s []
  | result {s s' : Scanner} {result : Except SyntaxError Token}
      {results : List (Except SyntaxError Token)} :
      s.next = (some result, s') → Yields s' results → Yields s (result :: results)

/-- The scanner has met no error yet, and stands at a place in front of a text. -/
structure StandsAt (s : Scanner) (position : Position) (text : List Char) : Prop where
  halted : s.halted = false
  position : s.cursor.position = position
  rest : s.cursor.rest = text

theorem standsAt_ofText (marker : Char) (text : List Char) :
    (ofText marker text).StandsAt (.after []) text :=
  ⟨rfl, rfl, rfl⟩

theorem StandsAt.skipTo {s : Scanner} {position : Position} {front behind : List Char}
    (h : s.StandsAt position (front ++ behind)) :
    (s.skipTo behind).StandsAt (position.advanceAll front) behind := by
  have hfront : consumed s.cursor.rest behind = front := by
    rw [h.rest, consumed_append_right]
  constructor
  · exact h.halted
  · rw [Scanner.skipTo, hfront, Cursor.moveOver, h.position]
  · rw [Scanner.skipTo, hfront]
    exact Cursor.rest_moveOver h.rest

theorem next_of_halted {s : Scanner} (h : s.halted = true) : s.next = (none, s) := by
  rw [next, if_pos h]

variable {s : Scanner} {position : Position} {gap : List Char}

theorem next_of_form {written rest : List Char} {phrase : Phrase}
    (h : s.StandsAt position (gap ++ s.marker :: (written ++ rest))) (hgap : s.marker ∉ gap)
    (hform : PhraseForm s.marker written phrase rest) :
    s.next =
      (some (.ok (.placed phrase (position.advanceAll gap) (s.marker :: written))),
        s.skipTo rest) := by
  have hstep := scanStep_of_form hgap hform position
  rw [next, if_neg (by simp [h.halted]), scanToken, h.position, h.rest, hstep]

theorem next_of_fault {body rest : List Char} {fault : Fault}
    (h : s.StandsAt position (gap ++ s.marker :: body)) (hgap : s.marker ∉ gap)
    (hread : Phrase.read s.marker body = .error (fault, rest)) :
    s.next =
      (some (.error (.ofFault s.marker (position.advanceAll gap)
        ((position.advanceAll gap).advanceAll (consumed (s.marker :: body) rest)) rest fault)),
        { s.skipTo rest with halted := true }) := by
  have hstep := scanStep_append hgap position body
  rw [hread] at hstep
  rw [next, if_neg (by simp [h.halted]), scanToken, h.position, h.rest, hstep]

end Scanner

/-! ### What stands in front of a malformed placeholder -/

/-- **A text that cannot be scanned scans up to the malformed placeholder**, and an
    iteration gives the tokens found there and then the error. -/
theorem ScanFails.exists_front {marker : Char} {position : Position} {text : List Char}
    {error : SyntaxError} (h : ScanFails marker position text error) :
    ∃ front gaps tokens written fault rest, text = front ++ marker :: (written ++ rest) ∧
      Scanned marker position front gaps tokens ∧ BrokenForm marker written fault rest ∧
      error = .ofFault marker (position.advanceAll front)
        ((position.advanceAll front).advanceAll (marker :: written)) rest fault ∧
      ∀ s : Scanner, s.marker = marker → s.StandsAt position text →
        s.Yields (tokens.map .ok ++ [.error error]) := by
  induction h with
  | @malformed position gap body rest fault hgap hread =>
    obtain ⟨written, rfl, hform⟩ := Phrase.exists_brokenForm hread
    refine ⟨gap, [gap], [], written, fault, rest, rfl, .finished hgap, hform, ?_, ?_⟩
    · rw [← List.cons_append, consumed_append_right]
    · intro s hmarker hstands
      subst hmarker
      exact .result (Scanner.next_of_fault hstands hgap hread)
        (.done (Scanner.next_of_halted rfl))
  | @token position gap written rest phrase error hgap hform hmore ih =>
    obtain ⟨front, gaps, tokens, broken, fault, behind, rfl, hscan, hbroken, herror, hyields⟩ := ih
    refine ⟨gap ++ marker :: (written ++ front), gap :: gaps, _, broken, fault, behind, ?_,
      .token hgap hform.of_prefix hscan, hbroken, ?_, ?_⟩
    · simp
    · rw [herror]
      simp [Position.advanceAll_append]
    · intro s hmarker hstands
      subst hmarker
      refine .result (Scanner.next_of_form hstands hgap hform) ?_
      rw [← List.cons_append, ← List.append_assoc] at hstands
      have hbehind := hstands.skipTo
      rw [Position.advanceAll_append] at hbehind
      exact hyields _ rfl hbehind

/-! ### What the text shows -/

namespace SyntaxError

/-- An error as it is shown by the text at the end of the stretch that it concerns. -/
inductive ShownBy (marker : Char) (text : List Char) : SyntaxError → Prop where
  /-- The marker stands alone: neither a name nor a second marker follows. -/
  | emptyTokenName {extent : Extent} :
      extent.stop = extent.start + 1 → NoneNext isNameSymbol (text.drop extent.stop) →
      text[extent.stop]? ≠ some marker → ShownBy marker text (.emptyTokenName marker extent)
  /-- The stretch is all of a name, and a segment of the name is empty. -/
  | emptyPathSegment {name : String} {extent : Extent} :
      name.toList = (text.drop (extent.start + 1)).takeWhile isNameSymbol →
      [] ∈ segments name.toList → extent.stop = extent.start + 1 + name.toList.length →
      ShownBy marker text (.emptyPathSegment name extent)
  /-- The text is over, or an argument is ended before it has begun. -/
  | missingArgument {name : String} {extent : Extent} :
      extent.stop = text.length ∨ text[extent.stop]? = some ',' ∨ text[extent.stop]? = some ')' →
      ShownBy marker text (.missingArgument name extent)
  | unterminatedQuotedArgument {name : String} {extent : Extent} :
      extent.stop = text.length → ShownBy marker text (.unterminatedQuotedArgument name extent)
  /-- The text is over, or goes on with something else behind a quoted argument of the
      list. -/
  | unterminatedArgumentList {name : String} {extent : Extent} {found : Option Char} :
      found = text[extent.stop]? → (found = none ↔ extent.stop = text.length) →
      (∀ c ∈ found, isWhite c = false ∧ c ≠ ',' ∧ c ≠ ')' ∧
        ∃ blank list, (text.take extent.stop).drop (extent.start + 1) =
          name.toList ++ (blank ++ '(' :: list) ∧ Blank blank ∧ EndsQuoted list) →
      ShownBy marker text (.unterminatedArgumentList name extent
        (.unexpectedInput "')'" found (.after (text.take extent.stop))))

end SyntaxError

section Shown

variable {marker : Char} {front written rest : List Char}

/-- Where reading has stopped, the rest of the text begins. -/
theorem drop_stretch (marker : Char) (front written rest : List Char) :
    (front ++ marker :: (written ++ rest)).drop (front.length + (written.length + 1)) = rest := by
  have htext : front ++ marker :: (written ++ rest) = (front ++ marker :: written) ++ rest := by
    simp
  rw [htext]
  exact List.drop_left' (by simp)

theorem getElem?_stretch (marker : Char) (front written rest : List Char) :
    (front ++ marker :: (written ++ rest))[front.length + (written.length + 1)]? = rest.head? := by
  rw [← List.head?_drop, drop_stretch]

theorem take_stretch (marker : Char) (front written rest : List Char) :
    (front ++ marker :: (written ++ rest)).take (front.length + (written.length + 1)) =
      front ++ marker :: written := by
  have htext : front ++ marker :: (written ++ rest) = (front ++ marker :: written) ++ rest := by
    simp
  rw [htext]
  exact List.take_left' (by simp)

theorem BrokenForm.shownBy {fault : Fault} (h : BrokenForm marker written fault rest)
    (front : List Char) :
    (SyntaxError.ofFault marker (.after front)
      ((Position.after front).advanceAll (marker :: written)) rest fault).ShownBy marker
        (front ++ marker :: (written ++ rest)) := by
  have hstop : Extent.between (.after front)
      ((Position.after front).advanceAll (marker :: written)) =
      ⟨front.length, front.length + (written.length + 1), utf16Length front⟩ := by
    simp [Extent.between, Position.advanceAll_eq]
  have hnext := getElem?_stretch marker front written rest
  cases h with
  | emptyName hmarker hname =>
    rw [SyntaxError.ofFault, hstop]
    refine .emptyTokenName rfl ?_ ?_
    · rw [drop_stretch]
      exact hname
    · rw [hnext]
      exact hmarker
  | emptySegment hall hempty hname =>
    rw [SyntaxError.ofFault, hstop]
    refine .emptyPathSegment ?_ ?_ ?_
    · have hdrop := drop_stretch marker front [] (written ++ rest)
      rw [String.toList_ofList]
      dsimp only
      rw [List.length_nil, Nat.zero_add, List.nil_append] at hdrop
      rw [hdrop, takeWhile_append_of_noneNext hall hname]
    · rw [String.toList_ofList]
      exact hempty
    · rw [String.toList_ofList]
      dsimp only
      omega
  | @arguments name before written rest parts fault hname hbefore hlist =>
    cases fault with
    | missing =>
      rw [SyntaxError.ofFault, hstop]
      apply SyntaxError.ShownBy.missingArgument
      dsimp only
      rw [hnext]
      have hrest := hlist.rest_of_missing rfl
      cases rest with
      | nil =>
        left
        simp
      | cons c rest =>
        right
        have hc := hrest.of_cons
        simp only [isBareArgument, Bool.not_eq_false', Bool.or_eq_true, beq_iff_eq] at hc
        simpa using hc
    | openQuote =>
      rw [SyntaxError.ofFault, hstop]
      apply SyntaxError.ShownBy.unterminatedQuotedArgument
      obtain rfl := hlist.rest_of_openQuote rfl
      simp
    | openList =>
      have hafter : (Position.after front).advanceAll
          (marker :: (name ++ (before ++ '(' :: written))) =
            .after ((front ++ marker :: ((name ++ (before ++ '(' :: written)) ++ rest)).take
              (front.length + ((name ++ (before ++ '(' :: written)).length + 1))) := by
        rw [take_stretch, Position.after_append]
      rw [SyntaxError.ofFault, hstop, hafter]
      apply SyntaxError.ShownBy.unterminatedArgumentList
      · exact hnext.symm
      · rw [List.head?_eq_none_iff]
        dsimp only
        constructor
        · rintro rfl
          simp
        · intro hlength
          rw [← List.length_eq_zero_iff]
          simp only [List.length_append, List.length_cons] at hlength
          omega
      · intro c hc
        obtain ⟨hwhite, hbare, hquoted⟩ := hlist.endsQuoted rfl c hc
        have hother : c ≠ ',' ∧ c ≠ ')' := by simpa [isBareArgument] using hbare
        refine ⟨hwhite, hother.1, hother.2, before, written, ?_, hbefore, hquoted⟩
        dsimp only
        rw [take_stretch, String.toList_ofList]
        exact drop_stretch marker front [] _

end Shown

/-- **The error of a scan says exactly where and how the text is malformed.**  It concerns
    a stretch of the text that starts with a marker and is not empty.  In front of the
    stretch the text can be scanned, and an iteration gives the tokens found there before
    it gives the error.  At the end of the stretch the text shows what is wrong. -/
theorem scanAll_eq_error_shown {marker : Char} {text : List Char} {error : SyntaxError}
    (h : scanAll marker text = .error error) :
    (∀ cause, error ≠ .unreadable cause) ∧
      ∃ extent, error.extent? = some extent ∧
        extent.start < extent.stop ∧ extent.stop ≤ text.length ∧
        text[extent.start]? = some marker ∧
        extent.unit16 = utf16Length (text.take extent.start) ∧
        (∃ tokens, scanAll marker (text.take extent.start) = .ok tokens ∧
          (Scanner.ofText marker text).Yields (tokens.map .ok ++ [.error error])) ∧
        error.ShownBy marker text := by
  have hfails : ScanFails marker (.after []) text error := scanFrom_eq_error_iff.1 h
  obtain ⟨front, gaps, tokens, written, fault, rest, rfl, hscan, hbroken, rfl, hyields⟩ :=
    hfails.exists_front
  have hfront : (Position.after []).advanceAll front = .after front := rfl
  rw [hfront] at hyields ⊢
  have hextent := SyntaxError.extent?_ofFault marker (.after front)
    ((Position.after front).advanceAll (marker :: written)) rest fault
  constructor
  · intro cause hcause
    rw [hcause] at hextent
    simp [SyntaxError.extent?] at hextent
  · refine ⟨_, hextent, ?_, ?_, ?_, ?_, ⟨tokens, ?_, ?_⟩, hbroken.shownBy front⟩
    · simp [Extent.between, Position.advanceAll_eq]
    · simp [Extent.between, Position.advanceAll_eq]
    · simp [Extent.between]
    · simp [Extent.between]
    · rw [Extent.between, Position.after_symbol, List.take_left]
      exact scanFrom_eq_ok_iff.2 ⟨gaps, hscan⟩
    · exact hyields _ rfl (Scanner.standsAt_ofText marker _)

/-- Behind a wide symbol and a token that takes in a terminator, a list is not closed
    behind its second argument, which is quoted. -/
theorem scanAll_eq_error_shown_quoted :
    let text := ['🌀', '$', 'a', ' ', ';', '$', 'f', '(', 'b', ',', '"', 'x', '"', ' ', 'y']
    let error : SyntaxError := .unterminatedArgumentList "f" ⟨5, 14, 6⟩
      (.unexpectedInput "')'" (some 'y') ⟨14, 15, 17⟩)
    scanAll '$' text = .error error ∧ error.ShownBy '$' text ∧
      ∃ tokens, scanAll '$' ['🌀', '$', 'a', ' ', ';'] = .ok tokens ∧
        tokens.map (·.raw) = ["$a ;"] ∧
        (Scanner.ofText '$' text).Yields (tokens.map .ok ++ [.error error]) := by
  intro text error
  let token : Token := ⟨⟨["a"], [], some ';', false⟩, ⟨1, 2, 4⟩, ⟨5, 6, 8⟩, "$a ;"⟩
  have hfront : scanAll '$' ['🌀', '$', 'a', ' ', ';'] = .ok [token] := by decide +kernel
  have hscan : scanAll '$' text = .error error := by decide +kernel
  obtain ⟨-, extent, hextent, -, -, -, -, ⟨tokens, htokens, hyields⟩, hshown⟩ :=
    scanAll_eq_error_shown hscan
  obtain rfl : extent = ⟨5, 14, 6⟩ := (Option.some.inj hextent).symm
  obtain rfl := Except.ok.inj (hfront.symm.trans htokens)
  exact ⟨hscan, hshown, _, hfront, rfl, hyields⟩

end StyleTemplate
