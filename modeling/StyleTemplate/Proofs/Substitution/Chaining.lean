/-
  **One pass for each source, or one pass for all.**

  A text whose tokens all end with a terminator can be taken apart into segments
  that do not care about their neighbours: plain stretches without a marker, and
  placeholders that are read the same whatever follows them.  A pass maps each
  segment to a segment of the same sort (`pass_segments`), so passes compose
  segment by segment, and a chain of passes, one for each source, comes to the
  same text as one pass with all sources (`substituteEach_segments`).
-/
import StyleTemplate.Proofs.Source.Lookup
import StyleTemplate.Proofs.Substitution.Splicing
import StyleTemplate.Substitution.Basic

namespace StyleTemplate

/-! ### Segments -/

/-- A stretch of a text: plain, or a placeholder with what is written behind its
    marker. -/
inductive Segment where
  | plain (text : List Char)
  | placeholder (phrase : Phrase) (written : List Char)

namespace Segment

def text (marker : Char) : Segment → List Char
  | plain text => text
  | placeholder _ written => marker :: written

/-- Plain segments hold no marker, and placeholders are read the same whatever
    follows them. -/
def Closed (marker : Char) : Segment → Prop
  | plain text => marker ∉ text
  | placeholder phrase written => ∀ rest, PhraseForm marker written phrase rest

/-- The segment with its placeholder replaced by the text for its phrase, if there
    is one. -/
def replace (textFor? : Phrase → Option (List Char)) : Segment → Segment
  | plain text => plain text
  | placeholder phrase written =>
    match textFor? phrase with
    | some text => plain text
    | none => placeholder phrase written

end Segment

/-- The text that segments make up. -/
def segmentsText (marker : Char) (segments : List Segment) : List Char :=
  segments.flatMap (Segment.text marker)

theorem interleave_append_cons (front gap : List Char) (gaps texts : List (List Char)) :
    interleave ((front ++ gap) :: gaps) texts = front ++ interleave (gap :: gaps) texts := by
  cases texts <;> simp [interleave]

/-- Closed segments are scanned as such: the tokens are the placeholders, and
    putting texts in their places is replacing the placeholders. -/
theorem exists_scanned_segments {marker : Char} {segments : List Segment}
    (hclosed : ∀ segment ∈ segments, segment.Closed marker) (position : Position) :
    ∃ gaps tokens, Scanned marker position (segmentsText marker segments) gaps tokens ∧
      (∀ token ∈ tokens, ∃ written, .placeholder token.toPhrase written ∈ segments) ∧
      ∀ textFor? : Phrase → Option (List Char),
        interleave gaps
            (tokens.map fun token => (textFor? token.toPhrase).getD token.raw.toList) =
          segmentsText marker (segments.map (Segment.replace textFor?)) := by
  induction segments generalizing position with
  | nil =>
    refine ⟨[[]], [], .finished List.not_mem_nil, by simp, ?_⟩
    intro textFor?
    simp [interleave, segmentsText]
  | cons segment segments ih =>
    obtain ⟨hfirst, hmore⟩ := List.forall_mem_cons.1 hclosed
    cases segment with
    | plain text =>
      obtain ⟨gaps, tokens, hscan, hmem, htexts⟩ := ih hmore (position.advanceAll text)
      obtain ⟨gap, more, rfl, hwhole⟩ := hscan.exists_append hfirst
      refine ⟨(text ++ gap) :: more, tokens, hwhole, ?_, ?_⟩
      · intro token htoken
        obtain ⟨written, hwritten⟩ := hmem token htoken
        exact ⟨written, List.mem_cons_of_mem _ hwritten⟩
      · intro textFor?
        rw [interleave_append_cons, htexts]
        rfl
    | placeholder phrase written =>
      obtain ⟨gaps, tokens, hscan, hmem, htexts⟩ := ih hmore
        ((position.advanceAll []).advanceAll (marker :: written))
      refine ⟨[] :: gaps, _ :: tokens, .token List.not_mem_nil (hfirst _) hscan, ?_, ?_⟩
      · intro token htoken
        rcases List.mem_cons.1 htoken with rfl | htoken
        · exact ⟨written, List.mem_cons_self⟩
        · obtain ⟨written', hwritten⟩ := hmem token htoken
          exact ⟨written', List.mem_cons_of_mem _ hwritten⟩
      · intro textFor?
        rw [List.map_cons, interleave, htexts]
        cases htext : textFor? phrase <;>
          simp [segmentsText, Segment.replace, Segment.text, Token.placed, htext]

/-- A scanned text whose tokens all end with a terminator is made of closed
    segments. -/
theorem Scanned.exists_segments {marker : Char} {position : Position} {text : List Char}
    {gaps : List (List Char)} {tokens : List Token} (h : Scanned marker position text gaps tokens)
    (hclosed : ∀ token ∈ tokens, token.suffix.any isTerminator = true) :
    ∃ segments, text = segmentsText marker segments ∧
      (∀ segment ∈ segments, segment.Closed marker) ∧
      ∀ phrase written, .placeholder phrase written ∈ segments →
        ∃ token ∈ tokens, token.toPhrase = phrase := by
  induction h with
  | @finished position gap hgap =>
    refine ⟨[.plain gap], by simp [segmentsText, Segment.text], ?_, by simp⟩
    intro segment hmem
    rw [List.mem_singleton.1 hmem]
    exact hgap
  | @token position gap written rest phrase gaps tokens hgap hform _ ih =>
    obtain ⟨hphrase, hmore⟩ := List.forall_mem_cons.1 hclosed
    obtain ⟨segments, rfl, hsegments, hmem⟩ := ih hmore
    refine ⟨.plain gap :: .placeholder phrase written :: segments, ?_, ?_, ?_⟩
    · simp [segmentsText, Segment.text]
    · intro segment hsegment
      rcases List.mem_cons.1 hsegment with rfl | hsegment
      · exact hgap
      · rcases List.mem_cons.1 hsegment with rfl | hsegment
        · exact hform.of_terminator hphrase
        · exact hsegments segment hsegment
    · intro phrase' written' hplaceholder
      simp only [List.mem_cons, reduceCtorEq, false_or, Segment.placeholder.injEq] at hplaceholder
      rcases hplaceholder with ⟨rfl, rfl⟩ | hplaceholder
      · exact ⟨_, List.mem_cons_self, rfl⟩
      · obtain ⟨token, htoken, heq⟩ := hmem phrase' written' hplaceholder
        exact ⟨token, List.mem_cons_of_mem _ htoken, heq⟩

/-! ### Texts for phrases -/

/-- Whether what a call gives depends only on the function and its arguments. -/
def Host.OnlyByArguments {σ : Type} (host : Host σ) : Prop :=
  ∀ id args functions functions',
    (host.call id args functions).1 = (host.call id args functions').1

theorem resolve_of_onlyByArguments {σ : Type} {host : Host σ} (h : host.OnlyByArguments)
    (value : Value) (args : List String) (suffix : Option Char) (functions functions' : σ) :
    (resolve host value args suffix functions).1 =
      (resolve host value args suffix functions').1 := by
  cases value with
  | function id =>
    have hcall := h id args functions functions'
    rcases hfirst : host.call id args functions with ⟨result, after⟩
    rcases hsecond : host.call id args functions' with ⟨result', after'⟩
    obtain rfl : result = result' := by simpa [hfirst, hsecond] using hcall
    cases result <;> simp [resolve, hfirst, hsecond]
  | _ => rfl

variable {σ τ : Type} {p : Processor σ τ} {collapse : Bool} {functions : σ}

/-- The text that a pass puts in the place of a placeholder, if it replaces it. -/
def textFor? (p : Processor σ τ) (sources : List Source) (collapse : Bool) (functions : σ)
    (phrase : Phrase) : Option (List Char) :=
  if phrase.escape then
    if collapse then some (p.options.marker :: phrase.suffix.toList) else none
  else
    match lookup? phrase.path sources with
    | none => none
    | some (_, value) =>
      match (resolve p.host value phrase.args phrase.suffix functions).1 with
      | .ok text => some text.toList
      | .error _ => none

/-- Whether a phrase that some source has a value for resolves, and to a text
    without a marker. -/
def Resolves (p : Processor σ τ) (sources : List Source) (functions : σ) (phrase : Phrase) :
    Prop :=
  phrase.escape = false → ∀ source value, lookup? phrase.path sources = some (source, value) →
    ∃ text, (resolve p.host value phrase.args phrase.suffix functions).1 = .ok text ∧
      p.options.marker ∉ text.toList

theorem StandIn.eq_textFor? {sources : List Source} {token : Token} {before after : σ}
    {text : List Char} (hhost : p.host.OnlyByArguments)
    (h : StandIn p sources collapse token before text after) (functions : σ) :
    text = (textFor? p sources collapse functions token.toPhrase).getD token.raw.toList := by
  cases h with
  | escapeKept hescape hcollapse => simp [textFor?, hescape, hcollapse]
  | escapeCollapsed hescape hcollapse => simp [textFor?, hescape, hcollapse]
  | notFound hescape hlookup => simp [textFor?, hescape, hlookup]
  | @failed _ value _ _ hescape hlookup hresolve =>
    have hsame := resolve_of_onlyByArguments hhost value token.args token.suffix functions before
    rw [hresolve] at hsame
    simp [textFor?, hescape, hlookup, hsame]
  | @resolved _ value _ _ hescape hlookup hresolve =>
    have hsame := resolve_of_onlyByArguments hhost value token.args token.suffix functions before
    rw [hresolve] at hsame
    simp [textFor?, hescape, hlookup, hsame]

theorem StandIns.eq_map_textFor? {sources : List Source} {tokens : List Token} {before after : σ}
    {texts : List (List Char)} (hhost : p.host.OnlyByArguments)
    (h : StandIns p sources collapse tokens before texts after) (functions : σ) :
    texts = tokens.map fun token =>
      (textFor? p sources collapse functions token.toPhrase).getD token.raw.toList := by
  induction h with
  | nil => rfl
  | cons _ hstandIn ih => rw [List.map_cons, ← ih, ← hstandIn.eq_textFor? hhost functions]

/-- Where everything resolves, a run ends well and reports nothing. -/
theorem replaceAll_of_resolves {sources : List Source} (hhost : p.host.OnlyByArguments)
    {tokens : List Token} (h : ∀ token ∈ tokens, Resolves p sources functions token.toPhrase)
    (text : List Char) (state : RunState σ τ) :
    ∃ out after, p.replaceAll sources collapse tokens text state =
      (.ok out, ⟨after, state.reported⟩) := by
  induction tokens generalizing text state with
  | nil => exact ⟨text, state.functions, rfl⟩
  | cons token tokens ih =>
    obtain ⟨hfirst, hothers⟩ := List.forall_mem_cons.1 h
    have hmore := ih hothers
    cases hescape : token.escape with
    | true =>
      cases collapse with
      | false =>
        simp only [Processor.replaceAll, hescape, Bool.not_false, Bool.and_self, if_true]
        exact hmore text state
      | true =>
        simp only [Processor.replaceAll, hescape, Bool.not_true, Bool.and_false,
          Bool.false_eq_true, if_false, replacement?_of_escape hescape]
        exact hmore _ ⟨state.functions, state.reported⟩
    | false =>
      simp only [Processor.replaceAll, Processor.replacement?, hescape, Bool.false_and,
        Bool.false_eq_true, if_false]
      cases hlookup : lookup? token.path sources with
      | none => exact hmore text ⟨state.functions, state.reported⟩
      | some found =>
        obtain ⟨source, value⟩ := found
        obtain ⟨replacement, hresolve, _⟩ := hfirst hescape source value hlookup
        rw [resolve_of_onlyByArguments hhost _ _ _ functions state.functions] at hresolve
        rcases hrun : resolve p.host value token.args token.suffix state.functions with
          ⟨result, after⟩
        rw [hrun] at hresolve
        obtain rfl : result = .ok replacement := hresolve
        simp only [hrun]
        exact hmore _ ⟨after, state.reported⟩

/-! ### Passes over segments -/

/-- What a pass over segments needs: they are closed, and their placeholders
    resolve. -/
structure Replaceable (p : Processor σ τ) (sources : List Source) (functions : σ)
    (segments : List Segment) : Prop where
  closed : ∀ segment ∈ segments, segment.Closed p.options.marker
  resolves : ∀ phrase written, .placeholder phrase written ∈ segments →
    Resolves p sources functions phrase

/-- **A pass maps each segment on its own.** -/
theorem pass_segments {sources : List Source} {segments : List Segment}
    (hhost : p.host.OnlyByArguments) (h : Replaceable p sources functions segments)
    (hnormal : normalize (segmentsText p.options.marker segments) =
      segmentsText p.options.marker segments)
    (state : RunState σ τ) :
    ∃ after, p.pass sources collapse (segmentsText p.options.marker segments) state =
      (.ok (segmentsText p.options.marker
        (segments.map (Segment.replace (textFor? p sources collapse functions)))),
        ⟨after, state.reported⟩) := by
  obtain ⟨gaps, tokens, hscan, hmem, htexts⟩ := exists_scanned_segments h.closed (.after [])
  have htokens : ∀ token ∈ tokens.reverse, Resolves p sources functions token.toPhrase := by
    intro token htoken
    obtain ⟨written, hwritten⟩ := hmem token (List.mem_reverse.1 htoken)
    exact h.resolves token.toPhrase written hwritten
  obtain ⟨out, after, hrun⟩ := replaceAll_of_resolves hhost htokens
    (segmentsText p.options.marker segments) state
  obtain ⟨texts, hstand, rfl⟩ := hscan.replaceAll_ok hrun
  have htext : scanAll p.options.marker (normalize (segmentsText p.options.marker segments)) =
      .ok tokens := by
    rw [hnormal]
    exact scanFrom_eq_ok_iff.2 ⟨gaps, hscan⟩
  refine ⟨after, ?_⟩
  rw [pass_of_ok htext, hnormal, hrun, hstand.eq_map_textFor? hhost functions, htexts,
    List.nil_append]

/-! ### Chains of passes -/

theorem Resolves.head {source : Source} {more : List Source} {phrase : Phrase}
    (h : Resolves p (source :: more) functions phrase) : Resolves p [source] functions phrase := by
  intro hescape source' value hlookup
  exact h hescape source' value (by rw [lookup?_cons, hlookup]; rfl)

/-- What a pass with the first source leaves in place is left to the others. -/
theorem Resolves.tail {source : Source} {more : List Source} {phrase : Phrase}
    (h : Resolves p (source :: more) functions phrase)
    (hleft : textFor? p [source] false functions phrase = none) :
    Resolves p more functions phrase := by
  intro hescape source' value hlookup
  cases hfirst : lookup? phrase.path [source] with
  | none => exact h hescape source' value (by rw [lookup?_cons, hfirst, hlookup]; rfl)
  | some found =>
    obtain ⟨text, hresolve, _⟩ := h.head hescape found.1 found.2 hfirst
    simp [textFor?, hescape, hfirst, hresolve] at hleft

theorem Resolves.not_mem_of_textFor? {sources : List Source} {phrase : Phrase}
    (h : Resolves p sources functions phrase) {text : List Char}
    (htext : textFor? p sources false functions phrase = some text) :
    p.options.marker ∉ text := by
  unfold textFor? at htext
  cases hescape : phrase.escape with
  | true => simp [hescape] at htext
  | false =>
    cases hlookup : lookup? phrase.path sources with
    | none => simp [hescape, hlookup] at htext
    | some found =>
      obtain ⟨replacement, hresolve, hmarker⟩ := h hescape found.1 found.2 hlookup
      simp only [hescape, hlookup, hresolve, Bool.false_eq_true, if_false,
        Option.some.injEq] at htext
      exact htext ▸ hmarker

/-- One pass for the first source and then the others replace what one pass with
    all of them replaces, and by the same text. -/
theorem textFor?_cons {source : Source} {more : List Source} {phrase : Phrase}
    (h : Resolves p (source :: more) functions phrase) :
    textFor? p (source :: more) true functions phrase =
      (textFor? p [source] false functions phrase).or
        (textFor? p more true functions phrase) := by
  cases hescape : phrase.escape with
  | true => simp [textFor?, hescape]
  | false =>
    cases hfirst : lookup? phrase.path [source] with
    | none => simp [textFor?, hescape, lookup?_cons phrase.path source more, hfirst]
    | some found =>
      obtain ⟨text, hresolve, _⟩ := h.head hescape found.1 found.2 hfirst
      simp [textFor?, hescape, lookup?_cons phrase.path source more, hfirst, hresolve]

namespace Segment

theorem replace_replace (first second : Phrase → Option (List Char)) (segment : Segment) :
    (segment.replace first).replace second =
      segment.replace fun phrase => (first phrase).or (second phrase) := by
  cases segment with
  | plain text => rfl
  | placeholder phrase written =>
    cases hfirst : first phrase <;> simp [replace, hfirst]

theorem replace_congr {first second : Phrase → Option (List Char)} {segment : Segment}
    (h : ∀ phrase written, segment = placeholder phrase written → first phrase = second phrase) :
    segment.replace first = segment.replace second := by
  cases segment with
  | plain text => rfl
  | placeholder phrase written => simp only [replace, h phrase written rfl]

theorem Closed.replace {marker : Char} {segment : Segment}
    {textFor? : Phrase → Option (List Char)} (h : segment.Closed marker)
    (htext : ∀ phrase written text, segment = placeholder phrase written →
      textFor? phrase = some text → marker ∉ text) :
    (segment.replace textFor?).Closed marker := by
  cases segment with
  | plain text => exact h
  | placeholder phrase written =>
    cases hphrase : textFor? phrase with
    | none => simpa only [Segment.replace, hphrase] using h
    | some text =>
      simp only [Segment.replace, hphrase]
      exact htext phrase written text rfl hphrase

theorem eq_placeholder_of_replace {textFor? : Phrase → Option (List Char)} {segment : Segment}
    {phrase : Phrase} {written : List Char}
    (h : segment.replace textFor? = placeholder phrase written) :
    segment = placeholder phrase written ∧ textFor? phrase = none := by
  cases segment with
  | plain text => simp [replace] at h
  | placeholder phrase' written' =>
    cases hphrase : textFor? phrase' with
    | none =>
      simp only [replace, hphrase, placeholder.injEq] at h
      obtain ⟨rfl, rfl⟩ := h
      exact ⟨rfl, hphrase⟩
    | some text => simp [replace, hphrase] at h

end Segment

namespace Replaceable

variable {source : Source} {more : List Source} {segments : List Segment}

theorem head (h : Replaceable p (source :: more) functions segments) :
    Replaceable p [source] functions segments where
  closed := h.closed
  resolves phrase written hmem := (h.resolves phrase written hmem).head

/-- What a pass with the first source leaves can be handed to the others. -/
theorem tail (h : Replaceable p (source :: more) functions segments) :
    Replaceable p more functions
      (segments.map (Segment.replace (textFor? p [source] false functions))) where
  closed := by
    intro segment hmem
    obtain ⟨before, hbefore, rfl⟩ := List.mem_map.1 hmem
    refine (h.closed before hbefore).replace ?_
    rintro phrase written text rfl htext
    exact (h.head.resolves phrase written hbefore).not_mem_of_textFor? htext
  resolves := by
    intro phrase written hmem
    obtain ⟨before, hbefore, heq⟩ := List.mem_map.1 hmem
    obtain ⟨rfl, hleft⟩ := Segment.eq_placeholder_of_replace heq
    exact (h.resolves phrase written hbefore).tail hleft

theorem map_replace_map_replace (h : Replaceable p (source :: more) functions segments) :
    (segments.map (Segment.replace (textFor? p [source] false functions))).map
        (Segment.replace (textFor? p more true functions)) =
      segments.map (Segment.replace (textFor? p (source :: more) true functions)) := by
  rw [List.map_map]
  refine List.map_congr_left fun segment hmem => ?_
  rw [Function.comp_apply, Segment.replace_replace]
  refine Segment.replace_congr ?_
  rintro phrase written rfl
  exact (textFor?_cons (h.resolves phrase written hmem)).symm

end Replaceable

/-- The texts that a chain of passes hands from one pass to the next. -/
def Processor.textsBetween (p : Processor σ τ) :
    List Source → List Char → RunState σ τ → List (List Char)
  | source :: next :: more, text, state =>
    match p.pass [source] false text state with
    | (.ok text, state) => text :: p.textsBetween (next :: more) text state
    | (.error _, _) => []
  | _, _, _ => []

/-- **A chain of passes maps each segment as one pass with all sources does.** -/
theorem substituteEach_segments {sources : List Source} {segments : List Segment}
    (hhost : p.host.OnlyByArguments) (h : Replaceable p sources functions segments)
    (hnormal : normalize (segmentsText p.options.marker segments) =
      segmentsText p.options.marker segments)
    (state : RunState σ τ)
    (hbetween : ∀ text ∈ p.textsBetween sources (segmentsText p.options.marker segments) state,
      normalize text = text) :
    ∃ after, p.substituteEach sources (segmentsText p.options.marker segments) state =
      (.ok (segmentsText p.options.marker
        (segments.map (Segment.replace (textFor? p sources true functions)))),
        ⟨after, state.reported⟩) := by
  induction sources generalizing segments state with
  | nil => exact pass_segments hhost h hnormal state
  | cons source more ih =>
    cases more with
    | nil => exact pass_segments hhost h hnormal state
    | cons next more =>
      obtain ⟨after, hpass⟩ := @pass_segments _ _ p false _ _ _ hhost h.head hnormal state
      rw [Processor.textsBetween, hpass] at hbetween
      obtain ⟨hnormal', hbetween'⟩ := List.forall_mem_cons.1 hbetween
      obtain ⟨last, hrest⟩ := ih h.tail hnormal' ⟨after, state.reported⟩ hbetween'
      refine ⟨last, ?_⟩
      rw [Processor.substituteEach, hpass]
      · dsimp only
        rw [hrest, h.map_replace_map_replace]
      · simp

/-- **One pass for each source and one pass for all of them agree** on a text whose
    tokens all end with a terminator, provided that values do not bring in markers
    and that no text between two passes has another normal form.  Both succeed and
    report nothing, whatever the marker. -/
theorem substituteEach_eq_substitute (p : Processor σ τ) (sources : List Source)
    {text : List Char} {tokens : List Token} (state state' : RunState σ τ)
    (hnormal : normalize text = text)
    (hscan : scanAll p.options.marker text = .ok tokens)
    (hterminated : ∀ token ∈ tokens, token.suffix.any isTerminator = true)
    (hhost : p.host.OnlyByArguments)
    (hvalues : ∀ token ∈ tokens, token.escape = false →
      ∀ source value, lookup? token.path sources = some (source, value) →
        ∃ replacement,
          (resolve p.host value token.args token.suffix state.functions).1 = .ok replacement ∧
          p.options.marker ∉ replacement.toList)
    (hbetween : ∀ between ∈ p.textsBetween sources text state, normalize between = between) :
    ∃ out functions functions',
      p.substituteEach sources text state = (.ok out, ⟨functions, state.reported⟩) ∧
      p.substitute sources text state' = (.ok out, ⟨functions', state'.reported⟩) := by
  obtain ⟨gaps, hscanned⟩ := exists_scanned hscan
  obtain ⟨segments, rfl, hclosed, htokens⟩ := hscanned.exists_segments hterminated
  have hreplaceable : Replaceable p sources state.functions segments := by
    refine ⟨hclosed, ?_⟩
    intro phrase written hmem
    obtain ⟨token, htoken, rfl⟩ := htokens phrase written hmem
    exact hvalues token htoken
  obtain ⟨functions, heach⟩ := substituteEach_segments hhost hreplaceable hnormal state hbetween
  obtain ⟨functions', hone⟩ := pass_segments hhost hreplaceable hnormal state'
  exact ⟨_, functions, functions', heach, hone⟩

/-- The second source gives its value first, an escape with white space in it stays
    until the last pass, and the first source's function hides a null. -/
theorem substituteEach_eq_substitute_two :
    let p : Processor Nat Unit := {
      options := {}
      host := ⟨fun _ _ calls => (some (.string "x"), calls + 1)⟩
      sink := .null }
    let sources : List Source :=
      [⟨none, [("a", .function 0)]⟩, ⟨none, [("b", .string "y"), ("a", .null)]⟩]
    let text := ['$', 'b', ':', '$', '$', ' ', ';', '$', 'a', ';']
    ∃ out functions functions',
      p.substituteEach sources text ⟨0, ()⟩ = (.ok out, ⟨functions, ()⟩) ∧
      p.substitute sources text ⟨5, ()⟩ = (.ok out, ⟨functions', ()⟩) := by
  intro p sources text
  have hscan : scanAll '$' text = .ok [
      ⟨⟨["b"], [], some ':', false⟩, ⟨0, 0, 0⟩, ⟨3, 3, 3⟩, "$b:"⟩,
      ⟨⟨["$"], [], some ';', true⟩, ⟨3, 3, 3⟩, ⟨7, 7, 7⟩, "$$ ;"⟩,
      ⟨⟨["a"], [], some ';', false⟩, ⟨7, 7, 7⟩, ⟨10, 10, 10⟩, "$a;"⟩] := by
    decide +kernel
  have hbetween : p.textsBetween sources text ⟨0, ()⟩ =
      [['$', 'b', ':', '$', '$', ' ', ';', 'x', ';']] := by
    decide +kernel
  refine substituteEach_eq_substitute p sources ⟨0, ()⟩ ⟨5, ()⟩ (by decide +kernel) hscan
    (by simp [isTerminator]) (fun _ _ _ _ => rfl) ?_ ?_
  · intro token htoken hescape source value hlookup
    simp only [List.mem_cons, List.not_mem_nil, or_false] at htoken
    rcases htoken with rfl | rfl | rfl
    · obtain ⟨rfl, rfl⟩ : _ = source ∧ Value.string "y" = value := by
        simpa [lookup?, sources, Source.find?, Source.get?, Entries.get?, Value.walk?] using hlookup
      exact ⟨"y:", by decide +kernel, by simp [p]⟩
    · simp at hescape
    · obtain ⟨rfl, rfl⟩ : _ = source ∧ Value.function 0 = value := by
        simpa [lookup?, sources, Source.find?, Source.get?, Entries.get?, Value.walk?] using hlookup
      exact ⟨"x;", by decide +kernel, by simp [p]⟩
  · rw [hbetween]
    intro between hmem
    rw [List.mem_singleton.1 hmem]
    decide +kernel

end StyleTemplate
