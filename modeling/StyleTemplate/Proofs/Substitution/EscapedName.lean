/-
  **An escaped name at the end of a chain of passes.**

  The passes of a chain but the last keep escapes, and scan what they wrote once
  more.  Markers pair up from the left there, so a value that ends with a marker
  takes the first one of an escape behind it, and frees the name that was escaped.
  Where values end with an even number of markers that cannot happen: whatever is
  put in front of an escape, a scan starts a token there again (`EvenRun`).
-/
import StyleTemplate.Proofs.Source.Lookup
import StyleTemplate.Proofs.Substitution.Splicing
import StyleTemplate.Proofs.Text.EvenRun
import StyleTemplate.Proofs.Text.Normalization
import StyleTemplate.Substitution.Basic

namespace StyleTemplate

/-- The normal form takes no dollar sign away from the end of a text, and adds none. -/
theorem evenRun_normalize_iff {text : List Char} :
    EvenRun '$' (normalize text) ↔ EvenRun '$' text := by
  induction text using List.reverseRecOn with
  | nil => rfl
  | append_singleton text c ih =>
    by_cases hc : c = '$'
    · have hnormal : normalize (text ++ ['$']) = normalize text ++ ['$'] := by
        apply normalize_append
        simp
      rw [hc, hnormal, evenRun_concat_marker, evenRun_concat_marker, ih]
    · have hends : EndsApart (text ++ [c]) := ⟨c, by simp, hc⟩
      obtain ⟨d, hlast, hd⟩ := hends.normalize
      obtain ⟨front, hfront⟩ := List.getLast?_eq_some_iff.1 hlast
      rw [hfront]
      exact ⟨fun _ => evenRun_concat_of_ne hc text, fun _ => evenRun_concat_of_ne hd front⟩

/-! ### Dollar signs in a phrase -/

theorem dollar_not_mem_of_isNameSymbol {name : List Char} (h : ∀ c ∈ name, isNameSymbol c = true) :
    '$' ∉ name := by
  intro hmem
  exact absurd (h '$' hmem) (by decide)

theorem SuffixForm.dollar_not_mem {written rest : List Char} {suffix : Option Char}
    (h : SuffixForm written suffix rest) : '$' ∉ written :=
  h.not_mem (by decide) (by decide)

/-- A parameter list, if there is one, is shut by a parenthesis. -/
theorem ParametersForm.eq_nil_or_exists {written rest : List Char} {args : List String}
    (h : ParametersForm written args rest) : written = [] ∨ ∃ inside, written = inside ++ [')'] := by
  cases h with
  | none => exact .inl rfl
  | @empty before inside => exact .inr ⟨before ++ '(' :: inside, by simp⟩
  | @list before list => exact .inr ⟨before ++ '(' :: list, by simp⟩

theorem PhraseForm.evenRun {written rest : List Char} {phrase : Phrase}
    (h : PhraseForm '$' written phrase rest) : EvenRun '$' ('$' :: written) := by
  cases h with
  | @escape written _ _ hsuffix =>
    exact (evenRun_pair '$' '$').append (evenRun_of_not_mem hsuffix.dollar_not_mem)
  | @named name params written _ _ _ _ hname _ _ hparams hsuffix =>
    have hfront : EvenRun '$' ('$' :: name) := by
      have hlast := hname.isNameSymbol_of_mem _ (List.getLast_mem hname.name_ne_nil)
      rw [← List.dropLast_append_getLast hname.name_ne_nil, ← List.cons_append]
      apply evenRun_concat_of_ne
      intro heq
      rw [heq] at hlast
      exact absurd hlast (by decide)
    have hmiddle : EvenRun '$' params := by
      rcases hparams.eq_nil_or_exists with rfl | ⟨inside, rfl⟩
      · exact Nat.even_iff.2 rfl
      · exact evenRun_concat_of_ne (by decide) inside
    exact hfront.append (hmiddle.append (evenRun_of_not_mem hsuffix.dollar_not_mem))

theorem mem_of_append_cons_eq {front left right behind : List Char} {c d : Char}
    (h : left ++ c :: right = front ++ d :: behind) (hright : d ∉ right) (hne : d ≠ c) :
    c ∈ behind := by
  rcases List.append_eq_append_iff.1 h with ⟨more, rfl, hmore⟩ | ⟨more, rfl, hmore⟩
  · cases more with
    | nil => exact absurd (List.cons.inj hmore).1.symm hne
    | cons e more =>
      rw [List.cons_append, List.cons.injEq] at hmore
      rw [hmore.2] at hright
      simp at hright
  · cases more with
    | nil => exact absurd (List.cons.inj hmore).1 hne
    | cons e more =>
      rw [List.cons_append, List.cons.injEq] at hmore
      simp [hmore.2]

/-- A dollar sign within a phrase is that of an escape, or stands in parentheses,
    which are shut behind it. -/
theorem PhraseForm.closeParen_mem {front behind rest : List Char} {phrase : Phrase}
    (h : PhraseForm '$' (front ++ '$' :: behind) phrase rest) (hfront : front ≠ []) :
    ')' ∈ behind := by
  generalize hwritten : front ++ '$' :: behind = written at h
  cases h with
  | @escape written _ _ hsuffix =>
    obtain ⟨c, front, rfl⟩ := List.exists_cons_of_ne_nil hfront
    rw [List.cons_append, List.cons.injEq] at hwritten
    exact absurd (by simp [← hwritten.2]) hsuffix.dollar_not_mem
  | @named name params written _ _ _ _ hname _ _ hparams hsuffix =>
    have hdollar := dollar_not_mem_of_isNameSymbol hname.isNameSymbol_of_mem
    rcases hparams.eq_nil_or_exists with rfl | ⟨inside, rfl⟩
    · have hmem : '$' ∈ name ++ ([] ++ written) := by
        rw [← hwritten]
        simp
      simp [hdollar, hsuffix.dollar_not_mem] at hmem
    · have hsplit : (name ++ inside) ++ ')' :: written = front ++ '$' :: behind := by
        simpa using hwritten.symm
      exact mem_of_append_cons_eq hsplit hsuffix.dollar_not_mem (by decide)

/-! ### The scan up to the escape -/

/-- Whatever token of a scan is looked at, an even run stands in front of it. -/
theorem Scanned.exists_evenRun {before text : List Char} {gaps : List (List Char)}
    {tokens : List Token} (h : Scanned '$' (.after before) text gaps tokens)
    (hbefore : EvenRun '$' before) :
    ∀ token ∈ tokens, ∃ front behind, before ++ text = front ++ behind ∧
      token.start = .after front ∧ EvenRun '$' front := by
  generalize hposition : Position.after before = position at h
  induction h generalizing before with
  | finished => simp
  | @token position gap written rest phrase gaps tokens hgap hform _ ih =>
    have hfront : EvenRun '$' (before ++ gap) := hbefore.append (evenRun_of_not_mem hgap)
    intro token hmem
    rcases List.mem_cons.1 hmem with rfl | hmem
    · refine ⟨before ++ gap, '$' :: (written ++ rest), by simp, ?_, hfront⟩
      rw [Token.placed_start, ← hposition, Position.after_append]
    · obtain ⟨front, behind, htext, hstart, heven⟩ := ih (hfront.append hform.evenRun)
        (by rw [Position.after_append, Position.after_append, hposition]) token hmem
      exact ⟨front, behind, by rw [← htext]; simp, hstart, heven⟩

theorem PhraseForm.eq_of_escape {written rest name : List Char} {phrase : Phrase}
    (h : PhraseForm '$' written phrase rest) (hname : ∀ c ∈ name, isNameSymbol c = true)
    (htext : written ++ rest = '$' :: name) :
    written = ['$'] ∧ rest = name ∧ phrase = ⟨["$"], [], none, true⟩ := by
  cases h with
  | @escape written suffix _ hsuffix =>
    obtain rfl : written ++ rest = name := (List.cons.inj htext).2
    cases hsuffix with
    | @terminator blank c _ _ hc =>
      have hsymbol := hname c (by simp)
      simp [isNameSymbol_of_isTerminator hc] at hsymbol
    | @white c _ hc _ =>
      have hsymbol := hname c (by simp)
      simp [isNameSymbol_of_isWhite hc] at hsymbol
    | none => exact ⟨rfl, rfl, rfl⟩
  | @named _ params written _ _ _ _ hform hmarker =>
    obtain ⟨c, more, rfl⟩ := List.exists_cons_of_ne_nil hform.name_ne_nil
    rw [List.cons_append, List.cons_append, List.cons.injEq] at htext
    exact absurd (by simp [htext.1]) hmarker

/-- A token that starts before an escaped name ends before it, too.  It would have to
    be an escape itself to end within, and the run in front would be odd. -/
theorem PhraseForm.exists_append {gap more written rest name : List Char} {phrase : Phrase}
    (h : PhraseForm '$' written phrase rest) (hgap : '$' ∉ gap)
    (heven : EvenRun '$' (gap ++ '$' :: more)) (hname : ∀ c ∈ name, isNameSymbol c = true)
    (htext : more ++ '$' :: '$' :: name = written ++ rest) :
    ∃ more', more = written ++ more' ∧ rest = more' ++ '$' :: '$' :: name := by
  rcases List.append_eq_append_iff.1 htext with ⟨cut, rfl, hcut⟩ | hends
  · cases cut with
    | nil => exact ⟨[], by simp, by simpa using hcut.symm⟩
    | cons c cut =>
      obtain ⟨rfl, hbehind⟩ : '$' = c ∧ '$' :: name = cut ++ rest := by simpa using hcut
      by_cases hmore : more = []
      · rw [hmore, evenRun_append_iff (evenRun_of_not_mem hgap)] at heven
        exact absurd (evenRun_of_not_mem (List.not_mem_nil)) (evenRun_concat_marker.1 heven)
      · have hparen : ')' ∈ '$' :: name := by
          rw [hbehind]
          exact List.mem_append_left rest (h.closeParen_mem hmore)
        rcases List.mem_cons.1 hparen with hparen | hparen
        · exact absurd hparen (by decide)
        · exact absurd (hname _ hparen) (by decide)
  · exact hends

/-- Behind an even run an escaped name is scanned as one, whatever stands there. -/
theorem Scanned.exists_escape {position : Position} {front name : List Char}
    {gaps : List (List Char)} {tokens : List Token}
    (h : Scanned '$' position (front ++ '$' :: '$' :: name) gaps tokens)
    (hfront : EvenRun '$' front) (hname : ∀ c ∈ name, isNameSymbol c = true) :
    ∃ gaps' tokens' start, Scanned '$' position front gaps' tokens' ∧ gaps = gaps' ++ [name] ∧
      tokens = tokens' ++ [.placed ⟨["$"], [], none, true⟩ start ['$', '$']] := by
  have hdollar := dollar_not_mem_of_isNameSymbol hname
  generalize htext : front ++ '$' :: '$' :: name = text at h
  induction h generalizing front with
  | finished hgap => exact absurd (by simp [← htext]) hgap
  | @token position gap written rest phrase gaps tokens hgap hform hrest ih =>
    by_cases hmem : '$' ∈ front
    · obtain ⟨gap', more, rfl, hgap'⟩ := List.eq_append_cons_of_mem hmem
      rw [List.append_assoc, List.cons_append] at htext
      obtain ⟨rfl, hbehind⟩ := append_cons_inj_of_not_mem hgap' hgap htext
      obtain ⟨more, rfl, rfl⟩ := hform.exists_append hgap hfront hname hbehind
      rw [← List.cons_append, ← List.append_assoc,
        evenRun_append_iff ((evenRun_of_not_mem hgap).append hform.evenRun)] at hfront
      obtain ⟨gaps', tokens', start, hscan, rfl, rfl⟩ := ih hfront rfl
      exact ⟨_, _, start, .token hgap hform.of_prefix hscan, rfl, rfl⟩
    · obtain ⟨rfl, hbehind⟩ := append_cons_inj_of_not_mem hmem hgap htext
      obtain ⟨rfl, rfl, rfl⟩ := hform.eq_of_escape hname hbehind.symm
      cases hrest with
      | finished => exact ⟨[front], [], _, .finished hgap, rfl, rfl⟩
      | token => simp at hdollar

/-! ### What a pass puts in front of the escape -/

/-- Whether no value of the source is written with an odd run of dollar signs at the
    end. -/
def Source.EndsEven {σ : Type} (host : Host σ) (source : Source) : Prop :=
  ∀ path value args functions text functions', source.find? path = some value →
    resolve host value args none functions = (.ok text, functions') → EvenRun '$' text.toList

/-- A suffix ends what is written, unless nothing is. -/
theorem Value.replacement_suffix {value : Value} {c : Char} {text : String}
    (h : value.replacement (some c) = .ok text) :
    text = "" ∨ ∃ front, text.toList = front ++ [c] := by
  by_cases hnull : value = .null
  · subst hnull
    exact .inl (Except.ok.inj h).symm
  · exact .inr (value.replacement_ends hnull h)

theorem resolve_suffix {σ : Type} {host : Host σ} {value : Value} {args : List String} {c : Char}
    {functions functions' : σ} {text : String}
    (h : resolve host value args (some c) functions = (.ok text, functions')) :
    text = "" ∨ ∃ front, text.toList = front ++ [c] := by
  unfold resolve at h
  split at h
  · split at h
    · exact Value.replacement_suffix (Prod.mk.inj h).1
    · simp at h
  · exact Value.replacement_suffix (Prod.mk.inj h).1

theorem Source.EndsEven.evenRun {σ : Type} {host : Host σ} {source : Source}
    (h : source.EndsEven host) {path args : List String} {value : Value} {suffix : Option Char}
    {functions functions' : σ} {text : String} (hfind : source.find? path = some value)
    (hsuffix : suffix ≠ some '$')
    (hresolve : resolve host value args suffix functions = (.ok text, functions')) :
    EvenRun '$' text.toList := by
  cases suffix with
  | none => exact h path value args functions text functions' hfind hresolve
  | some c =>
    rcases resolve_suffix hresolve with rfl | ⟨front, htext⟩
    · exact evenRun_of_not_mem (by simp)
    · rw [htext]
      apply evenRun_concat_of_ne
      rintro rfl
      exact hsuffix rfl

variable {σ τ : Type} {p : Processor σ τ} {sources : List Source}

theorem StandIn.evenRun {token : Token} {before after : σ} {text : List Char}
    (h : StandIn p sources false token before text after)
    (hsources : ∀ source ∈ sources, source.EndsEven p.host)
    (hraw : EvenRun '$' token.raw.toList) (hsuffix : token.suffix ≠ some '$') :
    EvenRun '$' text := by
  cases h with
  | escapeKept => exact hraw
  | escapeCollapsed _ hcollapse => simp at hcollapse
  | notFound => exact hraw
  | failed => exact hraw
  | resolved _ hlookup hresolve =>
    obtain ⟨hmem, hfind⟩ := mem_of_lookup? hlookup
    exact (hsources _ hmem).evenRun hfind hsuffix hresolve

theorem PhraseForm.suffix_ne {written rest : List Char} {phrase : Phrase}
    (h : PhraseForm '$' written phrase rest) : phrase.suffix ≠ some '$' := by
  have hform : ∀ {written suffix}, SuffixForm written suffix rest → suffix ≠ some '$' := by
    rintro written suffix hsuffix rfl
    have hnot := hsuffix.dollar_not_mem
    cases hsuffix <;> simp at hnot
  cases h with
  | escape hsuffix => exact hform hsuffix
  | named _ _ _ _ hsuffix => exact hform hsuffix

theorem Scanned.evenRun_raw {position : Position} {text : List Char} {gaps : List (List Char)}
    {tokens : List Token} (h : Scanned '$' position text gaps tokens) :
    ∀ token ∈ tokens, EvenRun '$' token.raw.toList ∧ token.suffix ≠ some '$' := by
  induction h with
  | finished => simp
  | token _ hform _ ih =>
    refine List.forall_mem_cons.2 ⟨⟨?_, hform.suffix_ne⟩, ih⟩
    rw [Token.placed_raw]
    exact hform.evenRun

theorem Scanned.evenRun_interleave {position : Position} {text : List Char}
    {gaps texts : List (List Char)} {tokens : List Token}
    (h : Scanned '$' position text gaps tokens)
    (htexts : List.Forall₂ (fun _ text => EvenRun '$' text) tokens texts) :
    EvenRun '$' (interleave gaps texts) := by
  induction h generalizing texts with
  | finished hgap =>
    cases htexts
    simpa [interleave] using evenRun_of_not_mem hgap
  | token hgap _ _ ih =>
    cases htexts with
    | cons hfirst hmore =>
      rw [interleave]
      exact (evenRun_of_not_mem hgap).append (hfirst.append (ih hmore))

theorem StandIns.exists_concat {collapse : Bool} {tokens : List Token} {token : Token}
    {texts : List (List Char)} {before after : σ}
    (h : StandIns p sources collapse (tokens ++ [token]) before texts after) :
    ∃ texts' text between, texts = texts' ++ [text] ∧
      StandIn p sources collapse token before text between ∧
      StandIns p sources collapse tokens between texts' after := by
  induction tokens generalizing texts after with
  | nil =>
    cases h with
    | cons hnil hstandIn =>
      cases hnil
      exact ⟨[], _, _, rfl, hstandIn, .nil⟩
  | cons first tokens ih =>
    cases h with
    | cons hmore hfirst =>
      obtain ⟨texts', text, between, rfl, hstandIn, hstand⟩ := ih hmore
      exact ⟨_ :: texts', text, between, rfl, hstandIn, .cons hstand hfirst⟩

theorem Scanned.interleave_concat {marker : Char} {position : Position} {front : List Char}
    {gaps texts : List (List Char)} {tokens : List Token}
    (h : Scanned marker position front gaps tokens) (hlength : tokens.length = texts.length)
    (gap text : List Char) :
    interleave (gaps ++ [gap]) (texts ++ [text]) = interleave gaps texts ++ (text ++ gap) := by
  induction h generalizing texts with
  | finished =>
    obtain rfl : texts = [] := List.length_eq_zero_iff.1 hlength.symm
    simp [interleave]
  | token _ _ _ ih =>
    cases texts with
    | nil => simp at hlength
    | cons first texts =>
      simp only [List.length_cons, Nat.add_right_cancel_iff] at hlength
      simp [interleave, ih hlength]

/-- **A pass leaves an escaped name at the end as it is**, or the marker and the name
    when escapes are collapsed, and an even run in front of it. -/
theorem exists_of_pass {collapse : Bool} {front name out : List Char} {state state' : RunState σ τ}
    (hmarker : p.options.marker = '$') (hfront : EvenRun '$' front)
    (hname : ∀ c ∈ name, isNameSymbol c = true)
    (hrun : p.pass sources collapse (front ++ '$' :: '$' :: name) state = (.ok out, state')) :
    ∃ front', out = front' ++ ((if collapse then ['$'] else ['$', '$']) ++ name) ∧
      (collapse = false → (∀ source ∈ sources, source.EndsEven p.host) → EvenRun '$' front') := by
  have hbasic : ∀ c ∈ '$' :: '$' :: name, c.toNat < 0xC0 := by
    refine List.forall_mem_cons.2 ⟨by decide, List.forall_mem_cons.2 ⟨by decide, ?_⟩⟩
    intro c hc
    have hrange := toNat_of_isNameSymbol (hname c hc)
    omega
  obtain ⟨gaps, tokens, hscanned, hrun⟩ := exists_scanned_of_pass hrun
  rw [normalize_append front hbasic] at hscanned hrun
  obtain ⟨texts, hstand, rfl⟩ := hscanned.replaceAll_ok hrun
  rw [hmarker] at hscanned
  obtain ⟨gaps, tokens, start, hfrontScan, rfl, rfl⟩ :=
    hscanned.exists_escape (evenRun_normalize_iff.2 hfront) hname
  obtain ⟨texts, text, between, rfl, hescape, hstand⟩ := hstand.exists_concat
  refine ⟨interleave gaps texts, ?_, ?_⟩
  · have htext := hescape.eq_of_escape rfl
    rw [hmarker] at htext
    rw [List.nil_append, hfrontScan.interleave_concat hstand.length_eq, htext, Token.placed_raw]
    rfl
  · rintro rfl hsources
    apply hfrontScan.evenRun_interleave
    apply hstand.forall₂
    intro token hmem functions text functions' hstandIn
    obtain ⟨hraw, hsuffix⟩ := hfrontScan.evenRun_raw token hmem
    exact hstandIn.evenRun hsources hraw hsuffix

/-! ### Chains of passes -/

theorem suffix_pass_of_evenRun {front name out : List Char} {state state' : RunState σ τ}
    (hmarker : p.options.marker = '$') (hfront : EvenRun '$' front)
    (hname : ∀ c ∈ name, isNameSymbol c = true)
    (hrun : p.pass sources true (front ++ '$' :: '$' :: name) state = (.ok out, state')) :
    '$' :: name <:+ out := by
  obtain ⟨front', rfl, _⟩ := exists_of_pass hmarker hfront hname hrun
  exact List.suffix_append front' _

theorem suffix_substituteEach_of_evenRun {front name out : List Char} {state state' : RunState σ τ}
    (hmarker : p.options.marker = '$') (hfront : EvenRun '$' front)
    (hname : ∀ c ∈ name, isNameSymbol c = true)
    (hsources : ∀ source ∈ sources.dropLast, source.EndsEven p.host)
    (hrun : p.substituteEach sources (front ++ '$' :: '$' :: name) state = (.ok out, state')) :
    '$' :: name <:+ out := by
  induction sources generalizing front state with
  | nil => exact suffix_pass_of_evenRun hmarker hfront hname hrun
  | cons source more ih =>
    cases more with
    | nil => exact suffix_pass_of_evenRun hmarker hfront hname hrun
    | cons next more =>
      rw [List.dropLast_cons_cons, List.forall_mem_cons] at hsources
      rw [Processor.substituteEach] at hrun
      split at hrun
      next text between hpass =>
        -- what the first pass leaves ends with the escape, too
        obtain ⟨front', rfl, heven⟩ := exists_of_pass hmarker hfront hname hpass
        have hfront' := heven rfl (by simpa using hsources.1)
        exact ih hfront' hsources.2 hrun
      next => simp at hrun
      · simp

/-- **An escaped name at the end of a text comes out as the marker and the name** of
    a chain of passes, if no value of a source before the last is written with an odd
    run of markers at the end.  The token that starts where the name is escaped need
    not be said to be an escape, or the last: it is. -/
theorem suffix_substituteEach (p : Processor σ τ) (sources : List Source)
    {front name out : List Char} {tokens : List Token} {token : Token}
    {state state' : RunState σ τ} (hmarker : p.options.marker = '$')
    (hname : ∀ c ∈ name, isNameSymbol c = true)
    (hscan : scanAll '$' (front ++ '$' :: '$' :: name) = .ok tokens) (hmem : token ∈ tokens)
    (hstart : token.start.symbol = front.length)
    (hsources : ∀ source ∈ sources.dropLast, source.EndsEven p.host)
    (hrun : p.substituteEach sources (front ++ '$' :: '$' :: name) state = (.ok out, state')) :
    '$' :: name <:+ out := by
  obtain ⟨gaps, hscanned⟩ := exists_scanned hscan
  have hnil : EvenRun '$' [] := evenRun_of_not_mem List.not_mem_nil
  obtain ⟨front', behind, htext, hplace, heven⟩ := hscanned.exists_evenRun hnil token hmem
  have hlength : front.length = front'.length := by
    rw [← hstart, hplace, Position.after_symbol]
  rw [List.nil_append] at htext
  obtain ⟨rfl, -⟩ := List.append_inj htext hlength
  exact suffix_substituteEach_of_evenRun hmarker heven hname hsources hrun

/-- The value ends with two markers, and both they and the escape are one marker less
    in the end. -/
theorem suffix_substituteEach_two :
    let p : Processor Unit Unit := {
      options := {}
      host := ⟨fun _ _ functions => (none, functions)⟩
      sink := .null }
    let sources : List Source := [⟨none, [("a", .string "x$$")]⟩, ⟨none, [("b", .string "y")]⟩]
    let out := ['x', '$', '$', 'b']
    p.substituteEach sources ['$', 'a', '$', '$', 'b'] ⟨(), ()⟩ = (.ok out, ⟨(), ()⟩) ∧
      ['$', 'b'] <:+ out := by
  intro p sources out
  let token : Token := ⟨⟨["$"], [], none, true⟩, ⟨2, 2, 2⟩, ⟨4, 4, 4⟩, "$$"⟩
  have hscan : scanAll '$' (['$', 'a'] ++ '$' :: '$' :: ['b']) =
      .ok [⟨⟨["a"], [], none, false⟩, ⟨0, 0, 0⟩, ⟨2, 2, 2⟩, "$a"⟩, token] := by
    decide +kernel
  have hvalue : EvenRun '$' "x$$".toList := by
    have hx : EvenRun '$' ['x'] := evenRun_of_not_mem (by decide)
    have hpair : EvenRun '$' ['$', '$'] := Nat.even_iff.2 rfl
    have htext : "x$$".toList = ['x'] ++ ['$', '$'] := by simp
    rw [htext]
    exact hx.append hpair
  have hsources : ∀ source ∈ sources.dropLast, source.EndsEven p.host := by
    intro source hmem path value args functions text functions' hfind hresolve
    obtain rfl := List.mem_singleton.1 hmem
    cases path with
    | nil => simp [Source.find?] at hfind
    | cons key path =>
      obtain ⟨top, htop, hwalk⟩ := Option.bind_eq_some_iff.1 hfind
      obtain ⟨_, rfl⟩ : "a" = key ∧ Value.string "x$$" = top := by
        simpa [Source.get?, Entries.get?] using htop
      cases path with
      | nil =>
        obtain rfl : Value.string "x$$" = value := by simpa [Value.walk?] using hwalk
        obtain ⟨rfl, _⟩ : "x$$" = text ∧ functions = functions' := by
          simpa [resolve, Value.replacement, Value.text, Value.suffixText] using hresolve
        exact hvalue
      | cons segment path => simp [Value.walk?, Value.child?] at hwalk
  have hname : ∀ c ∈ ['b'], isNameSymbol c = true := by simp [isNameSymbol]
  have hrun : p.substituteEach sources ['$', 'a', '$', '$', 'b'] ⟨(), ()⟩ =
      (.ok out, ⟨(), ()⟩) := by
    decide +kernel
  exact ⟨hrun, suffix_substituteEach p sources rfl hname hscan
    (List.mem_cons_of_mem _ List.mem_cons_self) rfl hsources hrun⟩

/-- The value is the marker.  It pairs up with the first marker of the escape, and the
    second source fills in the name. -/
theorem not_suffix_substituteEach :
    let p : Processor Unit Unit := {
      options := {}
      host := ⟨fun _ _ functions => (none, functions)⟩
      sink := .null }
    let sources : List Source := [⟨none, [("a", .string "$")]⟩, ⟨none, [("b", .string "y")]⟩]
    let front := ['$', 'a']
    let text := front ++ '$' :: '$' :: ['b']
    normalize front = front ∧ isNameSymbol 'b' = true ∧
      scanAll '$' text = .ok [⟨⟨["a"], [], none, false⟩, ⟨0, 0, 0⟩, ⟨2, 2, 2⟩, "$a"⟩,
        ⟨⟨["$"], [], none, true⟩, ⟨2, 2, 2⟩, ⟨4, 4, 4⟩, "$$"⟩] ∧
      p.substituteEach sources text ⟨(), ()⟩ = (.ok ['$', 'y'], ⟨(), ()⟩) ∧
      ¬ ['$', 'b'] <:+ ['$', 'y'] := by
  intro p sources front text
  exact ⟨by decide +kernel, by decide, by decide +kernel, by decide +kernel, by decide⟩

end StyleTemplate
