/-
  **What is found when a result is scanned again.**

  After a pass with one source, the values that were put in stand next to tokens
  that were left in place, and the two were never scanned together: a value can
  lengthen the name of a token in front of it, or open a parameter list there.
  Where no value does that, scanning the result finds exactly the tokens that were
  left (`Scanned.exists_rescan`).  So no placeholder of the source is left in a text
  whose values are scalars without a marker.

  Suffixes may still change.  A value can start with a terminator, which then ends
  the token in front of it; but what a suffix draws in holds no marker
  (`Drawn.not_mem`), so that the next token keeps its start.
-/
import Mathlib.Data.List.Forall2
import StyleTemplate.Proofs.Token.Continuation
import StyleTemplate.Proofs.Substitution.Splicing
import StyleTemplate.Proofs.Source.Lookup
import StyleTemplate.Substitution.Basic

namespace StyleTemplate

/-! ### Tokens that stay, and texts in the place of the others -/

section Rescan

variable {marker : Char} {kept : Phrase → Bool}

/-- Whether the text can stand for a token: its own text for a token that is kept,
    and a text without a marker for any other. -/
def Fills (marker : Char) (kept : Phrase → Bool) (token : Token) (text : List Char) : Prop :=
  if kept token.toPhrase then text = token.raw.toList else marker ∉ text

/-- What a placeholder says, apart from its suffix. -/
def Token.said (token : Token) : Phrase :=
  { token.toPhrase with suffix := none }

theorem forall_said {tokens tokens' : List Token} (P : Phrase → Prop)
    (hsaid : tokens'.map Token.said = tokens.map Token.said)
    (h : ∀ token ∈ tokens, P token.said) : ∀ token ∈ tokens', P token.said := by
  rw [← List.forall_mem_map] at h ⊢
  rwa [hsaid]

/-- Whether every kept token ends in front of what comes to stand behind it, once
    the texts have taken the place of the tokens. -/
def KeptApart (kept : Phrase → Bool) : List (List Char) → List (List Char) → List Token → Prop
  | _ :: gaps, _ :: texts, token :: tokens =>
    (kept token.toPhrase = true →
      EndsBefore token.raw.toList.tail token.suffix (interleave gaps texts)) ∧
    KeptApart kept gaps texts tokens
  | _, _, _ => True

/-- The first marker of a text without escapes is followed by a name. -/
theorem Scanned.exists_name {position : Position} {text front behind : List Char}
    {gaps : List (List Char)} {tokens : List Token} (h : Scanned marker position text gaps tokens)
    (hname : ∀ token ∈ tokens, token.escape = false) (hfront : marker ∉ front)
    (htext : text = front ++ marker :: behind) :
    ∃ c more, behind = c :: more ∧ isNameSymbol c = true := by
  cases h with
  | finished hgap => exact absurd (by simp [htext]) hgap
  | @token _ gap written rest phrase gaps tokens hgap hform =>
    obtain ⟨-, rfl⟩ := append_cons_inj_of_not_mem hgap hfront htext
    have hphrase := hname _ List.mem_cons_self
    cases hform with
    | escape => simp at hphrase
    | named hform =>
      obtain ⟨c, name, rfl⟩ := List.exists_cons_of_ne_nil hform.name_ne_nil
      exact ⟨c, _, rfl, hform.isNameSymbol_of_mem c List.mem_cons_self⟩

/-- What a suffix draws in holds no marker, if it ended before a gap and a marker, and
    the gap is still there. -/
theorem Drawn.not_mem {gap rest other cut behind : List Char}
    (h : Drawn (gap ++ marker :: rest) cut) (hgap : marker ∉ gap)
    (hsplit : gap ++ other = cut ++ behind)
    (hname : ∀ front more, gap ++ other = front ++ marker :: more → marker ∉ front →
      ∃ c more', more = c :: more' ∧ isNameSymbol c = true) :
    marker ∉ cut := by
  intro hmem
  cases h with
  | nothing => simp at hmem
  | white hwhite hc =>
    obtain rfl := List.mem_singleton.1 hmem
    cases gap with
    | nil => exact absurd hc (by simp [hwhite.of_cons])
    | cons d gap =>
      obtain rfl : d = marker := (List.cons.inj hsplit).1
      simp at hgap
  | @terminator blank c next hblank hc =>
    by_cases hinside : marker ∈ blank
    · -- white space or the terminator would follow the marker
      obtain ⟨front, more, rfl, hfront⟩ := List.eq_append_cons_of_mem hinside
      obtain ⟨d, more', hd, hsymbol⟩ := hname front (more ++ c :: behind) (by simp [hsplit]) hfront
      cases more with
      | nil =>
        obtain rfl : c = d := (List.cons.inj hd).1
        simp [isNameSymbol_of_isTerminator hc] at hsymbol
      | cons e more =>
        obtain rfl : e = d := (List.cons.inj hd).1
        simp [isNameSymbol_of_isWhite (hblank e (by simp))] at hsymbol
    · -- the gap is white space, and the marker a terminator behind it
      obtain rfl : marker = c := by simpa [hinside] using hmem
      have hsplit' : gap ++ other = blank ++ marker :: behind := by simpa using hsplit
      obtain ⟨more, rfl, -⟩ := exists_of_append_eq hgap hsplit'
      have hgap_blank : Blank gap := by
        intro d hd
        exact hblank d (List.mem_append_left more hd)
      exact absurd hc (by simp [next gap marker _ hgap_blank rfl])

theorem Scanned.not_mem_drawn {position start : Position} {rest cut behind : List Char}
    {gaps texts gaps' : List (List Char)} {tokens tokens' : List Token}
    (h : Scanned marker position rest gaps tokens) (hlength : tokens.length = texts.length)
    (hscan : Scanned marker start (interleave gaps texts) gaps' tokens')
    (hname : ∀ token ∈ tokens', token.escape = false)
    (hsplit : interleave gaps texts = cut ++ behind) (hdrawn : Drawn rest cut) :
    marker ∉ cut := by
  cases h with
  | finished hgap =>
    obtain rfl : texts = [] := List.eq_nil_of_length_eq_zero hlength.symm
    intro hmem
    exact hgap (by simp_all [interleave])
  | token hgap =>
    obtain ⟨text, texts, rfl⟩ := List.exists_cons_of_length_eq_add_one hlength.symm
    refine hdrawn.not_mem hgap hsplit ?_
    intro front more htext hfront
    exact hscan.exists_name hname hfront htext

/-- **Scanning the result finds exactly the tokens that were kept.** -/
theorem Scanned.exists_rescan {position : Position} {text : List Char}
    {gaps texts : List (List Char)} {tokens : List Token}
    (h : Scanned marker position text gaps tokens)
    (hfill : List.Forall₂ (Fills marker kept) tokens texts)
    (hname : ∀ token ∈ tokens, token.escape = false) (hapart : KeptApart kept gaps texts tokens)
    (start : Position) :
    ∃ gaps' tokens', Scanned marker start (interleave gaps texts) gaps' tokens' ∧
      tokens'.map Token.said = (tokens.filter (kept ·.toPhrase)).map Token.said := by
  induction h generalizing texts start with
  | @finished _ gap hgap =>
    cases hfill
    refine ⟨[gap], [], ?_, rfl⟩
    simpa [interleave] using Scanned.finished hgap
  | @token position gap written rest phrase gaps tokens hgap hform hrest ih =>
    cases hfill with
    | @cons _ text _ texts hfirst hmore =>
      obtain ⟨hphrase, hname'⟩ := List.forall_mem_cons.1 hname
      rw [interleave]
      by_cases hkept : kept phrase = true
      · have htext : text = marker :: written := by
          simpa [Fills, hkept] using hfirst
        have hends : EndsBefore written phrase.suffix (interleave gaps texts) := by
          simpa using hapart.1 hkept
        obtain ⟨cut, behind, suffix, hsplit, hdrawn, hform'⟩ := hform.exists_drawn hphrase hends
        obtain ⟨gaps', tokens', hscan, hsaid⟩ := ih hmore hname' hapart.2
          ((start.advanceAll gap).advanceAll (marker :: written))
        have hname'' : ∀ token ∈ tokens', token.escape = false := by
          refine forall_said (fun said => said.escape = false) hsaid ?_
          exact fun token hmem => hname' token (List.mem_filter.1 hmem).1
        have hcut : marker ∉ cut :=
          hrest.not_mem_drawn hmore.length_eq hscan hname'' hsplit hdrawn
        rw [hsplit] at hscan ⊢
        obtain ⟨gap', more, rfl, hscan'⟩ := hscan.exists_of_append hcut
        rw [← Position.advanceAll_append, List.cons_append] at hscan'
        have hwhole := Scanned.token hgap hform' hscan'
        rw [List.append_assoc] at hwhole
        rw [htext]
        refine ⟨_, _, hwhole, ?_⟩
        rw [List.map_cons, hsaid, List.filter_cons_of_pos (by exact hkept), List.map_cons]
        rfl
      · have hmarker : marker ∉ gap ++ text := by
          simp only [Fills, Token.placed_toPhrase, hkept, Bool.false_eq_true, if_false] at hfirst
          simp [hgap, hfirst]
        obtain ⟨gaps', tokens', hscan, hsaid⟩ := ih hmore hname' hapart.2
          (start.advanceAll (gap ++ text))
        obtain ⟨gap', more, rfl, hwhole⟩ := hscan.exists_append hmarker
        refine ⟨_, tokens', by rwa [List.append_assoc] at hwhole, ?_⟩
        rw [hsaid, List.filter_cons_of_neg (by exact hkept)]

end Rescan

/-! ### Sources of scalars -/

/-- Whether all values are scalars, and none of them is written with the marker. -/
def Source.ScalarsWithout (marker : Char) (source : Source) : Prop :=
  ∀ key value, (key, value) ∈ source.values →
    value.isScalar = true ∧ ∀ text, value.text = .ok text → marker ∉ text.toList

theorem Source.ScalarsWithout.isScalar {marker : Char} {source : Source}
    (h : source.ScalarsWithout marker) :
    ∀ key value, (key, value) ∈ source.values → value.isScalar = true := by
  intro key value hmem
  exact (h key value hmem).1

/-- Whether a pass with the source leaves a placeholder as it is. -/
def Source.leaves (source : Source) (phrase : Phrase) : Bool :=
  (source.find? phrase.path).isNone

/-- What a pass puts in the place of a token, if all values can be written as texts. -/
def Source.textFor (source : Source) (token : Token) : List Char :=
  match source.find? token.path with
  | none => token.raw.toList
  | some value => (value.text.toOption.getD "" ++ Value.suffixText token.suffix).toList

/-- What is found among scalars stands directly under a key. -/
theorem Source.exists_mem_of_find? {source : Source}
    (h : ∀ key value, (key, value) ∈ source.values → value.isScalar = true) {path : List String}
    {value : Value} (hfind : source.find? path = some value) :
    ∃ key, (key, value) ∈ source.values := by
  cases Source.find?_eq_some_iff.1 hfind with
  | @intro key top _ _ htop hreaches =>
    have hmem := Entries.mem_of_get? htop
    cases hreaches with
    | here => exact ⟨key, hmem⟩
    | child hchild _ =>
      have hleaf : top.IsLeaf := .inr (.inl (h key top hmem))
      exact absurd hchild (hleaf.not_hasChild _ _)

theorem resolve_of_isScalar {σ : Type} {value : Value} (h : value.isScalar = true) (host : Host σ)
    (args : List String) (suffix : Option Char) (functions : σ) :
    ∃ text, value.text = .ok text ∧
      resolve host value args suffix functions =
        (.ok (text ++ Value.suffixText suffix), functions) := by
  cases value <;> simp [Value.isScalar] at h <;>
    exact ⟨_, by rw [Value.text], by simp [resolve, Value.replacement, Value.text]⟩

variable {σ τ : Type} {p : Processor σ τ} {source : Source} {collapse : Bool}

/-- Whatever stands for a placeholder after a pass with a source of scalars, it is the
    text of the value, or the placeholder itself. -/
theorem StandIn.eq_textFor {token : Token} {before after : σ} {text : List Char}
    (hscalar : ∀ key value, (key, value) ∈ source.values → value.isScalar = true)
    (hname : token.escape = false) (h : StandIn p [source] collapse token before text after) :
    text = source.textFor token := by
  have hvalue : ∀ source' value, lookup? token.path [source] = some (source', value) →
      source.find? token.path = some value ∧ value.isScalar = true := by
    intro source' value hlookup
    rw [lookup?_singleton] at hlookup
    obtain ⟨value', hfind, heq⟩ := Option.map_eq_some_iff.1 hlookup
    obtain rfl := (Prod.mk.inj heq).2
    obtain ⟨key, hmem⟩ := source.exists_mem_of_find? hscalar hfind
    exact ⟨hfind, hscalar key value' hmem⟩
  unfold Source.textFor
  cases h with
  | escapeKept hescape => simp [hname] at hescape
  | escapeCollapsed hescape => simp [hname] at hescape
  | notFound _ hlookup =>
    rw [lookup?_singleton, Option.map_eq_none_iff] at hlookup
    rw [hlookup]
  | failed _ hlookup hresolve =>
    obtain ⟨-, hscalar⟩ := hvalue _ _ hlookup
    obtain ⟨text, -, hok⟩ := resolve_of_isScalar hscalar p.host token.args token.suffix before
    simp [hok] at hresolve
  | resolved _ hlookup hresolve =>
    obtain ⟨hfind, hscalar⟩ := hvalue _ _ hlookup
    obtain ⟨text, htext, hok⟩ :=
      resolve_of_isScalar hscalar p.host token.args token.suffix before
    obtain ⟨rfl, -⟩ : text ++ Value.suffixText token.suffix = _ ∧ _ := by
      simpa [hok] using hresolve
    simp [hfind, htext, Except.toOption]

theorem StandIns.eq_textFor {tokens : List Token} {texts : List (List Char)} {before after : σ}
    (hscalar : ∀ key value, (key, value) ∈ source.values → value.isScalar = true)
    (hname : ∀ token ∈ tokens, token.escape = false)
    (h : StandIns p [source] collapse tokens before texts after) :
    texts = tokens.map source.textFor := by
  induction h with
  | nil => rfl
  | cons _ hstandIn ih =>
    obtain ⟨hfirst, hmore⟩ := List.forall_mem_cons.1 hname
    rw [hstandIn.eq_textFor hscalar hfirst, ih hmore, List.map_cons]

/-- A value that is put in has no marker, and neither has its suffix. -/
theorem Source.ScalarsWithout.fills {marker : Char} {token : Token}
    (h : source.ScalarsWithout marker)
    (hsuffix : source.leaves token.toPhrase = false → token.suffix ≠ some marker) :
    Fills marker source.leaves token (source.textFor token) := by
  unfold Fills Source.textFor
  cases hfind : source.find? token.path with
  | none => simp [Source.leaves, hfind]
  | some value =>
    have hfound : source.leaves token.toPhrase = false := by simp [Source.leaves, hfind]
    obtain ⟨key, hmem⟩ := source.exists_mem_of_find? h.isScalar hfind
    have hwithout := (h key value hmem).2
    have hmarker : marker ∉ (value.text.toOption.getD "").toList := by
      cases htext : value.text with
      | error => simp [Except.toOption]
      | ok text => simpa [Except.toOption] using hwithout text htext
    have hlast : marker ∉ token.suffix.toList := by
      simpa using fun heq => hsuffix hfound heq
    simp [hfound, hmarker, hlast]

/-- **No placeholder of a source of scalars is left** by a pass with it: scanning
    the result finds the tokens that the source does not define, and only them. -/
theorem scanAll_substitute_of_scalars (p : Processor σ τ) {source : Source} {text out : List Char}
    {tokens : List Token} {gaps : List (List Char)} {state state' : RunState σ τ}
    (hsource : source.ScalarsWithout p.options.marker) (hnormal : normalize text = text)
    (hscan : scanAll p.options.marker text = .ok tokens) (hgaps : gaps? text tokens = some gaps)
    (hname : ∀ token ∈ tokens, token.escape = false)
    (hsuffix : ∀ token ∈ tokens, source.leaves token.toPhrase = false →
      token.suffix ≠ some p.options.marker)
    (hapart : KeptApart source.leaves gaps (tokens.map source.textFor) tokens)
    (hrun : p.substitute [source] text state = (.ok out, state')) :
    ∃ tokens', scanAll p.options.marker out = .ok tokens' ∧
      tokens'.map Token.said = (tokens.filter (source.leaves ·.toPhrase)).map Token.said ∧
      ∀ token ∈ tokens', source.find? token.path = none := by
  obtain ⟨gaps', hscanned⟩ := exists_scanned hscan
  obtain rfl : gaps' = gaps := by
    simpa using (hscanned.gapsFrom?_eq).symm.trans hgaps
  rw [Processor.substitute, pass_of_ok (hnormal.symm ▸ hscan), hnormal] at hrun
  obtain ⟨texts, hstand, rfl⟩ := hscanned.replaceAll_ok hrun
  obtain rfl := hstand.eq_textFor hsource.isScalar hname
  have hfill : List.Forall₂ (Fills p.options.marker source.leaves) tokens
      (tokens.map source.textFor) := by
    rw [List.forall₂_map_right_iff, List.forall₂_same]
    exact fun token hmem => hsource.fills (hsuffix token hmem)
  obtain ⟨gaps'', tokens', hresult, hsaid⟩ :=
    hscanned.exists_rescan hfill hname hapart (.after [])
  refine ⟨tokens', scanFrom_eq_ok_iff.2 ⟨gaps'', hresult⟩, hsaid, ?_⟩
  refine forall_said (fun said => source.find? said.path = none) hsaid ?_
  intro token hmem
  simpa [Source.leaves, Token.said] using (List.mem_filter.1 hmem).2

/-- Left in place are a token that ends with a terminator, one in front of a value that
    does not continue it, one with parentheses, and one that a value ends. -/
theorem scanAll_substitute_of_scalars_apart :
    let p : Processor Unit Unit := {
      options := {}
      host := ⟨fun _ _ functions => (none, functions)⟩
      sink := .null }
    let source : Source := ⟨none, [("a", .string "x("), ("e", .string ";")]⟩
    let text := ['$', 'b', ';', '$', 'a', '$', 'b', ' ', '$', 'a', '$', 'c', '(', ')', '$', 'a',
      '$', 'b', '$', 'e']
    let out := ['$', 'b', ';', 'x', '(', '$', 'b', ' ', 'x', '(', '$', 'c', '(', ')', 'x', '(',
      '$', 'b', ';']
    p.substitute [source] text ⟨(), ()⟩ = (.ok out, ⟨(), ()⟩) ∧
      ∃ tokens', scanAll '$' out = .ok tokens' ∧
        tokens'.map Token.said = [⟨["b"], [], none, false⟩, ⟨["b"], [], none, false⟩,
          ⟨["c"], [], none, false⟩, ⟨["b"], [], none, false⟩] ∧
        ∀ token ∈ tokens', source.find? token.path = none := by
  intro p source text out
  let tokens : List Token := [
    ⟨⟨["b"], [], some ';', false⟩, ⟨0, 0, 0⟩, ⟨3, 3, 3⟩, "$b;"⟩,
    ⟨⟨["a"], [], none, false⟩, ⟨3, 3, 3⟩, ⟨5, 5, 5⟩, "$a"⟩,
    ⟨⟨["b"], [], some ' ', false⟩, ⟨5, 5, 5⟩, ⟨8, 8, 8⟩, "$b "⟩,
    ⟨⟨["a"], [], none, false⟩, ⟨8, 8, 8⟩, ⟨10, 10, 10⟩, "$a"⟩,
    ⟨⟨["c"], [], none, false⟩, ⟨10, 10, 10⟩, ⟨14, 14, 14⟩, "$c()"⟩,
    ⟨⟨["a"], [], none, false⟩, ⟨14, 14, 14⟩, ⟨16, 16, 16⟩, "$a"⟩,
    ⟨⟨["b"], [], none, false⟩, ⟨16, 16, 16⟩, ⟨18, 18, 18⟩, "$b"⟩,
    ⟨⟨["e"], [], none, false⟩, ⟨18, 18, 18⟩, ⟨20, 20, 20⟩, "$e"⟩]
  have hscan : scanAll '$' text = .ok tokens := by
    decide +kernel
  have hgaps : gaps? text tokens = some [[], [], [], [], [], [], [], [], []] := by
    decide +kernel
  have hsource : source.ScalarsWithout '$' := by
    intro key value hmem
    simp only [source, List.mem_cons, Prod.mk.injEq, List.not_mem_nil, or_false] at hmem
    rcases hmem with ⟨rfl, rfl⟩ | ⟨rfl, rfl⟩ <;> simp [Value.isScalar, Value.text]
  have htexts : tokens.map source.textFor = [['$', 'b', ';'], ['x', '('], ['$', 'b', ' '],
      ['x', '('], ['$', 'c', '(', ')'], ['x', '('], ['$', 'b'], [';']] := by
    decide +kernel
  have hapart : KeptApart source.leaves [[], [], [], [], [], [], [], [], []]
      (tokens.map source.textFor) tokens := by
    rw [htexts]
    simp only [KeptApart, tokens, Source.leaves, Source.find?, Source.get?, Entries.get?, source,
      interleave]
    decide
  have hrun : p.substitute [source] text ⟨(), ()⟩ = (.ok out, ⟨(), ()⟩) := by
    decide +kernel
  exact ⟨hrun, scanAll_substitute_of_scalars p hsource (by decide +kernel) hscan hgaps
    (by simp [tokens]) (by simp [tokens, p]) hapart hrun⟩

/-- A value lengthens the name in front of it, which is then the name of the other
    value.  And a marker that is the suffix of a replaced token is put back, so that
    the result cannot be scanned at all. -/
theorem scanAll_substitute_of_scalars_glued :
    let p (marker : Char) : Processor Unit Unit := {
      options := { marker }
      host := ⟨fun _ _ functions => (none, functions)⟩
      sink := .null }
    let source : Source := ⟨none, [("a", .string "x"), ("bx", .string "y")]⟩
    let glued := ['$', 'b', '$', 'a']
    let spaced := [' ', 'a', ' ']
    source.ScalarsWithout '$' ∧ source.ScalarsWithout ' ' ∧
      normalize glued = glued ∧ normalize spaced = spaced ∧
      scanAll '$' glued = .ok [
        ⟨⟨["b"], [], none, false⟩, ⟨0, 0, 0⟩, ⟨2, 2, 2⟩, "$b"⟩,
        ⟨⟨["a"], [], none, false⟩, ⟨2, 2, 2⟩, ⟨4, 4, 4⟩, "$a"⟩] ∧
      (p '$').substitute [source] glued ⟨(), ()⟩ = (.ok ['$', 'b', 'x'], ⟨(), ()⟩) ∧
      (∃ token, scanAll '$' ['$', 'b', 'x'] = .ok [token] ∧
        (source.find? token.path).isSome) ∧
      scanAll ' ' spaced = .ok [⟨⟨["a"], [], some ' ', false⟩, ⟨0, 0, 0⟩, ⟨3, 3, 3⟩, " a "⟩] ∧
      (p ' ').substitute [source] spaced ⟨(), ()⟩ = (.ok ['x', ' '], ⟨(), ()⟩) ∧
      (scanAll ' ' ['x', ' ']).toOption = none := by
  intro p source glued spaced
  have hsource : ∀ marker, marker ≠ 'x' → marker ≠ 'y' → source.ScalarsWithout marker := by
    intro marker hx hy key value hmem
    simp only [source, List.mem_cons, Prod.mk.injEq, List.not_mem_nil, or_false] at hmem
    rcases hmem with ⟨rfl, rfl⟩ | ⟨rfl, rfl⟩ <;> simp [Value.isScalar, Value.text, hx, hy]
  have hglued : scanAll '$' ['$', 'b', 'x'] =
      .ok [⟨⟨["bx"], [], none, false⟩, ⟨0, 0, 0⟩, ⟨3, 3, 3⟩, "$bx"⟩] := by
    decide +kernel
  refine ⟨hsource '$' (by decide) (by decide), hsource ' ' (by decide) (by decide), ?_, ?_, ?_,
    ?_, ⟨_, hglued, by decide +kernel⟩, ?_, ?_, ?_⟩
  all_goals decide +kernel

end StyleTemplate
