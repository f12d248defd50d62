/-
  **Replacing tokens in place is putting texts between gaps.**

  A pass cuts tokens out of the text as it is by then, by byte offsets that were
  counted on the text as it was scanned.  That is right because the tokens are
  taken from the last to the first: what stands left of a token, the token
  included, is still the scanned text when its turn comes.  The invariant of the
  run is `Scanned.replaceAll_ok`: replacing the tokens of a scanned stretch leaves
  what stands before the stretch alone, and makes of the stretch its gaps with
  the texts that stand for its tokens.
-/
import StyleTemplate.Proofs.Token.Layout
import StyleTemplate.Substitution.Pass

namespace StyleTemplate

variable {σ τ : Type} {p : Processor σ τ} {sources : List Source} {collapse : Bool}

/-! ### What stands for a token -/

/-- `StandIn p sources collapse token functions text functions'`: the text stands
    in the place of the token after a pass.  Functions are in the state
    `functions` before the token is resolved, and in `functions'` after that. -/
inductive StandIn (p : Processor σ τ) (sources : List Source) (collapse : Bool) (token : Token)
    (functions : σ) : List Char → σ → Prop where
  | escapeKept : token.escape = true → collapse = false →
      StandIn p sources collapse token functions token.raw.toList functions
  | escapeCollapsed : token.escape = true → collapse = true →
      StandIn p sources collapse token functions
        (p.options.marker :: token.suffix.toList) functions
  | notFound : token.escape = false → lookup? token.path sources = none →
      StandIn p sources collapse token functions token.raw.toList functions
  | failed {source : Source} {value : Value} {error : ResolveError} {functions' : σ} :
      token.escape = false → lookup? token.path sources = some (source, value) →
      resolve p.host value token.args token.suffix functions = (.error error, functions') →
      p.options.onError = .report →
      StandIn p sources collapse token functions token.raw.toList functions'
  | resolved {source : Source} {value : Value} {text : String} {functions' : σ} :
      token.escape = false → lookup? token.path sources = some (source, value) →
      resolve p.host value token.args token.suffix functions = (.ok text, functions') →
      StandIn p sources collapse token functions text.toList functions'

/-- The texts that stand for some tokens, the last of which is resolved first. -/
inductive StandIns (p : Processor σ τ) (sources : List Source) (collapse : Bool) :
    List Token → σ → List (List Char) → σ → Prop where
  | nil {functions : σ} : StandIns p sources collapse [] functions [] functions
  | cons {token : Token} {tokens : List Token} {text : List Char} {texts : List (List Char)}
      {functions functions' functions'' : σ} :
      StandIns p sources collapse tokens functions texts functions' →
      StandIn p sources collapse token functions' text functions'' →
      StandIns p sources collapse (token :: tokens) functions (text :: texts) functions''

theorem StandIns.forall₂ {tokens : List Token} {texts : List (List Char)} {before after : σ}
    {R : Token → List Char → Prop} (h : StandIns p sources collapse tokens before texts after)
    (hR : ∀ token ∈ tokens, ∀ functions text functions',
      StandIn p sources collapse token functions text functions' → R token text) :
    List.Forall₂ R tokens texts := by
  induction h with
  | nil => exact .nil
  | cons _ hstandIn ih =>
    obtain ⟨hfirst, hmore⟩ := List.forall_mem_cons.1 hR
    exact .cons (hfirst _ _ _ hstandIn) (ih hmore)

theorem StandIns.length_eq {tokens : List Token} {texts : List (List Char)} {before after : σ}
    (h : StandIns p sources collapse tokens before texts after) : tokens.length = texts.length := by
  induction h with
  | nil => rfl
  | cons _ _ ih => simp [ih]

/-- Functions have no say in what stands for an escape. -/
theorem StandIn.eq_of_escape {token : Token} {before after : σ} {text : List Char}
    (h : StandIn p sources collapse token before text after) (hescape : token.escape = true) :
    text = if collapse then p.options.marker :: token.suffix.toList else token.raw.toList := by
  cases h with
  | escapeKept _ hcollapse => simp [hcollapse]
  | escapeCollapsed _ hcollapse => simp [hcollapse]
  | notFound hname => simp [hescape] at hname
  | failed hname => simp [hescape] at hname
  | resolved hname => simp [hescape] at hname

/-! ### One token -/

theorem replaceBytes?_after (before raw behind replacement : List Char) :
    replaceBytes? (before ++ raw ++ behind) (Position.after before).byte
      (Position.after (before ++ raw)).byte replacement =
        some (before ++ (replacement ++ behind)) := by
  rw [Position.after_byte, Position.after_byte, utf8Length_append, List.append_assoc,
    replaceBytes?_append]

theorem splice_placed (phrase : Phrase) (before raw behind : List Char) (replacement : String) :
    Processor.splice (before ++ raw ++ behind) (.placed phrase (.after before) raw) replacement =
      before ++ (replacement.toList ++ behind) := by
  rw [Processor.splice, Token.placed_start, Token.placed_after_stop, replaceBytes?_after]
  rfl

theorem replacement?_of_escape {token : Token} (h : token.escape = true) (functions : σ) :
    p.replacement? sources token functions =
      (.ok (some (p.options.marker.toString ++ Value.suffixText token.suffix)), functions) := by
  simp [Processor.replacement?, h]

@[simp] theorem toList_suffixText (suffix : Option Char) :
    (Value.suffixText suffix).toList = suffix.toList := by
  cases suffix <;> simp [Value.suffixText]

theorem toList_marker_append_suffixText (marker : Char) (suffix : Option Char) :
    (marker.toString ++ Value.suffixText suffix).toList = marker :: suffix.toList := by
  simp

/-- What writing a token comes to, by what its path leads to. -/
inductive Written (p : Processor σ τ) (sources : List Source) (token : Token) (functions : σ) :
    Except ResolveError (Option String) × σ → Prop where
  | escape : token.escape = true →
      Written p sources token functions
        (.ok (some (p.options.marker.toString ++ Value.suffixText token.suffix)), functions)
  | notFound : token.escape = false → lookup? token.path sources = none →
      Written p sources token functions (.ok none, functions)
  | failed {source : Source} {value : Value} {error : ResolveError} {functions' : σ} :
      token.escape = false → lookup? token.path sources = some (source, value) →
      resolve p.host value token.args token.suffix functions = (.error error, functions') →
      Written p sources token functions (.error error, functions')
  | resolved {source : Source} {value : Value} {text : String} {functions' : σ} :
      token.escape = false → lookup? token.path sources = some (source, value) →
      resolve p.host value token.args token.suffix functions = (.ok text, functions') →
      Written p sources token functions (.ok (some text), functions')

theorem written_replacement? (p : Processor σ τ) (sources : List Source) (token : Token)
    (functions : σ) : Written p sources token functions (p.replacement? sources token functions) := by
  cases hescape : token.escape with
  | true =>
    rw [replacement?_of_escape hescape]
    exact .escape hescape
  | false =>
    rw [Processor.replacement?, if_neg (by simp [hescape])]
    cases hlookup : lookup? token.path sources with
    | none => exact .notFound hescape hlookup
    | some found =>
      obtain ⟨source, value⟩ := found
      dsimp only
      rcases hresolve : resolve p.host value token.args token.suffix functions with
        ⟨error | text, functions'⟩
      · exact .failed hescape hlookup hresolve
      · exact .resolved hescape hlookup hresolve

/-- What happens at one token: a text that stands for it is put in its place, or
    its own text is left there. -/
theorem exists_standIn_of_replaceAll {token : Token} {text out : List Char}
    {state state' : RunState σ τ}
    (h : p.replaceAll sources collapse [token] text state = (.ok out, state')) :
    ∃ standIn, StandIn p sources collapse token state.functions standIn state'.functions ∧
      (out = Processor.splice text token (String.ofList standIn) ∨
        out = text ∧ standIn = token.raw.toList) := by
  simp only [Processor.replaceAll] at h
  split at h
  next hkept =>
    obtain ⟨hescape, hcollapse⟩ : token.escape = true ∧ collapse = false := by simpa using hkept
    obtain ⟨rfl, rfl⟩ : text = out ∧ state = state' := by simpa using h
    exact ⟨_, .escapeKept hescape hcollapse, .inr ⟨rfl, rfl⟩⟩
  next hkept =>
    have hwritten := written_replacement? p sources token state.functions
    generalize p.replacement? sources token state.functions = result at h hwritten
    cases hwritten with
    | escape hescape =>
      simp only [Prod.mk.injEq, Except.ok.injEq] at h
      obtain ⟨rfl, rfl⟩ := h
      refine ⟨_, .escapeCollapsed hescape (by simpa [hescape] using hkept), .inl ?_⟩
      rw [← toList_marker_append_suffixText, String.ofList_toList]
    | notFound hname hlookup =>
      simp only [Prod.mk.injEq, Except.ok.injEq] at h
      obtain ⟨rfl, rfl⟩ := h
      exact ⟨_, .notFound hname hlookup, .inr ⟨rfl, rfl⟩⟩
    | failed hname hlookup hresolve =>
      cases hpolicy : p.options.onError with
      | abort => simp [hpolicy] at h
      | report =>
        simp only [hpolicy, Prod.mk.injEq, Except.ok.injEq] at h
        obtain ⟨rfl, rfl⟩ := h
        exact ⟨_, .failed hname hlookup hresolve hpolicy, .inr ⟨rfl, rfl⟩⟩
    | resolved hname hlookup hresolve =>
      simp only [Prod.mk.injEq, Except.ok.injEq] at h
      obtain ⟨rfl, rfl⟩ := h
      refine ⟨_, .resolved hname hlookup hresolve, .inl ?_⟩
      rw [String.ofList_toList]

/-! ### All of them -/

/-- Replacing some tokens and then others is replacing all of them, unless an
    error comes first. -/
theorem replaceAll_append (tokens more : List Token) (text : List Char) (state : RunState σ τ) :
    p.replaceAll sources collapse (tokens ++ more) text state =
      match p.replaceAll sources collapse tokens text state with
      | (.ok text, state) => p.replaceAll sources collapse more text state
      | (.error error, state) => (.error error, state) := by
  induction tokens generalizing text state with
  | nil => rfl
  | cons token tokens ih =>
    simp only [List.cons_append, Processor.replaceAll]
    split
    next => exact ih text state
    next =>
      rcases p.replacement? sources token state.functions with ⟨error | _ | replacement, functions⟩
      · cases p.options.onError with
        | report => exact ih _ _
        | abort => rfl
      · exact ih _ _
      · exact ih _ _

/-- Replacing tokens goes through to the last one where errors are only reported. -/
theorem exists_replaceAll_eq_ok (hpolicy : p.options.onError = .report) (tokens : List Token)
    (text : List Char) (state : RunState σ τ) :
    ∃ out state', p.replaceAll sources collapse tokens text state = (.ok out, state') := by
  induction tokens generalizing text state with
  | nil => exact ⟨text, state, rfl⟩
  | cons token tokens ih =>
    simp only [Processor.replaceAll, hpolicy]
    split
    next => exact ih text state
    next =>
      rcases p.replacement? sources token state.functions with ⟨error | _ | replacement, functions⟩
      · exact ih _ _
      · exact ih _ _
      · exact ih _ _

theorem exists_of_replaceAll_append {tokens more : List Token} {text out : List Char}
    {state state' : RunState σ τ}
    (h : p.replaceAll sources collapse (tokens ++ more) text state = (.ok out, state')) :
    ∃ text₁ state₁, p.replaceAll sources collapse tokens text state = (.ok text₁, state₁) ∧
      p.replaceAll sources collapse more text₁ state₁ = (.ok out, state') := by
  rw [replaceAll_append] at h
  split at h
  next text₁ state₁ hfirst => exact ⟨text₁, state₁, hfirst, h⟩
  next => simp at h

/-- Replacing the tokens of a scanned stretch leaves what stands before it alone,
    and puts the texts that stand for the tokens between its gaps. -/
theorem Scanned.replaceAll_ok {marker : Char} {before text out : List Char}
    {gaps : List (List Char)} {tokens : List Token} {state state' : RunState σ τ}
    (h : Scanned marker (.after before) text gaps tokens)
    (hrun : p.replaceAll sources collapse tokens.reverse (before ++ text) state =
      (.ok out, state')) :
    ∃ texts, StandIns p sources collapse tokens state.functions texts state'.functions ∧
      out = before ++ interleave gaps texts := by
  induction h using Scanned.after_induction generalizing out state state' with
  | finished =>
    simp only [List.reverse_nil, Processor.replaceAll, Prod.mk.injEq, Except.ok.injEq] at hrun
    obtain ⟨rfl, rfl⟩ := hrun
    exact ⟨[], .nil, by simp [interleave]⟩
  | @token before gap written rest phrase gaps tokens _ _ ih =>
    -- everything up to the end of this token is what stands before the later ones
    rw [List.reverse_cons] at hrun
    obtain ⟨buffer, state₁, hmore, hlast⟩ := exists_of_replaceAll_append hrun
    obtain ⟨texts, hstand, rfl⟩ := ih (by simpa using hmore)
    obtain ⟨standIn, hstandIn, hout⟩ := exists_standIn_of_replaceAll hlast
    refine ⟨standIn :: texts, .cons hstand hstandIn, ?_⟩
    have hsplice := splice_placed phrase (before ++ gap) (marker :: written)
      (interleave gaps texts) (String.ofList standIn)
    simp only [List.append_assoc] at hsplice hout
    rcases hout with rfl | ⟨rfl, rfl⟩
    · rw [hsplice, interleave, String.toList_ofList]
    · simp [interleave]

/-- A pass over a text that cannot be scanned does nothing. -/
theorem pass_of_error {text : List Char} {error : SyntaxError}
    (h : scanAll p.options.marker (normalize text) = .error error) (state : RunState σ τ) :
    p.pass sources collapse text state = (.error (.malformed error), state) := by
  simp only [Processor.pass, h]

/-- A pass over any other text replaces its tokens from the last to the first. -/
theorem pass_of_ok {text : List Char} {tokens : List Token}
    (h : scanAll p.options.marker (normalize text) = .ok tokens) (state : RunState σ τ) :
    p.pass sources collapse text state =
      p.replaceAll sources collapse tokens.reverse (normalize text) state := by
  simp only [Processor.pass, h]

theorem exists_scanned_of_pass {text out : List Char} {state state' : RunState σ τ}
    (h : p.pass sources collapse text state = (.ok out, state')) :
    ∃ gaps tokens, Scanned p.options.marker (.after []) (normalize text) gaps tokens ∧
      p.replaceAll sources collapse tokens.reverse (normalize text) state = (.ok out, state') := by
  cases hscan : scanAll p.options.marker (normalize text) with
  | error error =>
    rw [pass_of_error hscan] at h
    simp at h
  | ok tokens =>
    rw [pass_of_ok hscan] at h
    obtain ⟨gaps, hscanned⟩ := exists_scanned hscan
    exact ⟨gaps, tokens, hscanned, h⟩

/-- A token of a scanned text, with what stands before it and the scan of what
    stands behind it. -/
theorem Scanned.exists_split {marker : Char} {before text : List Char} {gaps : List (List Char)}
    {left right : List Token} {token : Token}
    (h : Scanned marker (.after before) text gaps (left ++ token :: right)) :
    ∃ front written rest phrase gaps', before ++ text = front ++ (marker :: written ++ rest) ∧
      token = .placed phrase (.after front) (marker :: written) ∧
      Scanned marker (.after (front ++ marker :: written)) rest gaps' right := by
  induction left generalizing before text gaps with
  | nil =>
    obtain ⟨gap, written, rest, phrase, more, rfl, _, htoken, hrest⟩ := h.exists_cons
    exact ⟨before ++ gap, written, rest, phrase, more, by simp, htoken, hrest⟩
  | cons first left ih =>
    obtain ⟨gap, written, rest, phrase, more, rfl, _, _, hrest⟩ := h.exists_cons
    obtain ⟨front, written', rest', phrase', gaps', heq, htoken, hright⟩ := ih hrest
    exact ⟨front, written', rest', phrase', gaps', by rw [← heq]; simp, htoken, hright⟩

/-- When the turn of a token comes, the text still starts as it was scanned, up to
    the end of that token; so the token's byte range is a stretch of it, and what
    is put there changes nothing before and nothing behind. -/
theorem Scanned.replaceBytes?_eq {marker : Char} {text : List Char} {gaps : List (List Char)}
    {left right : List Token} {token : Token} {out : List Char} {state state' : RunState σ τ}
    (h : Scanned marker (.after []) text gaps (left ++ token :: right))
    (hrun : p.replaceAll sources collapse (left ++ token :: right).reverse text state =
      (.ok out, state')) :
    ∃ behind state₁, p.replaceAll sources collapse right.reverse text state =
        (.ok (text.take token.stop.symbol ++ behind), state₁) ∧
      ∀ replacement, replaceBytes? (text.take token.stop.symbol ++ behind) token.start.byte
        token.stop.byte replacement =
          some (text.take token.start.symbol ++ (replacement ++ behind)) := by
  obtain ⟨front, written, rest, phrase, gaps', htext, rfl, hright⟩ := h.exists_split
  rw [List.nil_append] at htext
  rw [List.reverse_append, List.reverse_cons, List.append_assoc] at hrun
  obtain ⟨buffer, state₁, hrun, _⟩ := exists_of_replaceAll_append hrun
  have htext' : text = front ++ marker :: written ++ rest := by rw [htext, List.append_assoc]
  obtain ⟨texts, _, rfl⟩ := hright.replaceAll_ok (htext' ▸ hrun)
  have hstart : text.take (Position.after front).symbol = front := by
    rw [htext, Position.after_symbol, List.take_left]
  have hstop : text.take (Position.after (front ++ marker :: written)).symbol =
      front ++ marker :: written := by
    rw [htext', Position.after_symbol, List.take_left]
  refine ⟨interleave gaps' texts, state₁, ?_, fun replacement => ?_⟩
  · rw [Token.placed_after_stop, hstop, hrun]
  · rw [Token.placed_start, Token.placed_after_stop, hstart, hstop]
    exact replaceBytes?_after front (marker :: written) _ replacement

/-- **A pass puts texts between the gaps of the normalized text.**  The texts are
    those that stand for the tokens found there.  No replacement of the run cuts
    the text anywhere but at its own token. -/
theorem pass_ok_eq_interleave (p : Processor σ τ) (sources : List Source) (collapse : Bool)
    {text out : List Char} {state state' : RunState σ τ}
    (h : p.pass sources collapse text state = (.ok out, state')) :
    ∃ tokens gaps texts,
      scanAll p.options.marker (normalize text) = .ok tokens ∧
      gaps? (normalize text) tokens = some gaps ∧
      StandIns p sources collapse tokens state.functions texts state'.functions ∧
      out = interleave gaps texts ∧
      ∀ left token right, tokens = left ++ token :: right →
        ∃ behind state₁, p.replaceAll sources collapse right.reverse (normalize text) state =
            (.ok ((normalize text).take token.stop.symbol ++ behind), state₁) ∧
          ∀ replacement, replaceBytes? ((normalize text).take token.stop.symbol ++ behind)
            token.start.byte token.stop.byte replacement =
              some ((normalize text).take token.start.symbol ++ (replacement ++ behind)) := by
  unfold Processor.pass at h
  dsimp only at h
  split at h
  next => simp at h
  next tokens hscan =>
    obtain ⟨gaps, hscanned⟩ := exists_scanned hscan
    obtain ⟨texts, hstand, hout⟩ := hscanned.replaceAll_ok h
    refine ⟨tokens, gaps, texts, hscan, hscanned.gapsFrom?_eq, hstand, hout, ?_⟩
    rintro left token right rfl
    exact hscanned.replaceBytes?_eq h

/-- Behind a symbol of two bytes: a function called for the second time, a value
    that cannot be written, an escape, and the same function called for the first
    time. -/
theorem pass_ok_eq_interleave_calls :
    let p : Processor Nat Unit := {
      options := { printErrors := false }
      host := ⟨fun _ _ calls => (some (.string (if calls = 0 then "x" else "yz")), calls + 1)⟩
      sink := .null }
    let sources : List Source := [⟨none, [("a", .function 0), ("b", .sequence [.mapping []])]⟩]
    let text := ['é', '$', 'a', ' ', '$', 'b', ';', '$', '$', '$', 'a']
    p.pass sources true text ⟨0, ()⟩ =
        (.ok ['é', 'y', 'z', ' ', '$', 'b', ';', '$', 'x'], ⟨2, ()⟩) ∧
      ∃ tokens gaps texts, scanAll '$' (normalize text) = .ok tokens ∧
        gaps? (normalize text) tokens = some gaps ∧ StandIns p sources true tokens 0 texts 2 ∧
        ['é', 'y', 'z', ' ', '$', 'b', ';', '$', 'x'] = interleave gaps texts := by
  intro p sources text
  have hpass : p.pass sources true text ⟨0, ()⟩ =
      (.ok ['é', 'y', 'z', ' ', '$', 'b', ';', '$', 'x'], ⟨2, ()⟩) := by
    decide +kernel
  obtain ⟨tokens, gaps, texts, hscan, hgaps, hstand, hout, _⟩ :=
    pass_ok_eq_interleave p sources true hpass
  exact ⟨hpass, tokens, gaps, texts, hscan, hgaps, hstand, hout⟩

end StyleTemplate
