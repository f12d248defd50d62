/-
  **Scanning is local.**

  A scan looks ahead of what it takes: behind a name for a parenthesis, and behind a
  phrase for a terminator, past any white space.  What it does not find there it does
  not take, and it still does not find it in a text that ends sooner.  So a scanned text
  can be cut in two at any place that is not inside of a token, and each part scans to
  the tokens that are in it (`Scanned.exists_cut`).  A part that stands alone is counted
  from its own start, which moves the places of its tokens and nothing else
  (`Scanned.exists_offsetBy`).
-/
import StyleTemplate.Proofs.Token.Layout

namespace StyleTemplate

/-! ### Places counted from elsewhere -/

/-- The place `p` of a text that starts at `origin`. -/
def Position.offsetBy (origin p : Position) : Position where
  symbol := origin.symbol + p.symbol
  unit16 := origin.unit16 + p.unit16
  byte := origin.byte + p.byte

theorem Position.advanceAll_offsetBy (origin p : Position) (text : List Char) :
    (origin.offsetBy p).advanceAll text = origin.offsetBy (p.advanceAll text) := by
  simp only [advanceAll_eq, offsetBy, Nat.add_assoc]

/-- A token of a text that starts at `origin`. -/
def Token.offsetBy (origin : Position) (token : Token) : Token :=
  { token with start := origin.offsetBy token.start, stop := origin.offsetBy token.stop }

theorem Token.offsetBy_placed (origin : Position) (phrase : Phrase) (start : Position)
    (raw : List Char) :
    (Token.placed phrase start raw).offsetBy origin =
      .placed phrase (origin.offsetBy start) raw := by
  rw [Token.placed, Token.placed, Token.offsetBy, Position.advanceAll_offsetBy]

/-- Where a text starts makes no difference to its tokens but for their places. -/
theorem Scanned.exists_offsetBy {marker : Char} {origin position : Position} {text : List Char}
    {gaps : List (List Char)} {tokens : List Token}
    (h : Scanned marker (origin.offsetBy position) text gaps tokens) :
    ∃ found, Scanned marker position text gaps found ∧
      found.map (Token.offsetBy origin) = tokens := by
  generalize hstart : origin.offsetBy position = start at h
  induction h generalizing position with
  | finished hgap => exact ⟨[], .finished hgap, rfl⟩
  | @token start gap written rest phrase gaps tokens hgap hform hrest ih =>
    subst hstart
    obtain ⟨found, hfound, rfl⟩ := @ih ((position.advanceAll gap).advanceAll (marker :: written))
      (by rw [Position.advanceAll_offsetBy, Position.advanceAll_offsetBy])
    refine ⟨_, .token hgap hform hfound, ?_⟩
    rw [List.map_cons, Token.offsetBy_placed, Position.advanceAll_offsetBy]

/-! ### Cutting a scanned text -/

/-- Whether the place behind `k` symbols is not inside of a token. -/
def CutPoint (k : Nat) (tokens : List Token) : Prop :=
  ∀ token ∈ tokens, ¬ (token.start.symbol < k ∧ k < token.stop.symbol)

instance (k : Nat) (tokens : List Token) : Decidable (CutPoint k tokens) :=
  List.decidableBAll (fun token : Token => ¬ (token.start.symbol < k ∧ k < token.stop.symbol)) tokens

/-- **A scanned text can be cut anywhere but inside of a token.** -/
theorem Scanned.exists_cut {marker : Char} {position : Position} {text : List Char}
    {gaps : List (List Char)} {tokens : List Token} (h : Scanned marker position text gaps tokens)
    {k : Nat} (hcut : CutPoint (position.symbol + k) tokens) :
    ∃ left right leftGaps rightGaps, tokens = left ++ right ∧
      Scanned marker position (text.take k) leftGaps left ∧
      Scanned marker (position.advanceAll (text.take k)) (text.drop k) rightGaps right := by
  induction h generalizing k with
  | @finished position gap hgap =>
    refine ⟨[], [], [gap.take k], [gap.drop k], rfl, .finished ?_, .finished ?_⟩
    · intro hmem
      exact hgap (List.mem_of_mem_take hmem)
    · intro hmem
      exact hgap (List.mem_of_mem_drop hmem)
  | @token position gap written rest phrase gaps tokens hgap hform hrest ih =>
    obtain ⟨hfirst, hmore⟩ := List.forall_mem_cons.1 hcut
    by_cases hk : k ≤ gap.length
    · -- in front of the token: all of the tokens stand behind the cut
      have hfront : marker ∉ gap.take k := by
        intro hmem
        exact hgap (List.mem_of_mem_take hmem)
      have hwhole := Scanned.token hgap hform hrest
      have hgapCut : gap ++ marker :: (written ++ rest) =
          gap.take k ++ (gap.drop k ++ marker :: (written ++ rest)) := by
        rw [← List.append_assoc, List.take_append_drop]
      rw [hgapCut] at hwhole
      obtain ⟨gap', more, -, hbehind⟩ := hwhole.exists_of_append hfront
      refine ⟨[], _, [gap.take k], gap' :: more, rfl, ?_, ?_⟩
      · rw [List.take_append_of_le_length hk]
        exact .finished hfront
      · rw [List.take_append_of_le_length hk, List.drop_append_of_le_length hk]
        exact hbehind
    · -- otherwise behind it, as the place is not inside
      have hstop : (Token.placed phrase (position.advanceAll gap) (marker :: written)).stop =
          (position.advanceAll gap).advanceAll (marker :: written) := rfl
      rw [hstop, Token.placed_start] at hfirst
      simp only [Position.advanceAll_eq, List.length_cons] at hfirst
      obtain ⟨m, rfl⟩ : ∃ m, k = (gap ++ marker :: written).length + m := by
        refine ⟨k - (gap ++ marker :: written).length, ?_⟩
        rw [List.length_append, List.length_cons]
        omega
      have htext : gap ++ marker :: (written ++ rest) = (gap ++ marker :: written) ++ rest := by
        rw [List.append_assoc, List.cons_append]
      have hcut' : CutPoint (((position.advanceAll gap).advanceAll (marker :: written)).symbol + m)
          tokens := by
        rw [← Position.advanceAll_append, Position.advanceAll_eq, Nat.add_assoc]
        exact hmore
      obtain ⟨left, right, leftGaps, rightGaps, rfl, hleft, hright⟩ := ih hcut'
      refine ⟨_ :: left, right, gap :: leftGaps, rightGaps, rfl, ?_, ?_⟩
      · rw [htext, List.take_length_add_append, List.append_assoc, List.cons_append]
        refine .token hgap ?_ hleft
        -- what the phrase is followed by is cut short
        rw [← List.take_append_drop m rest] at hform
        exact hform.of_prefix
      · rw [htext, List.take_length_add_append, List.drop_length_add_append,
          Position.advanceAll_append, Position.advanceAll_append]
        exact hright

/-! ### The tokens of a stretch -/

/-- Whether a token lies between the places behind `i` and behind `j` symbols. -/
def Token.liesBetween (i j : Nat) (token : Token) : Bool :=
  i ≤ token.start.symbol && token.stop.symbol ≤ j

theorem Token.liesBetween_iff {i j : Nat} {token : Token} :
    token.liesBetween i j = true ↔ i ≤ token.start.symbol ∧ token.stop.symbol ≤ j := by
  simp [liesBetween]

theorem Scanned.bounds {marker : Char} {before text : List Char} {gaps : List (List Char)}
    {tokens : List Token} (h : Scanned marker (.after before) text gaps tokens) :
    ∀ token ∈ tokens, before.length ≤ token.start.symbol ∧
      token.start.symbol < token.stop.symbol ∧
      token.stop.symbol ≤ before.length + text.length := by
  intro token hmem
  have hstart := (h.atMost_start token hmem).symbol
  have hstands := h.standsIn token hmem
  have hstop := hstands.inside.symbol
  rw [Position.after_symbol] at hstart hstop
  rw [List.length_append] at hstop
  exact ⟨hstart, hstands.nonempty.symbol, hstop⟩

/-- Of a text in three parts, the tokens between the cuts are those of the middle one. -/
theorem filter_liesBetween {marker : Char} {text : List Char} {i j : Nat}
    {leftGaps middleGaps rightGaps : List (List Char)} {left middle right : List Token}
    (hleft : Scanned marker (.after []) (text.take i) leftGaps left)
    (hmiddle : Scanned marker (.after (text.take i)) ((text.take j).drop i) middleGaps middle)
    (hright : Scanned marker (.after (text.take j)) (text.drop j) rightGaps right) :
    (left ++ middle ++ right).filter (Token.liesBetween i j) = middle := by
  have hleft' : left.filter (Token.liesBetween i j) = [] := by
    apply List.filter_eq_nil_iff.2
    intro token hmem
    have hbounds := hleft.bounds token hmem
    simp only [List.length_nil, List.length_take] at hbounds
    rw [Token.liesBetween_iff]
    omega
  have hmiddle' : middle.filter (Token.liesBetween i j) = middle := by
    apply List.filter_eq_self.2
    intro token hmem
    have hbounds := hmiddle.bounds token hmem
    simp only [List.length_take, List.length_drop] at hbounds
    rw [Token.liesBetween_iff]
    omega
  have hright' : right.filter (Token.liesBetween i j) = [] := by
    apply List.filter_eq_nil_iff.2
    intro token hmem
    have hbounds := hright.bounds token hmem
    simp only [List.length_take, List.length_drop] at hbounds
    rw [Token.liesBetween_iff]
    omega
  rw [List.filter_append, List.filter_append, hleft', hmiddle', hright', List.nil_append,
    List.append_nil]

theorem Scanned.exists_form {marker : Char} {position : Position} {text : List Char}
    {gaps : List (List Char)} {tokens : List Token} (h : Scanned marker position text gaps tokens) :
    ∀ token ∈ tokens, ∃ phrase start written rest, PhraseForm marker written phrase rest ∧
      token = .placed phrase start (marker :: written) := by
  induction h with
  | finished => simp
  | token _ hform _ ih =>
    intro token hmem
    rcases List.mem_cons.1 hmem with rfl | hmem
    · exact ⟨_, _, _, _, hform, rfl⟩
    · exact ih token hmem

/-- A phrase and its marker, alone, scan to one token. -/
theorem scanAll_phrase {marker : Char} {written rest : List Char} {phrase : Phrase}
    (h : PhraseForm marker written phrase rest) :
    scanAll marker (marker :: written) = .ok [.placed phrase {} (marker :: written)] := by
  have halone : PhraseForm marker written phrase ([] ++ []) :=
    @PhraseForm.of_prefix marker written [] rest phrase h
  have hscan : Scanned marker {} ([] ++ marker :: (written ++ [])) [[], []]
      [.placed phrase {} (marker :: written)] :=
    .token List.not_mem_nil halone (.finished List.not_mem_nil)
  rw [List.append_nil, List.nil_append] at hscan
  exact scanFrom_eq_ok_iff.2 ⟨_, hscan⟩

/-- **Scanning is local.**  Between two places that are not inside of a token, a scanned
    text scans to the tokens that lie there, and they differ only in that their places
    are counted from the first of the two.  So each token's own text scans to that one
    token. -/
theorem scanAll_stretch {marker : Char} {text : List Char} {tokens : List Token}
    (h : scanAll marker text = .ok tokens) :
    (∀ i j, i ≤ j → CutPoint i tokens → CutPoint j tokens →
      ∃ found, scanAll marker ((text.take j).drop i) = .ok found ∧
        found.map (Token.offsetBy (.after (text.take i))) =
          tokens.filter (Token.liesBetween i j)) ∧
    ∀ token ∈ tokens, ∃ alone, scanAll marker token.raw.toList = .ok [alone] ∧
      alone.offsetBy token.start = token := by
  obtain ⟨gaps, hscan⟩ := exists_scanned h
  constructor
  · intro i j hij hi hj
    obtain ⟨front, right, frontGaps, rightGaps, rfl, hfront, hright⟩ :=
      hscan.exists_cut (k := j) (by simpa using hj)
    have hi' : CutPoint i front := fun token hmem => hi token (List.mem_append_left right hmem)
    obtain ⟨left, middle, leftGaps, middleGaps, rfl, hleft, hmiddle⟩ :=
      hfront.exists_cut (k := i) (by simpa using hi')
    rw [List.take_take, Nat.min_eq_left hij] at hleft hmiddle
    obtain ⟨found, hfound, hmap⟩ :=
      @Scanned.exists_offsetBy marker (.after (text.take i)) {} _ _ _ hmiddle
    refine ⟨found, scanFrom_eq_ok_iff.2 ⟨_, hfound⟩, ?_⟩
    rw [hmap]
    exact (filter_liesBetween hleft hmiddle hright).symm
  · intro token hmem
    obtain ⟨phrase, start, written, rest, hform, rfl⟩ := hscan.exists_form token hmem
    refine ⟨.placed phrase {} (marker :: written), ?_, ?_⟩
    · rw [Token.placed_raw]
      exact scanAll_phrase hform
    · rw [Token.offsetBy_placed]
      rfl

/-- The escape between a wide symbol's token, whose terminator stands behind a space, and
    a name that takes a space in: alone, it is counted from the start of its stretch. -/
theorem scanAll_stretch_escape :
    let text := ['🌀', '$', 'a', ' ', ';', 'é', '$', '$', '$', 'b', ' ', 'c']
    ∃ tokens, scanAll '$' text = .ok tokens ∧ tokens.map (·.raw) = ["$a ;", "$$", "$b "] ∧
      CutPoint 5 tokens ∧ CutPoint 8 tokens ∧
      (∃ found, scanAll '$' ['é', '$', '$'] = .ok found ∧
        found.map (Token.offsetBy ⟨5, 6, 8⟩) =
          [⟨⟨["$"], [], none, true⟩, ⟨6, 7, 10⟩, ⟨8, 9, 12⟩, "$$"⟩]) ∧
      ∃ alone, scanAll '$' ['$', 'b', ' '] = .ok [alone] ∧
        alone.offsetBy ⟨8, 9, 12⟩ = ⟨⟨["b"], [], some ' ', false⟩, ⟨8, 9, 12⟩, ⟨11, 12, 15⟩, "$b "⟩ := by
  intro text
  let tokens : List Token := [
    ⟨⟨["a"], [], some ';', false⟩, ⟨1, 2, 4⟩, ⟨5, 6, 8⟩, "$a ;"⟩,
    ⟨⟨["$"], [], none, true⟩, ⟨6, 7, 10⟩, ⟨8, 9, 12⟩, "$$"⟩,
    ⟨⟨["b"], [], some ' ', false⟩, ⟨8, 9, 12⟩, ⟨11, 12, 15⟩, "$b "⟩]
  have hscan : scanAll '$' text = .ok tokens := by decide +kernel
  have hfive : CutPoint 5 tokens := by decide
  have height : CutPoint 8 tokens := by decide
  obtain ⟨hstretch, halone⟩ := scanAll_stretch hscan
  refine ⟨tokens, hscan, rfl, hfive, height, hstretch 5 8 (by decide) hfive height, ?_⟩
  exact halone ⟨⟨["b"], [], some ' ', false⟩, ⟨8, 9, 12⟩, ⟨11, 12, 15⟩, "$b "⟩ (by simp [tokens])

end StyleTemplate
