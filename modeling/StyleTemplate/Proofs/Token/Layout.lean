/-
  **The layout of a scanned text.**

  A text that can be scanned is made of gaps, which hold no marker, and of
  tokens between them (`Scanned`).  From this one description of a scan follow
  the facts that replacing tokens rests on: where they stand, that they do not
  overlap, that no marker is left outside of them, and that gaps and tokens
  together are the text.
-/
import StyleTemplate.Proofs.Token.Reading

namespace StyleTemplate

/-! ### Gaps and tokens -/

/-- `Scanned marker position text gaps tokens`: the text, which starts at
    `position`, is the gaps with the tokens between them. -/
inductive Scanned (marker : Char) :
    Position → List Char → List (List Char) → List Token → Prop where
  | finished {position : Position} {gap : List Char} :
      marker ∉ gap → Scanned marker position gap [gap] []
  | token {position : Position} {gap written rest : List Char} {phrase : Phrase}
      {gaps : List (List Char)} {tokens : List Token} :
      marker ∉ gap → PhraseForm marker written phrase rest →
      Scanned marker ((position.advanceAll gap).advanceAll (marker :: written)) rest gaps tokens →
      Scanned marker position (gap ++ marker :: (written ++ rest)) (gap :: gaps)
        (.placed phrase (position.advanceAll gap) (marker :: written) :: tokens)

theorem scanFrom_of_finished {marker : Char} {position : Position} {text : List Char}
    (h : scanStep marker position text = .finished) : scanFrom marker position text = .ok [] := by
  rw [scanFrom]
  split <;> simp_all

theorem scanFrom_of_token {marker : Char} {position : Position} {text rest : List Char}
    {token : Token} (h : scanStep marker position text = .token token rest) :
    scanFrom marker position text = (scanFrom marker token.stop rest).map (token :: ·) := by
  rw [scanFrom]
  split
  next hstep => simp [hstep] at h
  next token' rest' hstep =>
    obtain ⟨rfl, rfl⟩ : token' = token ∧ rest' = rest := by simpa [hstep] using h
    split <;> simp_all [Except.map]
  next hstep => simp [hstep] at h

/-- **A scan succeeds exactly on the texts that have a layout**, and finds its
    tokens. -/
theorem scanFrom_eq_ok_iff {marker : Char} {position : Position} {text : List Char}
    {tokens : List Token} :
    scanFrom marker position text = .ok tokens ↔
      ∃ gaps, Scanned marker position text gaps tokens := by
  constructor
  · intro h
    fun_induction scanFrom marker position text generalizing tokens with
    | case1 position text hstep =>
      obtain rfl : tokens = [] := by simpa [eq_comm] using h
      refine ⟨[text], .finished fun hmem => ?_⟩
      obtain ⟨gap, body, rfl, hgap⟩ := List.eq_append_cons_of_mem hmem
      rw [scanStep_append hgap] at hstep
      split at hstep <;> simp at hstep
    | case2 position text token rest hstep more hmore ih =>
      obtain ⟨gap, written, phrase, hgap, rfl, hform, rfl⟩ := exists_form_of_scanStep hstep
      obtain ⟨gaps, hgaps⟩ := ih hmore
      obtain rfl : tokens = _ := by simpa [eq_comm] using h
      exact ⟨gap :: gaps, .token hgap hform hgaps⟩
    | case3 => simp at h
    | case4 => simp at h
  · rintro ⟨gaps, h⟩
    induction h with
    | finished hgap => exact scanFrom_of_finished (scanStep_of_not_mem hgap _)
    | token hgap hform _ ih =>
      rw [scanFrom_of_token (scanStep_of_form hgap hform _), Token.placed, ih]
      rfl

theorem exists_scanned {marker : Char} {text : List Char} {tokens : List Token}
    (h : scanAll marker text = .ok tokens) :
    ∃ gaps, Scanned marker (.after []) text gaps tokens :=
  scanFrom_eq_ok_iff.1 h

/-- Text without a marker in front of a scanned text is part of its first gap. -/
theorem Scanned.exists_append {marker : Char} {position : Position} {front text : List Char}
    {gaps : List (List Char)} {tokens : List Token} (hfront : marker ∉ front)
    (h : Scanned marker (position.advanceAll front) text gaps tokens) :
    ∃ gap more, gaps = gap :: more ∧
      Scanned marker position (front ++ text) ((front ++ gap) :: more) tokens := by
  cases h with
  | finished hgap =>
    exact ⟨text, [], rfl, .finished (by simp [hfront, hgap])⟩
  | @token _ gap written rest phrase gaps tokens hgap hform hrest =>
    refine ⟨gap, gaps, rfl, ?_⟩
    have hgap' : marker ∉ front ++ gap := by simp [hfront, hgap]
    rw [← Position.advanceAll_append position front gap] at hrest ⊢
    rw [← List.append_assoc]
    exact .token hgap' hform hrest

/-- What stands in front of the first marker can be taken off the first gap. -/
theorem Scanned.exists_of_append {marker : Char} {position : Position} {front text : List Char}
    {gaps : List (List Char)} {tokens : List Token} (hfront : marker ∉ front)
    (h : Scanned marker position (front ++ text) gaps tokens) :
    ∃ gap more, gaps = (front ++ gap) :: more ∧
      Scanned marker (position.advanceAll front) text (gap :: more) tokens := by
  generalize hwhole : front ++ text = whole at h
  cases h with
  | finished hgap =>
    subst hwhole
    exact ⟨text, [], rfl, .finished (by simp_all)⟩
  | @token _ gap written rest phrase gaps tokens hgap hform hrest =>
    obtain ⟨gap, rfl, rfl⟩ := exists_of_append_eq hfront hwhole
    refine ⟨gap, gaps, rfl, ?_⟩
    rw [Position.advanceAll_append position front gap] at hrest ⊢
    exact .token (by simp_all) hform hrest

theorem Scanned.exists_cons {marker : Char} {before text : List Char} {gaps : List (List Char)}
    {token : Token} {tokens : List Token}
    (h : Scanned marker (.after before) text gaps (token :: tokens)) :
    ∃ gap written rest phrase more,
      text = gap ++ marker :: (written ++ rest) ∧ gaps = gap :: more ∧
      token = .placed phrase (.after (before ++ gap)) (marker :: written) ∧
      Scanned marker (.after (before ++ gap ++ marker :: written)) rest more tokens := by
  cases h with
  | @token _ gap written rest phrase more _ _ _ hrest =>
    rw [← Position.after_append, ← Position.after_append] at hrest
    rw [← Position.after_append]
    exact ⟨gap, written, rest, phrase, more, rfl, rfl, rfl, hrest⟩

/-- Induction on a scan that keeps in view what stands before the scanned text. -/
@[elab_as_elim]
theorem Scanned.after_induction {marker : Char}
    {motive : ∀ before text gaps tokens, Scanned marker (.after before) text gaps tokens → Prop}
    (finished : ∀ {before gap} (hgap : marker ∉ gap), motive before gap [gap] [] (.finished hgap))
    (token : ∀ {before gap written rest phrase gaps tokens}
      (hrest : Scanned marker (.after (before ++ gap ++ marker :: written)) rest gaps tokens)
      (hwhole : Scanned marker (.after before) (gap ++ marker :: (written ++ rest)) (gap :: gaps)
        (.placed phrase (.after (before ++ gap)) (marker :: written) :: tokens)),
      motive (before ++ gap ++ marker :: written) rest gaps tokens hrest →
      motive before _ _ _ hwhole)
    {before text : List Char} {gaps : List (List Char)} {tokens : List Token}
    (h : Scanned marker (.after before) text gaps tokens) :
    motive before text gaps tokens h := by
  induction tokens generalizing before text gaps with
  | nil =>
    cases h with
    | finished hgap => exact finished hgap
  | cons first tokens ih =>
    obtain ⟨gap, written, rest, phrase, more, rfl, rfl, rfl, hrest⟩ := h.exists_cons
    exact token hrest h (ih hrest)

/-! ### Gaps by their byte offsets -/

/-- The stretches of a text from a byte offset on that are left between some
    tokens, which are given from left to right; none if the tokens are not
    stretches of the text in that order. -/
def gapsFrom? (text : List Char) (start : Nat) : List Token → Option (List (List Char))
  | [] => (cutBytes? text start (utf8Length text)).map fun gap => [gap]
  | token :: tokens =>
    match cutBytes? text start token.start.byte, gapsFrom? text token.stop.byte tokens with
    | some gap, some gaps => some (gap :: gaps)
    | _, _ => none

/-- The stretches of a text before, between and behind its tokens. -/
def gaps? (text : List Char) (tokens : List Token) : Option (List (List Char)) :=
  gapsFrom? text 0 tokens

/-- The gaps with one text each put between them. -/
def interleave : List (List Char) → List (List Char) → List Char
  | gap :: gaps, text :: texts => gap ++ (text ++ interleave gaps texts)
  | gaps, _ => gaps.flatten

theorem Scanned.gapsFrom?_eq {marker : Char} {before text : List Char} {gaps : List (List Char)}
    {tokens : List Token} (h : Scanned marker (.after before) text gaps tokens) :
    gapsFrom? (before ++ text) (utf8Length before) tokens = some gaps := by
  induction h using Scanned.after_induction with
  | @finished before gap _ =>
    have hcut := cutBytes?_append before gap []
    rw [List.append_nil] at hcut
    simp [gapsFrom?, hcut]
  | @token before gap written rest phrase gaps tokens _ _ ih =>
    have hcut := cutBytes?_append before gap (marker :: (written ++ rest))
    simp only [List.append_assoc, List.cons_append] at ih
    simp only [gapsFrom?, Token.placed_start, Token.placed_after_stop, Position.after_byte,
      utf8Length_append before gap, List.append_assoc, hcut, ih]

theorem Scanned.interleave_raw {marker : Char} {position : Position} {text : List Char}
    {gaps : List (List Char)} {tokens : List Token} (h : Scanned marker position text gaps tokens) :
    interleave gaps (tokens.map (·.raw.toList)) = text := by
  induction h with
  | finished => simp [interleave]
  | token _ _ _ ih => simp [interleave, Token.placed, ih]

/-! ### Places of tokens -/

namespace Position

/-- Whether one place is before another, in all three counts. -/
structure Before (p q : Position) : Prop where
  symbol : p.symbol < q.symbol
  unit16 : p.unit16 < q.unit16
  byte : p.byte < q.byte

/-- Whether one place is before another or the same, in all three counts. -/
structure AtMost (p q : Position) : Prop where
  symbol : p.symbol ≤ q.symbol
  unit16 : p.unit16 ≤ q.unit16
  byte : p.byte ≤ q.byte

theorem AtMost.trans {p q r : Position} (h : p.AtMost q) (h' : q.AtMost r) : p.AtMost r :=
  ⟨Nat.le_trans h.symbol h'.symbol, Nat.le_trans h.unit16 h'.unit16,
    Nat.le_trans h.byte h'.byte⟩

theorem atMost_advanceAll (p : Position) (text : List Char) : p.AtMost (p.advanceAll text) := by
  rw [advanceAll_eq]
  constructor <;> dsimp only <;> omega

theorem utf16Size_pos (c : Char) : 0 < utf16Size c := by
  unfold utf16Size
  split <;> omega

theorem before_advanceAll_cons (p : Position) (c : Char) (text : List Char) :
    p.Before (p.advanceAll (c :: text)) := by
  have h16 := utf16Size_pos c
  have h8 := c.utf8Size_pos
  rw [advanceAll_eq]
  constructor <;> simp only [List.length_cons, utf16Length_cons, utf8Length_cons] <;> omega

end Position

/-- A token as a stretch of a text: its three ranges are not empty, lie inside the
    text and describe one stretch, which is the token's own text and starts with
    the marker. -/
structure Token.StandsIn (marker : Char) (text : List Char) (token : Token) : Prop where
  nonempty : token.start.Before token.stop
  inside : token.stop.AtMost (.after text)
  start_eq : token.start = .after (text.take token.start.symbol)
  stop_eq : token.stop = .after (text.take token.stop.symbol)
  raw_eq : cutBytes? text token.start.byte token.stop.byte = some token.raw.toList
  marked : token.raw.toList.head? = some marker

theorem Token.placed_standsIn (marker : Char) (phrase : Phrase) (before written rest : List Char) :
    (Token.placed phrase (.after before) (marker :: written)).StandsIn marker
      (before ++ (marker :: written ++ rest)) := by
  constructor
  · rw [placed_start, placed_after_stop, Position.after_append]
    exact Position.before_advanceAll_cons _ _ _
  · rw [placed_after_stop, ← List.append_assoc, Position.after_append _ rest]
    exact Position.atMost_advanceAll _ _
  · rw [placed_start, Position.after_symbol, List.take_left]
  · rw [placed_after_stop, ← List.append_assoc, Position.after_symbol, List.take_left]
  · rw [placed_start, placed_after_stop, placed_raw, Position.after_byte, Position.after_byte,
      utf8Length_append, cutBytes?_append]
  · rw [placed_raw, List.head?_cons]

theorem Scanned.standsIn {marker : Char} {before text : List Char} {gaps : List (List Char)}
    {tokens : List Token} (h : Scanned marker (.after before) text gaps tokens) :
    ∀ token ∈ tokens, token.StandsIn marker (before ++ text) := by
  induction h using Scanned.after_induction with
  | finished => simp
  | @token before gap written rest phrase gaps tokens _ _ ih =>
    intro token hmem
    rcases List.mem_cons.1 hmem with rfl | hmem
    · have hfirst := Token.placed_standsIn marker phrase (before ++ gap) written rest
      rwa [List.append_assoc, List.cons_append] at hfirst
    · simpa using ih token hmem

theorem Scanned.atMost_start {marker : Char} {position : Position} {text : List Char}
    {gaps : List (List Char)} {tokens : List Token} (h : Scanned marker position text gaps tokens) :
    ∀ token ∈ tokens, position.AtMost token.start := by
  induction h with
  | finished => simp
  | @token position gap written rest phrase gaps tokens _ _ _ ih =>
    have hgap := position.atMost_advanceAll gap
    intro token hmem
    rcases List.mem_cons.1 hmem with rfl | hmem
    · exact hgap
    · exact (hgap.trans (Position.atMost_advanceAll _ _)).trans (ih token hmem)

/-- Every token ends before the next one starts. -/
theorem Scanned.pairwise_atMost {marker : Char} {position : Position} {text : List Char}
    {gaps : List (List Char)} {tokens : List Token} (h : Scanned marker position text gaps tokens) :
    tokens.Pairwise fun a b => a.stop.AtMost b.start := by
  induction h with
  | finished => exact .nil
  | token _ _ hrest ih => exact .cons hrest.atMost_start ih

/-- No marker is left outside the tokens. -/
theorem Scanned.exists_token_of_marker {marker : Char} {position : Position} {text : List Char}
    {gaps : List (List Char)} {tokens : List Token} (h : Scanned marker position text gaps tokens)
    {i : Nat} (hi : text[i]? = some marker) :
    ∃ token ∈ tokens, token.start.symbol ≤ position.symbol + i ∧
      position.symbol + i < token.stop.symbol := by
  induction h generalizing i with
  | finished hgap => exact absurd (List.mem_of_getElem? hi) hgap
  | @token position gap written rest phrase gaps tokens hgap _ _ ih =>
    have hstop : ((position.advanceAll gap).advanceAll (marker :: written)).symbol =
        position.symbol + gap.length + (written.length + 1) := by
      simp [Position.advanceAll_eq]
    have hstart : (position.advanceAll gap).symbol = position.symbol + gap.length := by
      simp [Position.advanceAll_eq]
    by_cases hin : i < gap.length
    · rw [List.getElem?_append_left hin] at hi
      exact absurd (List.mem_of_getElem? hi) hgap
    · by_cases hlen : i < gap.length + (written.length + 1)
      · refine ⟨_, List.mem_cons_self, ?_, ?_⟩
        · rw [Token.placed, hstart]
          omega
        · rw [Token.placed, hstop]
          omega
      · have hi' : rest[i - (gap.length + (written.length + 1))]? = some marker := by
          rw [← hi, ← List.cons_append, ← List.append_assoc,
            List.getElem?_append_right (by simp; omega)]
          simp
        obtain ⟨token, hmem, hle, hlt⟩ := ih hi'
        refine ⟨token, List.mem_cons_of_mem _ hmem, ?_, ?_⟩ <;> omega

/-- **Tokens and gaps partition a text.**  The tokens of a scan stand in the text
    where they say, from left to right and apart from each other; every marker is
    inside of one; and the gaps between them with their own texts put back are
    the text. -/
theorem scanAll_partition {marker : Char} {text : List Char} {tokens : List Token}
    (h : scanAll marker text = .ok tokens) :
    (∀ token ∈ tokens, token.StandsIn marker text) ∧
      tokens.Pairwise (fun a b => a.stop.AtMost b.start) ∧
      (∀ i, text[i]? = some marker →
        ∃ token ∈ tokens, token.start.symbol ≤ i ∧ i < token.stop.symbol) ∧
      ∃ gaps, gaps? text tokens = some gaps ∧
        interleave gaps (tokens.map (·.raw.toList)) = text := by
  obtain ⟨gaps, hscan⟩ := exists_scanned h
  refine ⟨hscan.standsIn, hscan.pairwise_atMost, ?_, gaps, hscan.gapsFrom?_eq,
    hscan.interleave_raw⟩
  intro i hi
  simpa using hscan.exists_token_of_marker hi

/-- The marker is a space here: the escape made of two spaces takes in a third one
    as its suffix, and the name behind the wide symbol a fourth. -/
theorem scanAll_partition_spaces :
    let text := [' ', ' ', ' ', '🌀', ' ', 'a', ' ']
    ∃ tokens, scanAll ' ' text = .ok tokens ∧ tokens.map (·.raw) = ["   ", " a "] ∧
      (∀ token ∈ tokens, token.StandsIn ' ' text) ∧
      tokens.Pairwise (fun a b => a.stop.AtMost b.start) ∧
      ∃ gaps, gaps? text tokens = some gaps ∧
        interleave gaps (tokens.map (·.raw.toList)) = text := by
  intro text
  have hscan : scanAll ' ' text = .ok [
      ⟨⟨[" "], [], some ' ', true⟩, ⟨0, 0, 0⟩, ⟨3, 3, 3⟩, "   "⟩,
      ⟨⟨["a"], [], some ' ', false⟩, ⟨4, 5, 7⟩, ⟨7, 8, 10⟩, " a "⟩] := by
    decide +kernel
  obtain ⟨hstands, hpairs, _, hgaps⟩ := scanAll_partition hscan
  exact ⟨_, hscan, rfl, hstands, hpairs, hgaps⟩

end StyleTemplate
