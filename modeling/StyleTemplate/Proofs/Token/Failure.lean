/-
  **Texts that cannot be scanned.**

  A text that cannot be scanned is made of gaps and tokens like any other, up to a
  marker with no phrase behind it (`ScanFails`).  The error of the scan concerns the
  stretch from that marker to where reading the phrase has stopped, and gives its
  place in both counts (`SyntaxError.LocatedIn`).
-/
import StyleTemplate.Proofs.Token.Layout

namespace StyleTemplate

/-! ### The layout up to the error -/

/-- `ScanFails marker position text error`: the text, which starts at `position`, has
    gaps and tokens up to a marker behind which no phrase can be read. -/
inductive ScanFails (marker : Char) : Position → List Char → SyntaxError → Prop where
  | malformed {position : Position} {gap body rest : List Char} {fault : Fault} :
      marker ∉ gap → Phrase.read marker body = .error (fault, rest) →
      ScanFails marker position (gap ++ marker :: body)
        (.ofFault marker (position.advanceAll gap)
          ((position.advanceAll gap).advanceAll (consumed (marker :: body) rest)) rest fault)
  | token {position : Position} {gap written rest : List Char} {phrase : Phrase}
      {error : SyntaxError} :
      marker ∉ gap → PhraseForm marker written phrase rest →
      ScanFails marker ((position.advanceAll gap).advanceAll (marker :: written)) rest error →
      ScanFails marker position (gap ++ marker :: (written ++ rest)) error

theorem scanFrom_of_failed {marker : Char} {position : Position} {text rest : List Char}
    {error : SyntaxError} (h : scanStep marker position text = .failed error rest) :
    scanFrom marker position text = .error error := by
  rw [scanFrom]
  split <;> simp_all

/-- **A scan fails exactly on the texts that have such a layout**, with its error. -/
theorem scanFrom_eq_error_iff {marker : Char} {position : Position} {text : List Char}
    {error : SyntaxError} :
    scanFrom marker position text = .error error ↔ ScanFails marker position text error := by
  constructor
  · intro h
    fun_induction scanFrom marker position text with
    | case1 => simp at h
    | case2 => simp at h
    | case3 position text token rest hstep error' hmore ih =>
      obtain ⟨gap, written, phrase, hgap, rfl, hform, rfl⟩ := exists_form_of_scanStep hstep
      obtain rfl : error' = error := by simpa using h
      exact .token hgap hform (ih hmore)
    | case4 position text error' rest hstep =>
      obtain rfl : error' = error := by simpa using h
      by_cases hmem : marker ∈ text
      · obtain ⟨gap, body, rfl, hgap⟩ := List.eq_append_cons_of_mem hmem
        rw [scanStep_append hgap] at hstep
        split at hstep
        next => simp at hstep
        next fault rest' hread =>
          obtain ⟨rfl, rfl⟩ : _ = error' ∧ rest' = rest := by simpa using hstep
          exact .malformed hgap hread
      · rw [scanStep_of_not_mem hmem] at hstep
        simp at hstep
  · intro h
    induction h with
    | malformed hgap hread =>
      apply scanFrom_of_failed
      rw [scanStep_append hgap, hread]
    | token hgap hform _ ih =>
      rw [scanFrom_of_token (scanStep_of_form hgap hform _), Token.placed, ih]
      rfl

/-! ### The place of the error -/

namespace SyntaxError

/-- Whether an error concerns a stretch of a text that starts with a marker, and gives
    the place of the marker. -/
inductive LocatedIn (marker : Char) (text : List Char) (error : SyntaxError) : Prop where
  | intro {extent : Extent} :
      error.extent? = some extent → text[extent.start]? = some marker →
      extent.stop ≤ text.length → extent.unit16 = utf16Length (text.take extent.start) →
      LocatedIn marker text error

theorem extent?_ofFault (marker : Char) (start stop : Position) (rest : List Char)
    (fault : Fault) :
    (ofFault marker start stop rest fault).extent? = some (.between start stop) := by
  match fault with
  | .emptyName | .emptySegment _ => rfl
  | .arguments _ .missing | .arguments _ .openQuote | .arguments _ .openList => rfl

end SyntaxError

theorem locatedIn_ofFault (marker : Char) (before body rest : List Char) (fault : Fault) :
    (SyntaxError.ofFault marker (.after before)
      ((Position.after before).advanceAll (consumed (marker :: body) rest)) rest fault).LocatedIn
        marker (before ++ marker :: body) := by
  apply SyntaxError.LocatedIn.intro (SyntaxError.extent?_ofFault _ _ _ _ _)
  · simp [Extent.between]
  · have hlength : (consumed (marker :: body) rest).length ≤ (marker :: body).length := by
      rw [consumed, List.length_take]
      exact Nat.min_le_right _ _
    rw [Extent.between, Position.advanceAll_eq, Position.after_symbol, List.length_append]
    dsimp only
    omega
  · simp [Extent.between]

theorem ScanFails.locatedIn {marker : Char} {position : Position} {before text : List Char}
    {error : SyntaxError} (h : ScanFails marker position text error)
    (hposition : position = .after before) : error.LocatedIn marker (before ++ text) := by
  induction h generalizing before with
  | @malformed position gap body rest fault _ hread =>
    subst hposition
    rw [← Position.after_append, ← List.append_assoc]
    exact locatedIn_ofFault marker (before ++ gap) body rest fault
  | @token position gap written rest phrase error _ _ _ ih =>
    subst hposition
    have hafter : ((Position.after before).advanceAll gap).advanceAll (marker :: written) =
        .after (before ++ gap ++ marker :: written) := by
      rw [Position.after_append, Position.after_append]
    have hrest := ih hafter
    simpa using hrest

/-- The stretch of an error does not end before it starts. -/
theorem ScanFails.start_le_stop {marker : Char} {position : Position} {text : List Char}
    {error : SyntaxError} (h : ScanFails marker position text error) :
    ∀ extent ∈ error.extent?, extent.start ≤ extent.stop := by
  induction h with
  | malformed =>
    intro extent hextent
    rw [SyntaxError.extent?_ofFault] at hextent
    obtain rfl := Option.some.inj hextent
    exact (Position.atMost_advanceAll _ _).symbol
  | token _ _ _ ih => exact ih

/-- **The error of a scan starts at a marker of the text.** -/
theorem locatedIn_of_scanAll {marker : Char} {text : List Char} {error : SyntaxError}
    (h : scanAll marker text = .error error) : error.LocatedIn marker text := by
  have hfails : ScanFails marker (.after []) text error := scanFrom_eq_error_iff.1 h
  exact hfails.locatedIn rfl

end StyleTemplate
