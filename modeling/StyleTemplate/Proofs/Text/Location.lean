/-
  **Lines and columns by line ends.**

  The line of a symbol is one more than the number of line ends before it, and its column
  is its distance from the last of them (`Location.IsAt`).  Both follow from the text
  alone, and `Location.ofOffset`, which goes by the list of line starts, finds them for
  every symbol of the text (`isAt_ofOffset`).
-/
import Mathlib.Data.List.Basic
import StyleTemplate.Text.Location

namespace StyleTemplate

/-! ### Line ends -/

/-- Whether a line ends with the symbol number `i`: a break, but no carriage return with
its line feed behind it. -/
def endsLine (text : List Char) (i : Nat) : Bool :=
  match text[i]? with
  | some c => isLineBreak c && !(c == '\r' && text[i + 1]? == some '\n')
  | none => false

/-- A location is that of the symbol number `offset`. -/
structure Location.IsAt (text : List Char) (offset : Nat) (location : Location) : Prop where
  line_eq : location.line = ((List.range offset).filter (endsLine text)).length + 1
  /-- The line starts at the start of the text or behind a line end, and none is between. -/
  column_eq : ∃ start ≤ offset, location.column = offset - start + 1 ∧
    (start = 0 ∨ ∃ i, start = i + 1 ∧ endsLine text i) ∧
    ∀ i, start ≤ i → i < offset → endsLine text i = false

theorem Location.IsAt.unique {text : List Char} {offset : Nat} {l l' : Location}
    (h : l.IsAt text offset) (h' : l'.IsAt text offset) : l = l' := by
  have hle : ∀ {start start' : Nat}, start ≤ offset →
      (start = 0 ∨ ∃ i, start = i + 1 ∧ endsLine text i) →
      (∀ i, start' ≤ i → i < offset → endsLine text i = false) → start ≤ start' := by
    rintro start start' hstart (rfl | ⟨i, rfl, hend⟩) hnone
    · exact Nat.zero_le _
    · by_contra hlt
      rw [hnone i (by omega) (by omega)] at hend
      nomatch hend
  obtain ⟨start, hstart, hcolumn, hends, hnone⟩ := h.column_eq
  obtain ⟨start', hstart', hcolumn', hends', hnone'⟩ := h'.column_eq
  have heq : start = start' :=
    Nat.le_antisymm (hle hstart hends hnone') (hle hstart' hends' hnone)
  obtain ⟨line, column⟩ := l
  obtain ⟨line', column'⟩ := l'
  obtain rfl : line = line' := h.line_eq.trans h'.line_eq.symm
  obtain rfl : column = column' := hcolumn.trans (heq ▸ hcolumn'.symm)
  rfl

/-! ### Line starts -/

/-- The line ends behind which there is text. -/
def innerLineEnds (text : List Char) : List Nat :=
  (List.range (text.length - 1)).filter (endsLine text)

theorem innerLineEnds_cons (c : Char) (text : List Char) :
    innerLineEnds (c :: text) =
      if text.isEmpty then []
      else (if endsLine (c :: text) 0 then [0] else []) ++ (innerLineEnds text).map (· + 1) := by
  cases text with
  | nil => rfl
  | cons next text =>
    have hends : endsLine (c :: next :: text) ∘ Nat.succ = endsLine (next :: text) := rfl
    rw [innerLineEnds, List.length_cons, List.length_cons, Nat.add_sub_cancel,
      List.range_succ_eq_map, List.filter_cons, List.filter_map, hends]
    simp only [List.isEmpty_cons, Bool.false_eq_true, if_false, innerLineEnds, List.length_cons,
      Nat.add_sub_cancel]
    split <;> rfl

theorem laterLineStarts_eq (offset : Nat) (text : List Char) :
    laterLineStarts offset text = (innerLineEnds text).map (offset + 1 + ·) := by
  induction offset, text using laterLineStarts.induct with
  | case1 offset => rfl
  | case2 offset text ih =>
    have hreturn : endsLine ('\r' :: '\n' :: text) 0 = false := rfl
    have hfeed : endsLine ('\n' :: text) 0 = true := rfl
    rw [laterLineStarts, ih, innerLineEnds_cons, hreturn, innerLineEnds_cons, hfeed]
    cases text with
    | nil => rfl
    | cons c text => simp [Function.comp_def, Nat.add_comm, Nat.add_left_comm]
  | case3 offset c text hnot ih =>
    have hbreak : endsLine (c :: text) 0 = isLineBreak c := by
      have hreturn : (c == '\r' && text[0]? == some '\n') = false := by
        cases text with
        | nil => simp
        | cons next text => simpa using fun hc hnext => hnot text hc (by rw [hnext])
      change (isLineBreak c && !(c == '\r' && text[0]? == some '\n')) = isLineBreak c
      rw [hreturn, Bool.not_false, Bool.and_true]
    rw [laterLineStarts, ih, innerLineEnds_cons, hbreak]
    · cases text with
      | nil => simp [innerLineEnds]
      | cons next text =>
        cases isLineBreak c <;> simp [Function.comp_def, Nat.add_comm, Nat.add_left_comm]
    · exact hnot

/-! ### Locations -/

/-- The line starts up to a symbol of the text. -/
theorem lineStarts_filter {text : List Char} {offset : Nat} (h : offset < text.length) :
    (lineStarts text).filter (· ≤ offset) =
      0 :: ((List.range offset).filter (endsLine text)).map (· + 1) := by
  obtain ⟨behind, hlength⟩ : ∃ behind, text.length - 1 = offset + behind :=
    Nat.exists_eq_add_of_le (by omega)
  have hupTo : (List.range (offset + behind)).filter (· < offset) = List.range offset := by
    have hnone : ((List.range behind).map (offset + ·)).filter (· < offset) = [] := by simp
    have hall : (List.range offset).filter (· < offset) = List.range offset := by
      simp [List.filter_eq_self]
    rw [List.range_add, List.filter_append, hnone, hall, List.append_nil]
  have hstart : (fun start => decide (start ≤ offset)) ∘ (0 + 1 + ·) = (· < offset) := by
    funext i
    have hnext : 0 + 1 + i ≤ offset ↔ i < offset := by omega
    exact decide_eq_decide.2 hnext
  rw [lineStarts, laterLineStarts_eq, innerLineEnds, hlength, List.filter_cons_of_pos (by simp),
    List.filter_map, hstart, List.filter_comm, hupTo]
  simp only [Nat.zero_add, Nat.add_comm 1]

/-- The last of the line starts up to a symbol is where its line starts. -/
theorem getLastD_lineEnds (ends : Nat → Bool) (offset : Nat) :
    let start := (0 :: ((List.range offset).filter ends).map (· + 1)).getLastD 0
    start ≤ offset ∧ (start = 0 ∨ ∃ i, start = i + 1 ∧ ends i) ∧
      ∀ i, start ≤ i → i < offset → ends i = false := by
  induction offset with
  | zero => simp
  | succ offset ih =>
    obtain ⟨hle, hstart, hnone⟩ := ih
    rw [List.range_succ, List.filter_append, List.map_append, ← List.cons_append]
    cases hend : ends offset with
    | false =>
      rw [List.filter_singleton, hend, cond_false, List.map_nil, List.append_nil]
      refine ⟨by omega, hstart, fun i hi hlt => ?_⟩
      rcases Nat.lt_succ_iff_lt_or_eq.1 hlt with hlt | rfl
      · exact hnone i hi hlt
      · exact hend
    | true =>
      have hlast : ∀ starts : List Nat,
          (starts ++ [offset].map (· + 1)).getLastD 0 = offset + 1 := by
        intro starts
        simp
      rw [List.filter_singleton, hend, cond_true, hlast]
      exact ⟨Nat.le_refl _, .inr ⟨offset, rfl, hend⟩, fun i hi hlt => absurd hlt (by omega)⟩

/-- **The location of a symbol is given by the line ends before it.** -/
theorem Location.isAt_ofOffset {text : List Char} {offset : Nat} (h : offset < text.length) :
    (Location.ofOffset text offset).IsAt text offset := by
  obtain ⟨hle, hstart, hnone⟩ := getLastD_lineEnds (endsLine text) offset
  constructor
  · simp [ofOffset, lineStarts_filter h]
  · refine ⟨_, hle, ?_, hstart, hnone⟩
    rw [ofOffset, lineStarts_filter h]

/-- A carriage return and its line feed end one line. -/
example : Location.ofOffset ['a', '\r', '\n', '\n', 'b', 'c'] 5 = ⟨3, 2⟩ := by decide

end StyleTemplate
