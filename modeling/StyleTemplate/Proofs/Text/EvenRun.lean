/-
  **Runs of one symbol at the end of a text.**

  Where a symbol pairs up with the next of its kind, as a doubled marker or a backslash
  before a backslash does, what matters of the text in front is whether the run of them at
  its end has an even length (`EvenRun`).  A text that ends so can be put in front of any
  other without a change of that (`evenRun_append_iff`).
-/
import Mathlib.Algebra.Group.Nat.Even
import Mathlib.Data.List.DropRight

namespace StyleTemplate

/-- Whether the run of markers at the end of a text has an even length. -/
def EvenRun (marker : Char) (text : List Char) : Prop :=
  Even (text.rtakeWhile (· == marker)).length

instance (marker : Char) (text : List Char) : Decidable (EvenRun marker text) :=
  inferInstanceAs (Decidable (Even _))

section EvenRun

variable {marker : Char}

theorem evenRun_concat_marker {text : List Char} :
    EvenRun marker (text ++ [marker]) ↔ ¬ EvenRun marker text := by
  rw [EvenRun, List.rtakeWhile_concat_pos _ _ _ (by simp), List.length_append, List.length_singleton,
    Nat.even_add_one]
  rfl

theorem evenRun_concat_of_ne {c : Char} (h : c ≠ marker) (text : List Char) :
    EvenRun marker (text ++ [c]) := by
  rw [EvenRun, List.rtakeWhile_concat_neg _ _ _ (by simpa using h)]
  exact Nat.even_iff.2 rfl

theorem evenRun_append_iff {front : List Char} (h : EvenRun marker front) (text : List Char) :
    EvenRun marker (front ++ text) ↔ EvenRun marker text := by
  induction text using List.reverseRecOn with
  | nil => simpa [EvenRun] using h
  | append_singleton text c ih =>
    rw [← List.append_assoc]
    by_cases hc : c = marker
    · rw [hc, evenRun_concat_marker, evenRun_concat_marker, ih]
    · exact ⟨fun _ => evenRun_concat_of_ne hc text, fun _ => evenRun_concat_of_ne hc _⟩

theorem EvenRun.append {front text : List Char} (hfront : EvenRun marker front)
    (htext : EvenRun marker text) : EvenRun marker (front ++ text) :=
  (evenRun_append_iff hfront text).2 htext

theorem evenRun_of_not_mem {text : List Char} (h : marker ∉ text) : EvenRun marker text := by
  induction text using List.reverseRecOn with
  | nil => exact Nat.even_iff.2 rfl
  | append_singleton text c _ =>
    apply evenRun_concat_of_ne
    rintro rfl
    exact h (by simp)

/-- A marker and the symbol behind it leave no marker that could pair up with a later
    one. -/
theorem evenRun_pair (marker c : Char) : EvenRun marker [marker, c] := by
  by_cases hc : c = marker
  · subst hc
    have hlength : ([c, c].rtakeWhile (· == c)).length = 2 := by simp [List.rtakeWhile]
    rw [EvenRun, hlength]
    exact Nat.even_iff.2 rfl
  · exact evenRun_concat_of_ne hc [marker]

end EvenRun

end StyleTemplate
