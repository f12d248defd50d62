/-
  **Splitting a text at a separator.**

  Nothing but the separators is lost, and no stretch holds one.
-/

namespace StyleTemplate

/-- The stretches of a text between the symbols `separator`; there is one more of
them than there are separators. -/
def splitOnSymbol (separator : Char) : List Char → List (List Char)
  | [] => [[]]
  | c :: text =>
    if c == separator then
      [] :: splitOnSymbol separator text
    else
      match splitOnSymbol separator text with
      | stretch :: more => (c :: stretch) :: more
      | [] => [[c]]

theorem splitOnSymbol_ne_nil (separator : Char) (text : List Char) :
    splitOnSymbol separator text ≠ [] := by
  fun_cases splitOnSymbol separator text <;> simp

/-- No stretch holds a separator. -/
theorem not_mem_of_mem_splitOnSymbol {separator : Char} {text stretch : List Char}
    (h : stretch ∈ splitOnSymbol separator text) : separator ∉ stretch := by
  induction text generalizing stretch with
  | nil =>
    have : stretch = [] := by simpa [splitOnSymbol] using h
    simp [this]
  | cons c text ih =>
    unfold splitOnSymbol at h
    split at h
    next =>
      cases List.mem_cons.1 h with
      | inl h => simp [h]
      | inr h => exact ih h
    next hc =>
      split at h
      next first more heq =>
        cases List.mem_cons.1 h with
        | inl h =>
          have hc' : separator ≠ c := fun e => hc (by simp [e])
          have := ih (heq ▸ List.mem_cons_self (l := more))
          simp [h, hc', this]
        | inr h => exact ih (heq ▸ List.mem_cons_of_mem first h)
      next heq => exact absurd heq (splitOnSymbol_ne_nil separator text)

/-- The stretches with separators between them are the text again. -/
theorem intercalate_splitOnSymbol (separator : Char) (text : List Char) :
    [separator].intercalate (splitOnSymbol separator text) = text := by
  induction text with
  | nil => rfl
  | cons c text ih =>
    unfold splitOnSymbol
    split
    next hc =>
      have hc : c = separator := by simpa using hc
      cases heq : splitOnSymbol separator text with
      | nil => exact absurd heq (splitOnSymbol_ne_nil separator text)
      | cons first more =>
        rw [heq] at ih
        simp [List.intercalate, List.intersperse] at ih ⊢
        exact ⟨hc.symm, ih⟩
    next =>
      split
      next first more heq =>
        rw [heq] at ih
        cases more with
        | nil => simpa [List.intercalate, List.intersperse] using ih
        | cons second more => simpa [List.intercalate, List.intersperse] using ih
      next heq => exact absurd heq (splitOnSymbol_ne_nil separator text)

theorem splitOnSymbol_eq_splitOn (separator : Char) (text : List Char) :
    splitOnSymbol separator text = text.splitOn separator := by
  induction text with
  | nil => simp [splitOnSymbol]
  | cons c text ih =>
    rw [List.splitOn_cons_eq_if_modifyHead, ← ih, splitOnSymbol]
    split
    next => rfl
    next =>
      cases heq : splitOnSymbol separator text with
      | nil => exact absurd heq (splitOnSymbol_ne_nil separator text)
      | cons stretch more => rfl

theorem mem_of_mem_intercalate {separator c : Char} {parts : List (List Char)}
    (h : c ∈ [separator].intercalate parts) : c = separator ∨ ∃ part ∈ parts, c ∈ part := by
  induction parts with
  | nil => simp at h
  | cons part parts ih =>
    cases parts with
    | nil => exact .inr ⟨part, by simp, by simpa using h⟩
    | cons second parts =>
      simp only [List.intercalate_cons_cons, List.mem_append, List.mem_singleton] at h
      rcases h with (h | h) | h
      · exact .inr ⟨part, by simp, h⟩
      · exact .inl h
      · rcases ih h with h | ⟨other, hother, h⟩
        · exact .inl h
        · exact .inr ⟨other, List.mem_cons_of_mem part hother, h⟩

theorem mem_intercalate_of_mem {separator part : List Char} {parts : List (List Char)} {c : Char}
    (hpart : part ∈ parts) (hc : c ∈ part) : c ∈ separator.intercalate parts := by
  induction parts with
  | nil => simp at hpart
  | cons first parts ih =>
    cases parts with
    | nil => simpa using List.mem_singleton.1 hpart ▸ hc
    | cons second parts =>
      rw [List.intercalate_cons_cons, List.mem_append, List.mem_append]
      rcases List.mem_cons.1 hpart with rfl | hpart
      · exact .inl (.inl hc)
      · exact .inr (ih hpart)

end StyleTemplate
