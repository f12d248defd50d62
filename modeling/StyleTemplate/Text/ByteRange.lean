/-
  **Stretches of a text given by byte offsets.**

  An offset counts UTF-8 bytes from the start of the text.  It is usable only
  where a symbol starts or the text ends; the operations answer `none` for an
  offset inside a symbol, beyond the end, or for a stretch that ends before it
  starts.  `splitAtByte?_eq_some_iff` says what a usable offset is.
-/
import StyleTemplate.Text.Position

namespace StyleTemplate

/-! ### Cutting in two -/

/-- The first `offset` bytes of a text and what follows them. -/
def splitAtByte? : List Char → Nat → Option (List Char × List Char)
  | text, 0 => some ([], text)
  | [], _ + 1 => none
  | c :: text, offset + 1 =>
    if c.utf8Size ≤ offset + 1 then
      (splitAtByte? text (offset + 1 - c.utf8Size)).map fun (before, behind) =>
        (c :: before, behind)
    else
      none

/-- An offset is usable exactly when it is the length of a front part, which
is then the part cut off. -/
theorem splitAtByte?_eq_some_iff {text : List Char} {offset : Nat} {before behind : List Char} :
    splitAtByte? text offset = some (before, behind) ↔
      before ++ behind = text ∧ utf8Length before = offset := by
  induction text generalizing offset before with
  | nil =>
    cases offset with
    | zero =>
      simp only [splitAtByte?, Option.some.injEq, Prod.mk.injEq, List.append_eq_nil_iff]
      constructor
      · rintro ⟨rfl, rfl⟩; simp
      · rintro ⟨⟨rfl, rfl⟩, _⟩; simp
    | succ n =>
      simp only [splitAtByte?, List.append_eq_nil_iff, false_iff, reduceCtorEq]
      rintro ⟨⟨rfl, rfl⟩, h⟩
      simp at h
  | cons c text ih =>
    have pos := c.utf8Size_pos
    cases offset with
    | zero =>
      simp only [splitAtByte?, Option.some.injEq, Prod.mk.injEq]
      constructor
      · rintro ⟨rfl, rfl⟩; simp
      · rintro ⟨h, hlen⟩
        cases before with
        | nil => exact ⟨rfl, h.symm⟩
        | cons d before => have := d.utf8Size_pos; simp at hlen; omega
    | succ n =>
      simp only [splitAtByte?]
      split
      next hle =>
        simp only [Option.map_eq_some_iff, Prod.mk.injEq]
        constructor
        · rintro ⟨⟨b, a⟩, h, rfl, rfl⟩
          obtain ⟨rfl, hb⟩ := ih.1 h
          simp only [List.cons_append, utf8Length_cons, true_and]
          omega
        · rintro ⟨h, hlen⟩
          cases before with
          | nil => simp at hlen
          | cons d before =>
            simp only [List.cons_append, List.cons.injEq, utf8Length_cons] at h hlen
            obtain ⟨rfl, rfl⟩ := h
            exact ⟨(before, behind), ih.2 ⟨rfl, by omega⟩, rfl, rfl⟩
      next hle =>
        simp only [false_iff, reduceCtorEq]
        rintro ⟨h, hlen⟩
        cases before with
        | nil => simp at hlen
        | cons d before =>
          simp only [List.cons_append, List.cons.injEq, utf8Length_cons] at h hlen
          obtain ⟨rfl, _⟩ := h
          omega

@[simp] theorem splitAtByte?_append (before behind : List Char) :
    splitAtByte? (before ++ behind) (utf8Length before) = some (before, behind) :=
  splitAtByte?_eq_some_iff.2 ⟨rfl, rfl⟩

/-! ### Stretches -/

def cutBytes? (text : List Char) (start stop : Nat) : Option (List Char) :=
  if start ≤ stop then
    match splitAtByte? text start with
    | some (_, behind) => (splitAtByte? behind (stop - start)).map Prod.fst
    | none => none
  else
    none

/-- The text with the stretch between two byte offsets replaced. -/
def replaceBytes? (text : List Char) (start stop : Nat) (replacement : List Char) :
    Option (List Char) :=
  if start ≤ stop then
    match splitAtByte? text start with
    | some (before, behind) =>
      (splitAtByte? behind (stop - start)).map fun (_, behind) =>
        before ++ replacement ++ behind
    | none => none
  else
    none

/-- The stretch that stands behind `before` is found at the lengths of what
precedes its ends. -/
theorem cutBytes?_append (before stretch behind : List Char) :
    cutBytes? (before ++ (stretch ++ behind)) (utf8Length before)
      (utf8Length before + utf8Length stretch) = some stretch := by
  simp [cutBytes?]

theorem replaceBytes?_append (before stretch behind replacement : List Char) :
    replaceBytes? (before ++ (stretch ++ behind)) (utf8Length before)
      (utf8Length before + utf8Length stretch) replacement =
        some (before ++ (replacement ++ behind)) := by
  simp [replaceBytes?]

end StyleTemplate
