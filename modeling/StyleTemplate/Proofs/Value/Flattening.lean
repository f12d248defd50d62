/-
  **Sequences in sequences lie flat.**

  A sequence is written as its items with `, ` between them, and an item that is a
  sequence itself is written in just that way.  So its items might as well stand in its
  place, at whatever depth that is (`Replaces`), and taken apart like this a sequence
  comes down to its leaves.  Only an empty sequence cannot be taken apart: without it
  there would be an item less, so it counts as an item without a text (`flat`).  Errors
  are no exception, since taking apart keeps the order.
-/
import StyleTemplate.Proofs.Value.Renderable

namespace StyleTemplate

namespace Value

/-! ### Joining -/

theorem text_sequence (items : List Value) :
    (sequence items).text = (texts items).map (", ".intercalate ·) := by
  rw [text]
  cases texts items <;> rfl

theorem text_sequence_singleton (item : Value) : (sequence [item]).text = item.text := by
  rw [text_sequence, texts]
  cases item.text <;> simp [texts, Except.map]

theorem texts_cons (item : Value) (more : List Value) :
    texts (item :: more) = item.text.bind fun part => (texts more).map (part :: ·) := by
  rw [texts]
  cases item.text with
  | error e => rfl
  | ok part => cases texts more <;> rfl

theorem texts_append (front behind : List Value) :
    texts (front ++ behind) =
      (texts front).bind fun parts => (texts behind).map (parts ++ ·) := by
  induction front with
  | nil =>
    rw [List.nil_append, texts]
    cases texts behind <;> rfl
  | cons item front ih =>
    rw [List.cons_append, texts_cons, texts_cons, ih]
    cases item.text with
    | error e => rfl
    | ok part =>
      cases texts front with
      | error e => rfl
      | ok parts => cases texts behind <;> rfl

theorem length_of_texts {items : List Value} {parts : List String} (h : texts items = .ok parts) :
    parts.length = items.length := by
  induction items generalizing parts with
  | nil =>
    obtain rfl : [] = parts := by simpa [texts] using h
    rfl
  | cons item more ih =>
    rw [texts_cons] at h
    cases htext : item.text with
    | error e => simp [htext, Except.bind] at h
    | ok part =>
      cases hmore : texts more with
      | error e => simp [htext, hmore, Except.bind, Except.map] at h
      | ok others =>
        obtain rfl : part :: others = parts := by
          simpa [htext, hmore, Except.bind, Except.map] using h
        rw [List.length_cons, List.length_cons, ih hmore]

/-- Between two stretches of items, neither of which is empty, stands one more `, `. -/
theorem text_sequence_append {front behind : List Value} (hfront : front ≠ [])
    (hbehind : behind ≠ []) :
    (sequence (front ++ behind)).text =
      (sequence front).text.bind fun a => (sequence behind).text.map fun b => a ++ ", " ++ b := by
  rw [text_sequence, text_sequence, text_sequence, texts_append]
  cases hparts : texts front with
  | error e => rfl
  | ok parts =>
    cases hothers : texts behind with
    | error e => rfl
    | ok others =>
      have hparts' : parts ≠ [] := by
        rw [← List.length_pos_iff, length_of_texts hparts]
        exact List.length_pos_iff.2 hfront
      have hothers' : others ≠ [] := by
        rw [← List.length_pos_iff, length_of_texts hothers]
        exact List.length_pos_iff.2 hbehind
      exact congrArg Except.ok (String.intercalate_append_of_ne_nil hparts' hothers')

/-! ### Taking apart -/

mutual

/-- The items that a value comes down to once every sequence in it is taken apart; an
    empty one counts as null. -/
def flat : Value → List Value
  | sequence items => if items.isEmpty then [null] else flatOf items
  | value => [value]
termination_by structural value => value

def flatOf : List Value → List Value
  | [] => []
  | item :: more => flat item ++ flatOf more
termination_by structural items => items

end

theorem flatOf_append (front behind : List Value) :
    flatOf (front ++ behind) = flatOf front ++ flatOf behind := by
  induction front with
  | nil => rfl
  | cons item front ih => rw [List.cons_append, flatOf, flatOf, ih, List.append_assoc]

theorem flatOf_singleton (item : Value) : flatOf [item] = flat item := by
  rw [flatOf, flatOf, List.append_nil]

mutual

theorem flat_ne_nil (value : Value) : flat value ≠ [] := by
  cases value with
  | sequence items =>
    rw [flat]
    split
    next => simp
    next hne => exact flatOf_ne_nil items (by simpa using hne)
  | _ => simp [flat]
termination_by structural value

theorem flatOf_ne_nil (items : List Value) (h : items ≠ []) : flatOf items ≠ [] := by
  cases items with
  | nil => exact absurd rfl h
  | cons item more =>
    rw [flatOf]
    exact List.append_ne_nil_of_left_ne_nil (flat_ne_nil item) _
termination_by structural items

end

mutual

theorem text_eq_text_flat (value : Value) : value.text = (sequence (flat value)).text := by
  cases value with
  | sequence items =>
    rw [flat]
    split
    next hempty =>
      obtain rfl : items = [] := by simpa using hempty
      rfl
    next => exact text_sequence_flatOf items
  | _ => exact (text_sequence_singleton _).symm
termination_by structural value

/-- **A sequence is written like the items that it comes down to.** -/
theorem text_sequence_flatOf (items : List Value) :
    (sequence items).text = (sequence (flatOf items)).text := by
  cases items with
  | nil => rfl
  | cons item more =>
    by_cases hmore : more = []
    · rw [hmore, flatOf_singleton, text_sequence_singleton]
      exact text_eq_text_flat item
    · have hitems := text_sequence_append (List.cons_ne_nil item []) hmore
      have hflat := text_sequence_append (flat_ne_nil item) (flatOf_ne_nil more hmore)
      rw [List.singleton_append, text_sequence_singleton] at hitems
      rw [hitems, flatOf, hflat, ← text_eq_text_flat item, ← text_sequence_flatOf more]
termination_by structural items

end

/-- The values that stand in some items, however deep in sequences. -/
inductive Nested : List Value → Value → Prop where
  | item {items : List Value} {value : Value} : value ∈ items → Nested items value
  | deeper {items inner : List Value} {value : Value} :
      .sequence inner ∈ items → Nested inner value → Nested items value

theorem not_nested_nil (value : Value) : ¬ Nested [] value := by
  intro h
  cases h with
  | item hmem => exact List.not_mem_nil hmem
  | deeper hmem => exact List.not_mem_nil hmem

theorem nested_cons_iff {item value : Value} {more : List Value} :
    Nested (item :: more) value ↔
      item = value ∨ (∃ inner, item = .sequence inner ∧ Nested inner value) ∨
        Nested more value := by
  constructor
  · intro h
    cases h with
    | item hmem =>
      rcases List.mem_cons.1 hmem with rfl | hmem
      · exact .inl rfl
      · exact .inr (.inr (.item hmem))
    | deeper hmem hinner =>
      rcases List.mem_cons.1 hmem with heq | hmem
      · exact .inr (.inl ⟨_, heq.symm, hinner⟩)
      · exact .inr (.inr (.deeper hmem hinner))
  · rintro (rfl | ⟨inner, rfl, hinner⟩ | hmore)
    · exact .item List.mem_cons_self
    · exact .deeper List.mem_cons_self hinner
    · cases hmore with
      | item hmem => exact .item (List.mem_cons_of_mem item hmem)
      | deeper hmem hinner => exact .deeper (List.mem_cons_of_mem item hmem) hinner

mutual

theorem flat_eq_leaves (value : Value) (hvalue : value ≠ .sequence [])
    (h : ∀ items, value = .sequence items → ¬ Nested items (.sequence [])) :
    flat value = value.leaves := by
  cases value with
  | sequence items =>
    have hne : items.isEmpty = false := by
      cases items with
      | nil => exact absurd rfl hvalue
      | cons => rfl
    rw [flat, leaves, hne]
    exact flatOf_eq_leavesOf items (h items rfl)
  | _ => rfl
termination_by structural value

/-- Without an empty sequence among them, items come down to their leaves. -/
theorem flatOf_eq_leavesOf (items : List Value) (h : ¬ Nested items (.sequence [])) :
    flatOf items = leavesOf items := by
  cases items with
  | nil => rfl
  | cons item more =>
    rw [nested_cons_iff, not_or, not_or] at h
    obtain ⟨hitem, hdeeper, hmore⟩ := h
    rw [flatOf, leavesOf, flat_eq_leaves item hitem, flatOf_eq_leavesOf more hmore]
    intro inner heq hinner
    exact hdeeper ⟨inner, heq, hinner⟩
termination_by structural items

end

/-! ### Replacing items -/

/-- `Replaces old new value value'`: in one place, at whatever depth, the items `new` of a
    sequence stand in `value'` where `old` stand in `value`. -/
inductive Replaces (old new : List Value) : Value → Value → Prop where
  | items {front behind : List Value} :
      Replaces old new (.sequence (front ++ (old ++ behind)))
        (.sequence (front ++ (new ++ behind)))
  | inItem {front behind : List Value} {value value' : Value} :
      Replaces old new value value' →
      Replaces old new (.sequence (front ++ value :: behind))
        (.sequence (front ++ value' :: behind))
  | inEntry {front behind : Entries Value} {key : String} {value value' : Value} :
      Replaces old new value value' →
      Replaces old new (.mapping (front ++ (key, value) :: behind))
        (.mapping (front ++ (key, value') :: behind))

section Replaces

variable {old new : List Value} {value value' : Value}

theorem Replaces.text_eq (hflat : flatOf old = flatOf new) (h : Replaces old new value value') :
    value.text = value'.text := by
  induction h with
  | items =>
    rw [text_sequence_flatOf, text_sequence_flatOf (_ ++ (new ++ _))]
    simp only [flatOf_append, hflat]
  | inItem _ ih => rw [text_sequence, text_sequence, texts_append, texts_append, texts_cons,
      texts_cons, ih]
  | inEntry => rfl

theorem Replaces.propertyText_eq (hflat : flatOf old = flatOf new)
    (h : Replaces old new value value') (key : String) :
    propertyText key value = propertyText key value' := by
  have htext := h.text_eq hflat
  cases h with
  | items | inItem => exact htext
  | inEntry => rfl

theorem propertyLines_congr {key : String} (h : propertyText key value = propertyText key value')
    (front behind : Entries Value) :
    propertyLines (front ++ (key, value) :: behind) =
      propertyLines (front ++ (key, value') :: behind) := by
  induction front with
  | nil => rw [List.nil_append, List.nil_append, propertyLines, propertyLines, h]
  | cons entry front ih => rw [List.cons_append, List.cons_append, propertyLines, propertyLines, ih]

/-- **What comes down to the same items can be put in the place of items**, at any depth. -/
theorem Replaces.replacement_eq (hflat : flatOf old = flatOf new)
    (h : Replaces old new value value') (suffix : Option Char) :
    value.replacement suffix = value'.replacement suffix := by
  have htext := h.text_eq hflat
  cases h with
  | items | inItem =>
    rw [replacement_eq_map_text (.inr ⟨_, rfl⟩), replacement_eq_map_text (.inr ⟨_, rfl⟩), htext]
  | inEntry hvalue =>
    rw [replacement, replacement, propertyLines_congr (hvalue.propertyText_eq hflat _)]

theorem Replaces.resolve_eq {σ : Type} (hflat : flatOf old = flatOf new)
    (h : Replaces old new value value') (host : Host σ) (args : List String)
    (suffix : Option Char) (state : σ) :
    resolve host value args suffix state = resolve host value' args suffix state := by
  have hreplacement := h.replacement_eq hflat suffix
  cases h <;> exact congrArg (·, state) hreplacement

end Replaces

end Value

open Value

/-- **Sequences in sequences lie flat.**  The items of a sequence that is not empty can
    stand in its place in another one, at any depth, and nothing changes in what is
    written, nor in the error if nothing is.  So a sequence with no empty one in it is
    written as its leaves from left to right, with `, ` between them; and an empty one is
    written like a null. -/
theorem resolve_flattened {σ : Type} (host : Host σ) (args : List String) (suffix : Option Char)
    (state : σ) :
    (∀ inner value value', inner ≠ [] → Replaces [.sequence inner] inner value value' →
      resolve host value args suffix state = resolve host value' args suffix state) ∧
    (∀ items, ¬ Nested items (.sequence []) →
      (resolve host (.sequence items) args suffix state).1 =
        (texts (leavesOf items)).map fun parts => ", ".intercalate parts ++ suffixText suffix) ∧
    ∀ value value', Replaces [.sequence []] [.null] value value' →
      resolve host value args suffix state = resolve host value' args suffix state := by
  refine ⟨?_, ?_, ?_⟩
  · intro inner value value' hinner h
    refine h.resolve_eq ?_ host args suffix state
    rw [flatOf_singleton, flat, if_neg (by simpa using hinner)]
  · intro items hitems
    have hreplacement := replacement_eq_map_text (.inr ⟨items, rfl⟩) suffix
    rw [text_sequence_flatOf, flatOf_eq_leavesOf items hitems, text_sequence] at hreplacement
    rw [resolve_of_called_some rfl, hreplacement]
    cases texts (leavesOf items) <;> rfl
  · intro value value' h
    have hflat : flatOf [.sequence []] = flatOf [.null] := rfl
    exact h.resolve_eq hflat host args suffix state

/-- A sequence in a sequence gives way to its items in front of a function, which is still
    the first item that cannot be written; without the function the leaves are joined, and
    an empty sequence behind them would be written as a null. -/
theorem resolve_flattened_deep :
    let host : Host Unit := ⟨fun _ _ state => (none, state)⟩
    let inner : List Value := [.string "a", .sequence [.boolean true]]
    let deep : List Value := [.integer 1, .sequence [.sequence inner, .null]]
    let failing (items : List Value) : Value :=
      .sequence [.sequence (items ++ [.function 0]), .mapping []]
    (∀ suffix, resolve host (failing [.sequence inner]) [] suffix () =
      resolve host (failing inner) [] suffix ()) ∧
    (resolve host (failing inner) [] none ()).1 = .error (.invalidSequenceElement .function) ∧
    (resolve host (.sequence deep) [] (some ';') ()).1 = .ok "1, a, true, ;" ∧
    (resolve host (.sequence (deep ++ [.sequence []])) [] (some ';') ()).1 =
      .ok "1, a, true, , ;" := by
  intro host inner deep failing
  have hinner : inner ≠ [] := by simp [inner]
  have hplace : Replaces [.sequence inner] inner (failing [.sequence inner]) (failing inner) :=
    @Replaces.inItem _ _ [] [.mapping []] _ _ (@Replaces.items _ _ [] [.function 0])
  have hnested : ¬ Nested deep (.sequence []) := by
    simp [deep, inner, nested_cons_iff, not_nested_nil]
  have hempty : Replaces [.sequence []] [.null] (.sequence (deep ++ [.sequence []]))
      (.sequence (deep ++ [.null])) := @Replaces.items _ _ deep []
  obtain ⟨hflat, -, -⟩ := resolve_flattened host [] none ()
  obtain ⟨-, hleaves, hnull⟩ := resolve_flattened host [] (some ';') ()
  refine ⟨?_, rfl, hleaves deep hnested, ?_⟩
  · intro suffix
    exact (resolve_flattened host [] suffix ()).1 inner _ _ hinner hplace
  · rw [hnull _ _ hempty]
    rfl

end StyleTemplate
