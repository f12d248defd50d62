/-
  **What can be written, and what the first thing in the way of it is.**

  Writing goes through a value in one order: a mapping by its entries, a sequence depth
  first from left to right.  Taken apart into its leaves (`Value.leaves`), a sequence can
  be written if no leaf is foreign to it, and otherwise its error is that of the first
  leaf that is (`Value.texts_eq_error_iff`).  A mapping can be written if each of its
  values is a scalar or a sequence of that sort.  So a shape settles whether a value can
  be written (`Value.Renderable`), and the first offence against it is the error
  (`Value.Offends`).  A suffix has no say in either, and comes behind what is written.
-/
import Mathlib.Data.List.Monad
import StyleTemplate.Value.Rendering

namespace StyleTemplate

namespace Value

/-! ### Shapes -/

/-- Whether a value is a scalar other than null. -/
def isScalar : Value → Bool
  | .boolean _ | .integer _ | .bigInteger _ | .float _ | .string _ => true
  | _ => false

/-- Whether a value has no place in a sequence. -/
def isForeign : Value → Bool
  | .mapping _ | .function _ => true
  | _ => false

mutual

/-- What is left of a value once every sequence in it is taken apart, from left to right. -/
def leaves : Value → List Value
  | sequence items => leavesOf items
  | value => [value]
termination_by structural value => value

def leavesOf : List Value → List Value
  | [] => []
  | item :: more => leaves item ++ leavesOf more
termination_by structural items => items

end

/-- Whether no mapping and no function is among some items, however deep in sequences. -/
def Joinable (items : List Value) : Prop :=
  ∀ leaf ∈ leavesOf items, leaf.isForeign = false

/-- Whether a value can stand in a property: a scalar, or a sequence without mappings and
    functions. -/
def IsProperty (value : Value) : Prop :=
  value.isScalar = true ∨ ∃ items, value = .sequence items ∧ Joinable items

/-- The values that can be written. -/
inductive Renderable : Value → Prop where
  | null : Renderable .null
  | scalar {value : Value} : value.isScalar = true → Renderable value
  | sequence {items : List Value} : Joinable items → Renderable (.sequence items)
  | mapping {entries : Entries Value} :
      (∀ entry ∈ entries, IsProperty entry.2) → Renderable (.mapping entries)

/-- `value.Offends error`: going through the value in order, the first thing that cannot be
    written is what the error names. -/
inductive Offends : Value → ResolveError → Prop where
  /-- A mapping or a function in a sequence, with nothing of the sort before it. -/
  | element {items front behind : List Value} {leaf : Value} :
      leavesOf items = front ++ leaf :: behind → (∀ other ∈ front, other.isForeign = false) →
      leaf.isForeign = true → Offends (.sequence items) (.invalidSequenceElement leaf.kind)
  /-- A null, a mapping or a function under a key, behind proper entries. -/
  | property {front behind : Entries Value} {key : String} {value : Value} :
      (∀ entry ∈ front, IsProperty entry.2) → value = .null ∨ value.isForeign = true →
      Offends (.mapping (front ++ (key, value) :: behind)) (.invalidPropertyValue key value.kind)
  /-- A sequence under a key that cannot be written, behind proper entries. -/
  | propertyElement {front behind : Entries Value} {key : String} {items : List Value}
      {error : ResolveError} :
      (∀ entry ∈ front, IsProperty entry.2) → Offends (.sequence items) error →
      Offends (.mapping (front ++ (key, .sequence items) :: behind)) error

/-! ### Scalars and sequences -/

theorem texts_cons_eq_error_iff {item : Value} {more : List Value} {error : ResolveError} :
    texts (item :: more) = .error error ↔
      item.text = .error error ∨ (∀ e, item.text ≠ .error e) ∧ texts more = .error error := by
  rw [texts]
  cases item.text with
  | error e => simp
  | ok part => cases texts more <;> simp

mutual

theorem text_eq_error_iff (value : Value) (error : ResolveError) :
    value.text = .error error ↔ ∃ leaf, value.leaves.find? isForeign = some leaf ∧
      .invalidSequenceElement leaf.kind = error := by
  cases value with
  | sequence items =>
    rw [leaves, ← texts_eq_error_iff, text]
    cases texts items <;> simp
  | mapping entries => simp [text, leaves, isForeign, kind]
  | function id => simp [text, leaves, isForeign, kind]
  | null | boolean | integer | bigInteger | float | string => simp [text, leaves, isForeign]
termination_by structural value

/-- **Items cannot be written for the first of their leaves that has no place in a
    sequence.** -/
theorem texts_eq_error_iff (items : List Value) (error : ResolveError) :
    texts items = .error error ↔ ∃ leaf, (leavesOf items).find? isForeign = some leaf ∧
      .invalidSequenceElement leaf.kind = error := by
  cases items with
  | nil => simp [texts, leavesOf]
  | cons item more =>
    have hitem := text_eq_error_iff item
    have hmore := texts_eq_error_iff more error
    rw [texts_cons_eq_error_iff, leavesOf, List.find?_append]
    cases hfind : item.leaves.find? isForeign with
    | none => simp [hitem, hmore, hfind]
    | some leaf => simp [hitem, hfind]
termination_by structural items

end

theorem find?_isForeign_eq_some_iff {items : List Value} {leaf : Value} :
    (leavesOf items).find? isForeign = some leaf ↔
      ∃ front behind, leavesOf items = front ++ leaf :: behind ∧
        (∀ other ∈ front, other.isForeign = false) ∧ leaf.isForeign = true := by
  rw [List.find?_eq_some_iff_append]
  constructor
  · rintro ⟨hleaf, front, behind, heq, hfront⟩
    exact ⟨front, behind, heq, by simpa using hfront, hleaf⟩
  · rintro ⟨front, behind, heq, hfront, hleaf⟩
    exact ⟨hleaf, front, behind, heq, by simpa using hfront⟩

theorem text_sequence_eq_error_iff {items : List Value} {error : ResolveError} :
    (sequence items).text = .error error ↔ (sequence items).Offends error := by
  rw [text_eq_error_iff, leaves]
  constructor
  · rintro ⟨leaf, hfind, rfl⟩
    obtain ⟨front, behind, heq, hfront, hleaf⟩ := find?_isForeign_eq_some_iff.1 hfind
    exact .element heq hfront hleaf
  · intro h
    cases h with
    | element heq hfront hleaf =>
      exact ⟨_, find?_isForeign_eq_some_iff.2 ⟨_, _, heq, hfront, hleaf⟩, rfl⟩

theorem text_sequence_eq_ok_iff {items : List Value} :
    (∃ text, (sequence items).text = .ok text) ↔ Joinable items := by
  have hnone : Joinable items ↔ (leavesOf items).find? isForeign = none := by
    simp [Joinable]
  rw [hnone]
  constructor
  · rintro ⟨text, htext⟩
    cases hfind : (leavesOf items).find? isForeign with
    | none => rfl
    | some leaf =>
      have herror := (text_eq_error_iff (sequence items) _).2 ⟨leaf, by rw [leaves, hfind], rfl⟩
      simp [htext] at herror
  · intro hfind
    cases htext : (sequence items).text with
    | ok text => exact ⟨text, rfl⟩
    | error error =>
      obtain ⟨leaf, hleaf, -⟩ := (text_eq_error_iff _ _).1 htext
      rw [leaves, hfind] at hleaf
      simp at hleaf

/-! ### Properties -/

theorem propertyText_eq_ok_iff (property : String) {value : Value} :
    (∃ text, propertyText property value = .ok text) ↔ value.IsProperty := by
  cases value with
  | null | mapping | function => simp [propertyText, IsProperty, isScalar]
  | sequence items => simp [propertyText, IsProperty, isScalar, text_sequence_eq_ok_iff]
  | boolean | integer | bigInteger | float | string =>
    simp [propertyText, IsProperty, isScalar, text]

/-- What is wrong with the value under a key, by itself. -/
theorem propertyText_eq_error_iff {property : String} {value : Value} {error : ResolveError} :
    propertyText property value = .error error ↔
      (value = .null ∨ value.isForeign = true) ∧
          error = .invalidPropertyValue property value.kind ∨
        ∃ items, value = .sequence items ∧ (sequence items).Offends error := by
  cases value with
  | null | mapping | function => simp [propertyText, isForeign, eq_comm]
  | sequence items => simp [propertyText, isForeign, text_sequence_eq_error_iff]
  | boolean | integer | bigInteger | float | string => simp [propertyText, isForeign, text]

theorem propertyLines_cons_eq_ok_iff {property : String} {value : Value} {more : Entries Value} :
    (∃ lines, propertyLines ((property, value) :: more) = .ok lines) ↔
      value.IsProperty ∧ ∃ lines, propertyLines more = .ok lines := by
  rw [propertyLines, ← propertyText_eq_ok_iff property]
  cases propertyText property value with
  | error e => simp
  | ok part => cases propertyLines more <;> simp

theorem propertyLines_cons_eq_error_iff {property : String} {value : Value}
    {more : Entries Value} {error : ResolveError} :
    propertyLines ((property, value) :: more) = .error error ↔
      propertyText property value = .error error ∨
        value.IsProperty ∧ propertyLines more = .error error := by
  rw [propertyLines, ← propertyText_eq_ok_iff property]
  cases propertyText property value with
  | error e => simp
  | ok part => cases propertyLines more <;> simp

theorem propertyLines_eq_ok_iff {entries : Entries Value} :
    (∃ lines, propertyLines entries = .ok lines) ↔ ∀ entry ∈ entries, IsProperty entry.2 := by
  induction entries with
  | nil => simp [propertyLines]
  | cons entry more ih =>
    obtain ⟨property, value⟩ := entry
    rw [propertyLines_cons_eq_ok_iff, ih, List.forall_mem_cons]

theorem propertyLines_eq_error_iff {entries : Entries Value} {error : ResolveError} :
    propertyLines entries = .error error ↔
      ∃ front property value behind, entries = front ++ (property, value) :: behind ∧
        (∀ entry ∈ front, IsProperty entry.2) ∧ propertyText property value = .error error := by
  constructor
  · intro h
    induction entries with
    | nil => simp [propertyLines] at h
    | cons entry more ih =>
      obtain ⟨property, value⟩ := entry
      rcases propertyLines_cons_eq_error_iff.1 h with htext | ⟨hproperty, hmore⟩
      · exact ⟨[], property, value, more, rfl, by simp, htext⟩
      · obtain ⟨front, property', value', behind, rfl, hfront, htext⟩ := ih hmore
        exact ⟨(property, value) :: front, property', value', behind, rfl,
          List.forall_mem_cons.2 ⟨hproperty, hfront⟩, htext⟩
  · rintro ⟨front, property, value, behind, rfl, hfront, htext⟩
    induction front with
    | nil => exact propertyLines_cons_eq_error_iff.2 (.inl htext)
    | cons entry front ih =>
      obtain ⟨hentry, hmore⟩ := List.forall_mem_cons.1 hfront
      exact propertyLines_cons_eq_error_iff.2 (.inr ⟨hentry, ih hmore⟩)

/-- **A property list cannot be written for the first entry that cannot.** -/
theorem propertyLines_eq_error_iff_offends {entries : Entries Value} {error : ResolveError} :
    propertyLines entries = .error error ↔ (mapping entries).Offends error := by
  rw [propertyLines_eq_error_iff]
  constructor
  · rintro ⟨front, property, value, behind, rfl, hfront, htext⟩
    rcases propertyText_eq_error_iff.1 htext with ⟨hvalue, rfl⟩ | ⟨items, rfl, hitems⟩
    · exact .property hfront hvalue
    · exact .propertyElement hfront hitems
  · intro h
    cases h with
    | property hfront hvalue =>
      exact ⟨_, _, _, _, rfl, hfront, propertyText_eq_error_iff.2 (.inl ⟨hvalue, rfl⟩)⟩
    | propertyElement hfront hitems =>
      exact ⟨_, _, _, _, rfl, hfront, propertyText_eq_error_iff.2 (.inr ⟨_, rfl, hitems⟩)⟩

/-! ### Replacements -/

theorem renderable_sequence_iff {items : List Value} :
    (sequence items).Renderable ↔ Joinable items := by
  constructor
  · intro h
    cases h with
    | scalar h => simp [isScalar] at h
    | sequence h => exact h
  · exact .sequence

theorem renderable_mapping_iff {entries : Entries Value} :
    (mapping entries).Renderable ↔ ∀ entry ∈ entries, IsProperty entry.2 := by
  constructor
  · intro h
    cases h with
    | scalar h => simp [isScalar] at h
    | mapping h => exact h
  · exact .mapping

theorem not_renderable_function (id : FunctionId) : ¬ (function id).Renderable := by
  intro h
  cases h with
  | scalar h => simp [isScalar] at h

/-- A suffix is put behind the text of a scalar or of a sequence. -/
theorem replacement_eq_map_text {value : Value}
    (h : value.isScalar = true ∨ ∃ items, value = .sequence items) (suffix : Option Char) :
    value.replacement suffix = value.text.map (· ++ suffixText suffix) := by
  rcases h with hscalar | ⟨items, rfl⟩
  · cases value <;> simp [isScalar] at hscalar <;> simp [replacement, text, Except.map]
  · rw [replacement]
    · cases (sequence items).text <;> rfl
    all_goals simp

/-- **A value can be written exactly if its shape is right**, with any suffix. -/
theorem replacement_eq_ok_iff {value : Value} {suffix : Option Char} :
    (∃ text, value.replacement suffix = .ok text) ↔ value.Renderable := by
  cases value with
  | null =>
    rw [replacement]
    exact ⟨fun _ => .null, fun _ => ⟨"", rfl⟩⟩
  | function id => simp [replacement, not_renderable_function]
  | mapping entries =>
    rw [renderable_mapping_iff, ← propertyLines_eq_ok_iff, replacement]
    cases propertyLines entries <;> simp
  | sequence items =>
    rw [renderable_sequence_iff, ← text_sequence_eq_ok_iff,
      replacement_eq_map_text (.inr ⟨items, rfl⟩)]
    cases (sequence items).text <;> simp [Except.map]
  | boolean | integer | bigInteger | float | string =>
    simp only [replacement, text]
    exact ⟨fun _ => .scalar rfl, fun _ => ⟨_, rfl⟩⟩

/-- **The error of a value is that of its first offence**, with any suffix. -/
theorem replacement_eq_error_iff {value : Value} {suffix : Option Char} {error : ResolveError} :
    value.replacement suffix = .error error ↔
      (∃ id, value = .function id) ∧ error = .functionReturningFunction ∨
        value.Offends error := by
  cases value with
  | null =>
    simp only [replacement, reduceCtorEq, exists_false, false_and, false_or, false_iff]
    rintro ⟨⟩
  | function id =>
    have hnone : ¬ (function id).Offends error := by rintro ⟨⟩
    simp [replacement, hnone, eq_comm]
  | mapping entries =>
    rw [← propertyLines_eq_error_iff_offends, replacement]
    cases propertyLines entries <;> simp
  | sequence items =>
    rw [← text_sequence_eq_error_iff, replacement_eq_map_text (.inr ⟨items, rfl⟩)]
    cases (sequence items).text <;> simp [Except.map]
  | boolean | integer | bigInteger | float | string =>
    simp only [replacement, text, reduceCtorEq, exists_false, false_and, false_or, false_iff]
    rintro ⟨⟩

/-- What a suffix does to what is written without one: null swallows it, it takes the place
    of the end of a property list, and it stands behind anything else. -/
theorem replacement_some_of_none {value : Value} {text : String}
    (h : value.replacement none = .ok text) (c : Char) :
    (value = .null → text = "" ∧ value.replacement (some c) = .ok "") ∧
      (∀ entries, value = .mapping entries → ∃ lines, text = lines ++ propertyEnd ∧
        value.replacement (some c) = .ok (lines ++ c.toString)) ∧
      (value.isScalar = true ∨ (∃ items, value = .sequence items) →
        value.replacement (some c) = .ok (text ++ c.toString)) := by
  refine ⟨?_, ?_, ?_⟩
  · rintro rfl
    exact ⟨(Except.ok.inj h).symm, rfl⟩
  · rintro entries rfl
    rw [replacement] at h ⊢
    cases hlines : propertyLines entries with
    | error e => simp [hlines] at h
    | ok lines =>
      rw [hlines] at h
      obtain rfl := Except.ok.inj h
      exact ⟨_, rfl, rfl⟩
  · intro hvalue
    rw [replacement_eq_map_text hvalue] at h ⊢
    cases htext : value.text with
    | error e => simp [htext, Except.map] at h
    | ok t =>
      rw [htext] at h
      obtain rfl := Except.ok.inj h
      simp [Except.map, suffixText]

/-- A suffix ends what is written, unless it is null that is. -/
theorem replacement_ends {value : Value} (hnull : value ≠ .null) {c : Char} {text : String}
    (h : value.replacement (some c) = .ok text) : ∃ front, text.toList = front ++ [c] := by
  unfold replacement at h
  split at h
  · exact absurd rfl hnull
  · simp at h
  · split at h
    next lines _ =>
      obtain rfl := Except.ok.inj h
      exact ⟨(propertyEnd.intercalate lines).toList, by simp⟩
    next => simp at h
  · split at h
    next front _ =>
      obtain rfl := Except.ok.inj h
      exact ⟨front.toList, by simp [suffixText]⟩
    next => simp at h

/-- What can be wrong with a value that is no function. -/
theorem Offends.cases_error {value : Value} {error : ResolveError} (h : value.Offends error) :
    (∃ kind, error = .invalidSequenceElement kind) ∨
      ∃ property kind, error = .invalidPropertyValue property kind := by
  induction h with
  | element => exact .inl ⟨_, rfl⟩
  | property => exact .inr ⟨_, _, rfl⟩
  | propertyElement _ _ ih => exact ih

/-! ### Functions -/

/-- What is written for a value: what a call of it gives if it is a function, and else the
    value itself. -/
def called {σ : Type} (host : Host σ) (args : List String) (state : σ) :
    Value → Option Value × σ
  | function id => host.call id args state
  | value => (some value, state)

end Value

variable {σ : Type} {host : Host σ} {value : Value} {args : List String} {suffix : Option Char}
  {state : σ}

theorem resolve_of_called_none (h : (value.called host args state).1 = none) :
    (resolve host value args suffix state).1 = .error .undefinedFunctionResult := by
  cases value with
  | function id =>
    rw [Value.called] at h
    rcases hcall : host.call id args state with ⟨_ | result, state'⟩
    · simp [resolve, hcall]
    · simp [hcall] at h
  | _ => simp [Value.called] at h

theorem resolve_of_called_some {result : Value}
    (h : (value.called host args state).1 = some result) :
    (resolve host value args suffix state).1 = result.replacement suffix := by
  cases value with
  | function id =>
    rw [Value.called] at h
    rcases hcall : host.call id args state with ⟨_ | result', state'⟩
    · simp [hcall] at h
    · obtain rfl : result' = result := by simpa [hcall] using h
      simp [resolve, hcall]
  | _ =>
    obtain rfl := Option.some.inj h
    rfl

/-- Each way to fail has errors of its own, and neither suffix nor state have a say in it
    beyond what the call gives. -/
theorem resolve_eq_error_iff {error : ResolveError} :
    (resolve host value args suffix state).1 = .error error ↔
      (value.called host args state).1 = none ∧ error = .undefinedFunctionResult ∨
      (∃ id, (value.called host args state).1 = some (.function id)) ∧
        error = .functionReturningFunction ∨
      ∃ v, (value.called host args state).1 = some v ∧ v.Offends error := by
  cases hcalled : (value.called host args state).1 with
  | none =>
    rw [resolve_of_called_none hcalled]
    simp [eq_comm]
  | some v =>
    rw [resolve_of_called_some hcalled, Value.replacement_eq_error_iff]
    simp

/-- **A value resolves exactly if what is written for it can be written, and otherwise the
    error is that of the first offence.**  A function that gives nothing, or a function,
    has an error of its own, and no other value has that.  The suffix decides nothing; it
    is swallowed by null, ends a property list in place of the usual end, and stands behind
    the text of anything else. -/
theorem resolve_eq_ok_iff_renderable (host : Host σ) (value : Value) (args : List String)
    (suffix : Option Char) (state : σ) :
    let called := (value.called host args state).1
    let result := (resolve host value args suffix state).1
    (result = .error .undefinedFunctionResult ↔ called = none) ∧
    (result = .error .functionReturningFunction ↔ ∃ id, called = some (.function id)) ∧
    (∀ v, called = some v → (∀ id, v ≠ .function id) →
      ((∃ text, result = .ok text) ↔ v.Renderable) ∧
      ∀ error, result = .error error ↔ v.Offends error) ∧
    ∀ state', (value.called host args state').1 = called →
      (∀ suffix' error,
        (resolve host value args suffix' state').1 = .error error ↔ result = .error error) ∧
      ∀ c v text, called = some v → (resolve host value args none state).1 = .ok text →
        (v = .null → text = "" ∧ (resolve host value args (some c) state').1 = .ok "") ∧
        (∀ entries, v = .mapping entries → ∃ lines, text = lines ++ ";\n" ∧
          (resolve host value args (some c) state').1 = .ok (lines ++ c.toString)) ∧
        (v.isScalar = true ∨ (∃ items, v = .sequence items) →
          (resolve host value args (some c) state').1 = .ok (text ++ c.toString)) := by
  intro called result
  refine ⟨?_, ?_, ?_, ?_⟩
  · rw [resolve_eq_error_iff]
    constructor
    · rintro (⟨h, -⟩ | ⟨-, h⟩ | ⟨v, -, h⟩)
      · exact h
      · simp at h
      · simpa using h.cases_error
    · intro h
      exact .inl ⟨h, rfl⟩
  · rw [resolve_eq_error_iff]
    constructor
    · rintro (⟨-, h⟩ | ⟨h, -⟩ | ⟨v, -, h⟩)
      · simp at h
      · exact h
      · simpa using h.cases_error
    · intro h
      exact .inr (.inl ⟨h, rfl⟩)
  · intro v hcalled hfunction
    constructor
    · rw [show result = _ from resolve_of_called_some hcalled]
      exact Value.replacement_eq_ok_iff
    · intro error
      rw [resolve_eq_error_iff, show (value.called host args state).1 = some v from hcalled]
      simp [hfunction]
  · intro state' hsame
    constructor
    · intro suffix' error
      rw [resolve_eq_error_iff, resolve_eq_error_iff, hsame]
    · intro c v text hcalled hnone
      rw [resolve_of_called_some hcalled] at hnone
      rw [resolve_of_called_some (hsame.trans hcalled)]
      exact Value.replacement_some_of_none hnone c

/-- One function gives a mapping with a null and a sequence in a sequence; the other one's
    has a mapping in a sequence in a sequence, in front of a function. -/
theorem resolve_eq_ok_iff_renderable_nested :
    let good : Value := .mapping [("a", .sequence [.null, .sequence [.string "x"]])]
    let bad : Value := .mapping
      [("a", .string "x"), ("b", .sequence [.sequence [.mapping []], .function 1])]
    let host : Host Nat := ⟨fun id _ calls => (some (if id = 0 then good else bad), calls + 1)⟩
    (resolve host (.function 0) [] none 0).1 = .ok "a: , x;\n" ∧
      (resolve host (.function 0) [] (some ':') 5).1 = .ok "a: , x:" ∧
      bad.Offends (.invalidSequenceElement .mapping) ∧
      (resolve host (.function 1) [] (some ' ') 5).1 = .error (.invalidSequenceElement .mapping) := by
  intro good bad host
  have hnone : (resolve host (.function 0) [] none 0).1 = .ok "a: , x;\n" := rfl
  obtain ⟨-, -, -, hgood⟩ := resolve_eq_ok_iff_renderable host (.function 0) [] none 0
  obtain ⟨-, hsuffix⟩ := hgood 5 rfl
  obtain ⟨-, hlines, -⟩ := hsuffix ':' good _ rfl hnone
  obtain ⟨lines, heq, hsome⟩ := hlines _ rfl
  obtain rfl : lines = "a: , x" := by
    have hend : "a: , x;\n" = "a: , x" ++ ";\n" := rfl
    rw [hend, String.append_left_inj] at heq
    exact heq.symm
  have hbad : bad.Offends (.invalidSequenceElement .mapping) := by
    refine @Value.Offends.propertyElement [("a", .string "x")] [] "b" _ _ ?_ ?_
    · intro entry hmem
      rw [List.mem_singleton.1 hmem]
      exact .inl rfl
    · exact @Value.Offends.element _ [] [.function 1] (.mapping []) rfl (by simp) rfl
  obtain ⟨-, -, herror, -⟩ := resolve_eq_ok_iff_renderable host (.function 1) [] (some ' ') 5
  exact ⟨hnone, hsome, hbad, ((herror bad rfl (by simp [bad])).2 _).2 hbad⟩

end StyleTemplate
