/-
  **The composed normal form at the end of a text.**

  Symbols below U+00C0 are starters that no composite begins or takes in, so a
  stretch of them at the end of a text is not touched by its normal form
  (`normalize_append`).  And a dollar sign is never what is left at the end when
  the text ends with something else (`EndsApart.normalize`): none of the
  symbols in the tables is taken apart into one there, or put together to one.
-/
import Mathlib.Algebra.Order.Ring.Nat
import StyleTemplate.Text.Normalization

namespace StyleTemplate

/-! ### Symbols that stay as they are -/

theorem combiningClass_of_lt {c : Char} (h : c.toNat < 0x300) : combiningClass c = 0 := by
  rw [combiningClass, if_pos h]

theorem composite?_of_lt {c : Char} (h : c.toNat < 0x300) (a : Char) : composite? a c = none := by
  rw [composite?, if_pos h]

theorem decompose_append (a b : List Char) : decompose (a ++ b) = decompose a ++ decompose b :=
  List.flatMap_append

theorem decompose_of_lt {text : List Char} (h : ∀ c ∈ text, c.toNat < 0xC0) :
    decompose text = text := by
  induction text with
  | nil => rfl
  | cons c text ih =>
    obtain ⟨hc, htext⟩ := List.forall_mem_cons.1 h
    rw [decompose, List.flatMap_cons, ← decompose, ih htext, decomposeSymbol, if_pos hc]
    rfl

theorem settle_append (c : Char) (text : List Char) {tail : List Char}
    (h : ∀ d ∈ tail, d.toNat < 0x300) : settle c (text ++ tail) = settle c text ++ tail := by
  induction text with
  | nil =>
    cases tail with
    | nil => rfl
    | cons d tail => simp [settle, combiningClass_of_lt (h d List.mem_cons_self)]
  | cons d text ih =>
    simp only [List.cons_append, settle]
    split
    · rw [ih, List.cons_append]
    · rfl

theorem reorder_append (text : List Char) {tail : List Char} (h : ∀ d ∈ tail, d.toNat < 0x300) :
    reorder (text ++ tail) = reorder text ++ tail := by
  induction text with
  | nil =>
    induction tail with
    | nil => rfl
    | cons d tail ih =>
      obtain ⟨_, htail⟩ := List.forall_mem_cons.1 h
      have hmore : reorder tail = tail := by simpa [reorder] using ih htail
      have hsettle := settle_append d [] htail
      rw [List.nil_append] at hsettle
      rw [List.nil_append, reorder, List.foldr_cons, ← reorder, hmore, hsettle]
      rfl
  | cons c text ih =>
    rw [List.cons_append, reorder, List.foldr_cons, ← reorder, ih, settle_append c _ h]
    rfl

theorem composeOnto_of_lt {tail : List Char} (h : ∀ d ∈ tail, d.toNat < 0x300) (starter : Char)
    (marks : List Char) : composeOnto starter marks tail = starter :: (marks.reverse ++ tail) := by
  induction tail generalizing starter marks with
  | nil => simp [composeOnto]
  | cons d tail ih =>
    obtain ⟨hd, htail⟩ := List.forall_mem_cons.1 h
    simp [composeOnto, composite?_of_lt hd, combiningClass_of_lt hd, ih htail]

theorem composeOnto_append (text : List Char) {tail : List Char}
    (h : ∀ d ∈ tail, d.toNat < 0x300) (starter : Char) (marks : List Char) :
    composeOnto starter marks (text ++ tail) = composeOnto starter marks text ++ tail := by
  induction text generalizing starter marks with
  | nil => simp [composeOnto_of_lt h, composeOnto]
  | cons c text ih =>
    simp only [List.cons_append, composeOnto]
    split
    · exact ih _ _
    · split
      · rw [ih, List.cons_append, List.append_assoc]
      · exact ih _ _

theorem compose_append (text : List Char) {tail : List Char} (h : ∀ d ∈ tail, d.toNat < 0x300) :
    compose (text ++ tail) = compose text ++ tail := by
  induction text with
  | nil =>
    cases tail with
    | nil => rfl
    | cons d tail =>
      obtain ⟨hd, htail⟩ := List.forall_mem_cons.1 h
      simp [compose, combiningClass_of_lt hd, composeOnto_of_lt htail]
  | cons c text ih =>
    simp only [List.cons_append, compose]
    split
    · exact composeOnto_append text h c []
    · rw [ih, List.cons_append]

/-- **Basic symbols at the end of a text are not touched by its normal form.** -/
theorem normalize_append (text : List Char) {tail : List Char} (h : ∀ d ∈ tail, d.toNat < 0xC0) :
    normalize (text ++ tail) = normalize text ++ tail := by
  have hmark : ∀ d ∈ tail, d.toNat < 0x300 := by
    intro d hd
    exact Nat.lt_trans (h d hd) (by decide)
  have hall : tail.all (·.toNat < 0x300) = true := by simpa using hmark
  rw [normalize, normalize, List.all_append, hall, Bool.and_true]
  split
  · rfl
  · rw [decompose_append, decompose_of_lt h, reorder_append _ hmark, compose_append _ hmark]

/-! ### Dollar signs in the tables -/

/-- Whether a word of a table is neither about a dollar sign nor takes a symbol
    apart into parts the last of which is one. -/
def dollarFree (word : List Char) : Bool :=
  (mappingOfWord word).1 != 0x24 && (mappingOfWord word).2.getLast?.any (· != 0x24)

/-- The words of a line are checked on its symbols, which evaluates much faster
    than taking the symbols out of the line does. -/
theorem forall_dollarFree_of_eq {line : String} {symbols : List Char}
    (hline : line = String.ofList symbols)
    (hcheck : (splitOnSymbol ' ' symbols).all dollarFree = true) :
    ∀ word ∈ splitOnSymbol ' ' line.toList, dollarFree word = true := by
  rw [hline, String.toList_ofList]
  exact List.all_eq_true.1 hcheck

set_option maxRecDepth 10000 in
theorem dollarFree_of_mem_compositeWords :
    ∀ word ∈ wordsOf compositeWords, dollarFree word = true := by
  simp only [wordsOf, List.forall_mem_flatMap]
  simp only [compositeWords, List.forall_mem_cons, List.not_mem_nil, false_implies, implies_true,
    and_true]
  and_intros <;> exact forall_dollarFree_of_eq rfl (by decide +kernel)

set_option maxRecDepth 10000 in
theorem dollarFree_of_mem_oneWayWords : ∀ word ∈ wordsOf oneWayWords, dollarFree word = true := by
  simp only [wordsOf, List.forall_mem_flatMap]
  simp only [oneWayWords, List.forall_mem_cons, List.not_mem_nil, false_implies, implies_true,
    and_true]
  and_intros <;> exact forall_dollarFree_of_eq rfl (by decide +kernel)

/-- Whether all values of a table have a property. -/
def EveryValue {κ α : Type} [BEq κ] [Hashable κ] (P : α → Prop) (table : Std.HashMap κ α) : Prop :=
  ∀ (key : κ) (value : α), table[key]? = some value → P value

theorem EveryValue.insert {κ α : Type} [BEq κ] [Hashable κ] [EquivBEq κ] [LawfulHashable κ]
    {P : α → Prop} {table : Std.HashMap κ α} (h : EveryValue P table) {value : α}
    (hvalue : P value) (key : κ) : EveryValue P (table.insert key value) := by
  intro other found hfound
  rw [Std.HashMap.getElem?_insert] at hfound
  split at hfound
  · obtain rfl : value = found := by simpa using hfound
    exact hvalue
  · exact h other found hfound

theorem everyValue_decompositionTable :
    EveryValue (fun parts : List Nat => parts.getLast?.any (· != 0x24) = true)
      decompositionTable := by
  unfold decompositionTable
  refine List.foldlRecOn _ _ (List.foldlRecOn _ _ ?_ ?_) ?_
  · intro n parts h
    simp at h
  · intro table htable word hword
    have hfree := dollarFree_of_mem_oneWayWords word hword
    rw [dollarFree, Bool.and_eq_true] at hfree
    exact htable.insert hfree.2 _
  · intro table htable word hword
    split
    next composite first second heq =>
      have hfree := dollarFree_of_mem_compositeWords word hword
      rw [dollarFree, Bool.and_eq_true, heq] at hfree
      exact htable.insert (by simpa using hfree.2) composite
    next => exact htable

theorem everyValue_compositionTable : EveryValue (fun n : Nat => n ≠ 0x24) compositionTable := by
  unfold compositionTable
  refine List.foldlRecOn _ _ ?_ ?_
  · intro pair composite h
    simp at h
  · intro table htable word hword
    split
    next composite first second heq =>
      have hfree := dollarFree_of_mem_compositeWords word hword
      rw [dollarFree, Bool.and_eq_true, heq] at hfree
      exact htable.insert (by simpa using hfree.1) (first, second)
    next => exact htable

/-! ### Texts that end with another symbol -/

/-- Whether a text has a last symbol, and that is no dollar sign. -/
def EndsApart (text : List Char) : Prop :=
  ∃ c ∈ text.getLast?, c ≠ '$'

theorem endsApart_cons_iff {c : Char} {text : List Char} :
    EndsApart (c :: text) ↔ text = [] ∧ c ≠ '$' ∨ EndsApart text := by
  cases text with
  | nil => simp [EndsApart]
  | cons d text => simp [EndsApart, List.getLast?_cons_cons]

theorem EndsApart.ne_nil {text : List Char} (h : EndsApart text) : text ≠ [] := by
  rintro rfl
  simp [EndsApart] at h

theorem EndsApart.cons {text : List Char} (h : EndsApart text) (c : Char) : EndsApart (c :: text) :=
  endsApart_cons_iff.2 (.inr h)

theorem EndsApart.append_left {text : List Char} (h : EndsApart text) (front : List Char) :
    EndsApart (front ++ text) := by
  induction front with
  | nil => exact h
  | cons c front ih => exact ih.cons c

theorem toNat_ofNat_of_isValidChar {n : Nat} (h : n.isValidChar) : (Char.ofNat n).toNat = n := by
  rw [Char.ofNat, dif_pos h]
  rfl

theorem ofNat_ne_dollar {n : Nat} (h : n ≠ 0x24) : Char.ofNat n ≠ '$' := by
  intro heq
  by_cases hvalid : n.isValidChar
  · exact h ((toNat_ofNat_of_isValidChar hvalid).symm.trans (congrArg Char.toNat heq))
  · rw [Char.ofNat, dif_neg hvalid] at heq
    exact absurd heq (by decide)

theorem EndsApart.map_ofNat {parts : List Nat} (h : parts.getLast?.any (· != 0x24) = true) :
    EndsApart (parts.map Char.ofNat) := by
  obtain ⟨last, hlast, hne⟩ := (Option.any_eq_true _ _).1 h
  refine ⟨Char.ofNat last, by simp [hlast], ofNat_ne_dollar (by simpa using hne)⟩

theorem ne_dollar_of_combiningClass {c : Char} (h : combiningClass c ≠ 0) : c ≠ '$' := by
  rintro rfl
  exact h (combiningClass_of_lt (by decide))

/-! ### The normal form keeps them so -/

theorem exists_of_decomposeHangul? {n : Nat} {parts : List Nat}
    (h : decomposeHangul? n = some parts) :
    ∃ a b, parts = [0x1100 + a, 0x1161 + b] ∨
      ∃ c, parts = [0x1100 + a, 0x1161 + b, 0x11A7 + c] := by
  simp only [decomposeHangul?, Option.ite_none_right_eq_some, Option.some.injEq] at h
  obtain ⟨-, rfl⟩ := h
  split
  · exact ⟨_, _, .inl rfl⟩
  · exact ⟨_, _, .inr ⟨_, rfl⟩⟩

theorem endsApart_decomposeSymbol {c : Char} (h : c ≠ '$') : EndsApart (decomposeSymbol c) := by
  unfold decomposeSymbol
  split
  · exact ⟨c, rfl, h⟩
  · cases hhangul : decomposeHangul? c.toNat with
    | some parts =>
      -- the last part is a vowel or a trailing consonant
      apply EndsApart.map_ofNat
      obtain ⟨a, b, rfl | ⟨c, rfl⟩⟩ := exists_of_decomposeHangul? hhangul
      · simp
        omega
      · simp
        omega
    | none =>
      cases hparts : decompositionTable[c.toNat]? with
      | some parts => exact .map_ofNat (everyValue_decompositionTable _ _ hparts)
      | none => exact ⟨c, rfl, h⟩

theorem EndsApart.decompose {text : List Char} (h : EndsApart text) :
    EndsApart (decompose text) := by
  induction text with
  | nil => exact absurd rfl h.ne_nil
  | cons c text ih =>
    rw [StyleTemplate.decompose, List.flatMap_cons, ← StyleTemplate.decompose]
    rcases endsApart_cons_iff.1 h with ⟨rfl, hc⟩ | h
    · simpa [StyleTemplate.decompose] using endsApart_decomposeSymbol hc
    · exact (ih h).append_left _

/-- A symbol that moves to the end is a mark. -/
theorem EndsApart.settle {text : List Char} (h : EndsApart text) (c : Char) :
    EndsApart (settle c text) := by
  induction text with
  | nil => exact absurd rfl h.ne_nil
  | cons d text ih =>
    rw [StyleTemplate.settle]
    split
    next hmoves =>
      rcases endsApart_cons_iff.1 h with ⟨rfl, _⟩ | h
      · have hc : c ≠ '$' := ne_dollar_of_combiningClass (by omega)
        exact .cons ⟨c, rfl, hc⟩ d
      · exact (ih h).cons d
    next => exact h.cons c

theorem EndsApart.reorder {text : List Char} (h : EndsApart text) : EndsApart (reorder text) := by
  induction text with
  | nil => exact absurd rfl h.ne_nil
  | cons c text ih =>
    rw [StyleTemplate.reorder, List.foldr_cons, ← StyleTemplate.reorder]
    rcases endsApart_cons_iff.1 h with ⟨rfl, hc⟩ | h
    · exact ⟨c, rfl, hc⟩
    · exact (ih h).settle c

theorem ne_dollar_of_composite? {a b c : Char} (h : composite? a b = some c) : c ≠ '$' := by
  unfold composite? at h
  split at h
  · simp at h
  · split at h
    next whole hhangul =>
      obtain rfl := Option.some.inj h
      apply ofNat_ne_dollar
      unfold composeHangul? at hhangul
      split at hhangul
      · simp at hhangul
        omega
      · split at hhangul
        · simp at hhangul
          omega
        · simp at hhangul
    next =>
      obtain ⟨whole, htable, rfl⟩ := Option.map_eq_some_iff.1 h
      exact ofNat_ne_dollar (everyValue_compositionTable _ _ htable)

/-- Composing ends with what ends the text, with a mark, or with a composite. -/
theorem endsApart_composeOnto {text : List Char} {starter : Char} {marks : List Char}
    (htext : text = [] ∨ EndsApart text) (hstarter : text = [] → marks = [] → starter ≠ '$')
    (hmarks : ∀ mark ∈ marks, mark ≠ '$') : EndsApart (composeOnto starter marks text) := by
  induction text generalizing starter marks with
  | nil =>
    rw [composeOnto]
    cases marks with
    | nil => exact ⟨starter, rfl, hstarter rfl rfl⟩
    | cons mark marks =>
      have hmark : EndsApart [mark] := ⟨mark, rfl, hmarks mark List.mem_cons_self⟩
      rw [List.reverse_cons]
      exact (hmark.append_left _).cons starter
  | cons c text ih =>
    have hmore : text = [] ∨ EndsApart text := by
      rcases htext with h | h
      · simp at h
      · exact (endsApart_cons_iff.1 h).imp And.left id
    have hc : text = [] → c ≠ '$' := by
      rintro rfl
      rcases htext with h | ⟨d, hd, hne⟩
      · simp at h
      · simp_all
    rw [composeOnto]
    split
    next whole hwhole =>
      have hne : whole ≠ '$' := by
        split at hwhole
        · simp at hwhole
        · exact ne_dollar_of_composite? hwhole
      exact ih hmore (fun _ _ => hne) hmarks
    next =>
      split
      next =>
        have hrest : EndsApart (composeOnto c [] text) := ih hmore (fun h _ => hc h) (by simp)
        exact (hrest.append_left _).cons starter
      next hclass =>
        refine ih hmore (by simp) (List.forall_mem_cons.2 ⟨?_, hmarks⟩)
        exact ne_dollar_of_combiningClass hclass

theorem EndsApart.compose {text : List Char} (h : EndsApart text) : EndsApart (compose text) := by
  induction text with
  | nil => exact absurd rfl h.ne_nil
  | cons c text ih =>
    rw [StyleTemplate.compose]
    rcases endsApart_cons_iff.1 h with ⟨rfl, hc⟩ | h
    · split
      · exact endsApart_composeOnto (.inl rfl) (fun _ _ => hc) (by simp)
      · exact ⟨c, rfl, hc⟩
    · split
      · exact endsApart_composeOnto (.inr h) (fun hnil => absurd hnil h.ne_nil) (by simp)
      · exact (ih h).cons c

/-- **A dollar sign is not what the normal form of a text ends with**, unless the
    text does. -/
theorem EndsApart.normalize {text : List Char} (h : EndsApart text) :
    EndsApart (normalize text) := by
  rw [StyleTemplate.normalize]
  split
  · exact h
  · exact h.decompose.reorder.compose

end StyleTemplate
