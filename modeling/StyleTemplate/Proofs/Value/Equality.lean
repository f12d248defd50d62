/-
  **Which values are equal.**

  Values are compared part by part: sequences place by place, and mappings key by key,
  where the place of a key does not matter (`mapping_beq_iff_lookups`).  The comparison
  goes through the entries of one side only and then compares the sizes; that the other
  side has no further keys follows from there being no key twice.  So equality is a
  partial equivalence, and what keeps it from being a whole one is the NaN, which is not
  equal to itself (`beq_self_iff`).
-/
import Mathlib.Data.List.Perm.Subperm
import StyleTemplate.Proofs.Source.Documents

namespace StyleTemplate

/-! ### Numbers -/

namespace Binary64

variable {x y z : Binary64}

theorem beq_symm (h : (x == y) = true) : (y == x) = true := by
  obtain ⟨hx, hy, h⟩ := beq_iff.1 h
  exact beq_iff.2 ⟨hy, hx, h.imp Eq.symm And.symm⟩

theorem beq_trans (hxy : (x == y) = true) (hyz : (y == z) = true) : (x == z) = true := by
  obtain ⟨hx, -, hxy⟩ := beq_iff.1 hxy
  obtain ⟨-, hz, hyz⟩ := beq_iff.1 hyz
  refine beq_iff.2 ⟨hx, hz, ?_⟩
  rcases hxy with rfl | ⟨hx, hy⟩
  · exact hyz
  · rcases hyz with rfl | ⟨-, hz⟩
    · exact .inr ⟨hx, hy⟩
    · exact .inr ⟨hx, hz⟩

theorem beq_self_iff : (x == x) = true ↔ x.isNaN = false := by
  simp [beq_iff]

end Binary64

/-! ### Looking up in entries without a key twice -/

namespace Entries

variable {α : Type} {key : String} {value : α} {entries : Entries α}

theorem get?_eq_none_iff : get? key entries = none ↔ key ∉ keys entries := by
  induction entries with
  | nil => simp [get?, keys]
  | cons entry more ih =>
    obtain ⟨k, v⟩ := entry
    rw [get?]
    split
    next hkey => simp [keys, hkey]
    next hkey =>
      rw [ih]
      simp [keys, Ne.symm hkey]

theorem get?_of_mem (hnodup : (keys entries).Nodup) (h : (key, value) ∈ entries) :
    get? key entries = some value := by
  induction entries with
  | nil => simp at h
  | cons entry more ih =>
    obtain ⟨k, v⟩ := entry
    obtain ⟨hfresh, hmore⟩ := List.nodup_cons.1 hnodup
    rw [get?]
    rcases List.mem_cons.1 h with heq | hmem
    · obtain ⟨rfl, rfl⟩ := Prod.mk.inj heq
      exact if_pos rfl
    · have hne : k ≠ key := by
        rintro rfl
        exact hfresh (List.mem_map.2 ⟨(k, value), hmem, rfl⟩)
      rw [if_neg hne]
      exact ih hmore hmem

theorem get?_eq_some_iff (hnodup : (keys entries).Nodup) :
    get? key entries = some value ↔ (key, value) ∈ entries :=
  ⟨mem_of_get?, get?_of_mem hnodup⟩

/-- **As many keys, none of them twice, and each of them on the other side**: then there
    are no others on the other side. -/
theorem keys_perm_of_subset {β : Type} {others : Entries β} (hnodup : (keys entries).Nodup)
    (hlength : entries.length = others.length) (hsubset : keys entries ⊆ keys others) :
    (keys entries).Perm (keys others) := by
  refine (hnodup.subperm hsubset).perm_of_length_le ?_
  rw [keys, keys, List.length_map, List.length_map, hlength]

end Entries

namespace Value

/-! ### Parts of values -/

/-- What holds of a value if it holds of all its items or entries holds of every value. -/
@[elab_as_elim]
theorem byParts {motive : Value → Prop} (leaf : ∀ value, value.IsLeaf → motive value)
    (sequence : ∀ items, (∀ item ∈ items, motive item) → motive (.sequence items))
    (mapping : ∀ entries, (∀ entry ∈ entries, motive entry.2) → motive (.mapping entries))
    (value : Value) : motive value := by
  have scalar : ∀ value : Value, value.isScalar = true → motive value :=
    fun value h => leaf value (.inr (.inl h))
  refine @Value.rec motive (fun items => ∀ item ∈ items, motive item)
    (fun entries => ∀ entry ∈ entries, motive entry.2) (fun entry => motive entry.2)
    (leaf _ (.inl rfl)) (fun _ => scalar _ rfl) (fun _ => scalar _ rfl) (fun _ => scalar _ rfl)
    (fun _ => scalar _ rfl) (fun _ => scalar _ rfl) sequence mapping
    (fun id => leaf _ (.inr (.inr ⟨id, rfl⟩))) ?_ ?_ ?_ ?_ ?_ value
  · simp
  · exact fun item more hitem hmore => List.forall_mem_cons.2 ⟨hitem, hmore⟩
  · simp
  · exact fun entry more hentry hmore => List.forall_mem_cons.2 ⟨hentry, hmore⟩
  · exact fun key value hvalue => hvalue

theorem contains_iff_of_isLeaf {value part : Value} (h : value.IsLeaf) :
    value.Contains part ↔ part = value := by
  constructor
  · intro hpart
    cases hpart with
    | self => rfl
    | item => simp [IsLeaf, isScalar] at h
    | entry => simp [IsLeaf, isScalar] at h
  · rintro rfl
    exact .self

theorem contains_sequence_iff {items : List Value} {part : Value} :
    (sequence items).Contains part ↔ part = sequence items ∨ ∃ item ∈ items, item.Contains part := by
  constructor
  · intro hpart
    cases hpart with
    | self => exact .inl rfl
    | item hmem hitem => exact .inr ⟨_, hmem, hitem⟩
  · rintro (rfl | ⟨item, hmem, hitem⟩)
    · exact .self
    · exact .item hmem hitem

theorem contains_mapping_iff {entries : Entries Value} {part : Value} :
    (mapping entries).Contains part ↔
      part = mapping entries ∨ ∃ entry ∈ entries, entry.2.Contains part := by
  constructor
  · intro hpart
    cases hpart with
    | self => exact .inl rfl
    | entry hmem hvalue => exact .inr ⟨_, hmem, hvalue⟩
  · rintro (rfl | ⟨entry, hmem, hvalue⟩)
    · exact .self
    · exact .entry hmem hvalue

/-! ### No key twice -/

/-- `value.DistinctKeys`: no mapping has a key twice, neither the value nor any in it.
    Inserting pairs never makes one that has (`distinctKeys_ofPairs`), and no document
    brings one (`Source.OfDocument.distinctKeys`). -/
inductive DistinctKeys : Value → Prop where
  | leaf {value : Value} : value.IsLeaf → DistinctKeys value
  | sequence {items : List Value} :
      (∀ item ∈ items, DistinctKeys item) → DistinctKeys (.sequence items)
  | mapping {entries : Entries Value} :
      (Entries.keys entries).Nodup → (∀ entry ∈ entries, DistinctKeys entry.2) →
      DistinctKeys (.mapping entries)

theorem DistinctKeys.scalar {value : Value} (h : value.isScalar = true) : value.DistinctKeys :=
  .leaf (.inr (.inl h))

theorem DistinctKeys.function (id : FunctionId) : (function id).DistinctKeys :=
  .leaf (.inr (.inr ⟨id, rfl⟩))

theorem distinctKeys_sequence_iff {items : List Value} :
    (sequence items).DistinctKeys ↔ ∀ item ∈ items, item.DistinctKeys := by
  constructor
  · intro h
    cases h with
    | leaf h => simp [IsLeaf, isScalar] at h
    | sequence h => exact h
  · exact .sequence

theorem distinctKeys_mapping_iff {entries : Entries Value} :
    (mapping entries).DistinctKeys ↔
      (Entries.keys entries).Nodup ∧ ∀ entry ∈ entries, entry.2.DistinctKeys := by
  constructor
  · intro h
    cases h with
    | leaf h => simp [IsLeaf, isScalar] at h
    | mapping hnodup hvalues => exact ⟨hnodup, hvalues⟩
  · rintro ⟨hnodup, hvalues⟩
    exact .mapping hnodup hvalues

/-! ### Comparing part by part -/

/-- Whether there are equal values in two places, or none in either. -/
def EqualAt (a b : Option Value) : Prop :=
  Option.Rel (fun a b => (a == b) = true) a b

theorem equalAt_none_iff {b : Option Value} : EqualAt none b ↔ b = none := by
  constructor
  · rintro ⟨⟩
    rfl
  · rintro rfl
    exact .none

theorem equalAt_some_iff {a : Value} {b : Option Value} :
    EqualAt (some a) b ↔ ∃ b', b = some b' ∧ (a == b') = true := by
  constructor
  · intro h
    cases h with
    | some h => exact ⟨_, rfl, h⟩
  · rintro ⟨b', rfl, h⟩
    exact .some h

theorem leaf_beq_iff {a b : Value} (ha : a.IsLeaf) :
    (a == b) = true ↔ (∃ x y, a = .float x ∧ b = .float y ∧ (x == y) = true) ∨
      (∀ x, a ≠ .float x) ∧ a = b := by
  change Value.beq a b = true ↔ _
  cases a <;> simp [IsLeaf, isScalar] at ha <;> cases b <;> simp [Value.beq]

/-- **Sequences are equal if at each place they have equal items, or neither has one.** -/
theorem sequence_beq_iff {as : List Value} {b : Value} :
    (sequence as == b) = true ↔ ∃ bs, b = .sequence bs ∧ ∀ i : Nat, EqualAt as[i]? bs[i]? := by
  have hitems : ∀ bs, beqItems as bs = true ↔ ∀ i : Nat, EqualAt as[i]? bs[i]? := by
    induction as with
    | nil =>
      intro bs
      cases bs with
      | nil => simp [beqItems, equalAt_none_iff]
      | cons b bs =>
        simp only [beqItems, Bool.false_eq_true, false_iff, not_forall]
        exact ⟨0, by simp [equalAt_none_iff]⟩
    | cons a as ih =>
      intro bs
      rw [← Nat.and_forall_add_one]
      cases bs with
      | nil => simp [beqItems, equalAt_some_iff]
      | cons b bs =>
        simp only [beqItems, Bool.and_eq_true, ih, List.getElem?_cons_zero,
          List.getElem?_cons_succ, equalAt_some_iff, Option.some.injEq, exists_eq_left']
        rfl
  change Value.beq _ _ = true ↔ _
  cases b <;> simp [Value.beq, hitems]

theorem entriesWithin_iff {entries others : Entries Value} :
    entriesWithin entries others = true ↔
      ∀ entry ∈ entries, EqualAt (some entry.2) (Entries.get? entry.1 others) := by
  induction entries with
  | nil => simp [entriesWithin]
  | cons entry more ih =>
    obtain ⟨key, value⟩ := entry
    rw [entriesWithin, Bool.and_eq_true, ih, List.forall_mem_cons, entryWithin, equalAt_some_iff]
    refine and_congr_left fun _ => ?_
    cases Entries.get? key others with
    | none => simp
    | some other =>
      simp only [Option.some.injEq, exists_eq_left']
      rfl

/-- What is compared: the sizes, and the entries of one side with the other side. -/
theorem mapping_beq_iff {as : Entries Value} {b : Value} :
    (mapping as == b) = true ↔ ∃ bs, b = .mapping bs ∧ as.length = bs.length ∧
      ∀ entry ∈ as, EqualAt (some entry.2) (Entries.get? entry.1 bs) := by
  change Value.beq _ _ = true ↔ _
  cases b <;> simp [Value.beq, entriesWithin_iff]

/-- **Mappings are equal if under each key they have equal values, or neither has one.** -/
theorem mapping_beq_iff_lookups {as : Entries Value} {b : Value}
    (has : (Entries.keys as).Nodup) (hb : b.DistinctKeys) :
    (mapping as == b) = true ↔ ∃ bs, b = .mapping bs ∧
      ∀ key, EqualAt (Entries.get? key as) (Entries.get? key bs) := by
  rw [mapping_beq_iff]
  refine exists_congr fun bs => and_congr_right ?_
  rintro rfl
  obtain ⟨hbs, -⟩ := distinctKeys_mapping_iff.1 hb
  constructor
  · rintro ⟨hlength, hwithin⟩ key
    have hsubset : Entries.keys as ⊆ Entries.keys bs := by
      intro k hk
      obtain ⟨entry, hmem, rfl⟩ := List.mem_map.1 hk
      obtain ⟨value, hvalue, -⟩ := equalAt_some_iff.1 (hwithin entry hmem)
      exact List.mem_map.2 ⟨_, Entries.mem_of_get? hvalue, rfl⟩
    have hperm := Entries.keys_perm_of_subset has hlength hsubset
    cases hget : Entries.get? key as with
    | none =>
      rwa [equalAt_none_iff, Entries.get?_eq_none_iff, ← hperm.mem_iff, ← Entries.get?_eq_none_iff]
    | some a => exact hwithin _ (Entries.mem_of_get? hget)
  · intro h
    have hkeys : ∀ key, key ∈ Entries.keys as ↔ key ∈ Entries.keys bs := by
      intro key
      have hkey := h key
      rw [← not_iff_not, ← Entries.get?_eq_none_iff, ← Entries.get?_eq_none_iff]
      cases hget : Entries.get? key as with
      | none => simpa [hget, equalAt_none_iff] using hkey
      | some a =>
        obtain ⟨b, hb, -⟩ := equalAt_some_iff.1 (hget ▸ hkey)
        simp [hb]
    constructor
    · have hperm := ((List.perm_ext_iff_of_nodup has hbs).2 hkeys).length_eq
      rwa [Entries.keys, Entries.keys, List.length_map, List.length_map] at hperm
    · intro entry hmem
      rw [← Entries.get?_of_mem has hmem]
      exact h entry.1

/-! ### A partial equivalence -/

theorem EqualAt.symm {a b : Option Value} (h : EqualAt a b)
    (hsymm : ∀ v ∈ a, ∀ w ∈ b, (v == w) = true → (w == v) = true) : EqualAt b a := by
  cases h with
  | none => exact .none
  | some h => exact .some (hsymm _ rfl _ rfl h)

theorem EqualAt.trans {a b c : Option Value} (hab : EqualAt a b) (hbc : EqualAt b c)
    (htrans : ∀ v ∈ a, ∀ w ∈ b, ∀ u ∈ c, (v == w) = true → (w == u) = true → (v == u) = true) :
    EqualAt a c := by
  cases hab with
  | none => exact hbc
  | some hab =>
    cases hbc with
    | some hbc => exact .some (htrans _ rfl _ rfl _ rfl hab hbc)

theorem equalAt_self_iff {a : Option Value} : EqualAt a a ↔ ∀ v ∈ a, (v == v) = true := by
  cases a with
  | none => simp [equalAt_none_iff]
  | some v => simp [equalAt_some_iff]

theorem beq_symm {a b : Value} (ha : a.DistinctKeys) (hb : b.DistinctKeys)
    (h : (a == b) = true) : (b == a) = true := by
  induction a using byParts generalizing b with
  | leaf a hleaf =>
    rcases (leaf_beq_iff hleaf).1 h with ⟨x, y, rfl, rfl, hxy⟩ | ⟨-, rfl⟩
    · exact Binary64.beq_symm hxy
    · exact h
  | sequence as ih =>
    rw [distinctKeys_sequence_iff] at ha
    obtain ⟨bs, rfl, hitems⟩ := sequence_beq_iff.1 h
    rw [distinctKeys_sequence_iff] at hb
    refine sequence_beq_iff.2 ⟨as, rfl, fun i => (hitems i).symm fun v hv w hw => ?_⟩
    have hv' := List.mem_of_getElem? hv
    exact ih v hv' (ha v hv') (hb w (List.mem_of_getElem? hw))
  | mapping as ih =>
    obtain ⟨has, hvalues⟩ := distinctKeys_mapping_iff.1 ha
    obtain ⟨bs, rfl, hkeys⟩ := (mapping_beq_iff_lookups has hb).1 h
    obtain ⟨hbs, hothers⟩ := distinctKeys_mapping_iff.1 hb
    refine (mapping_beq_iff_lookups hbs ha).2
      ⟨as, rfl, fun key => (hkeys key).symm fun v hv w hw => ?_⟩
    have hv' := Entries.mem_of_get? hv
    exact ih _ hv' (hvalues _ hv') (hothers _ (Entries.mem_of_get? hw))

theorem beq_trans {a b c : Value} (ha : a.DistinctKeys) (hb : b.DistinctKeys)
    (hc : c.DistinctKeys) (hab : (a == b) = true) (hbc : (b == c) = true) : (a == c) = true := by
  induction a using byParts generalizing b c with
  | leaf a hleaf =>
    rcases (leaf_beq_iff hleaf).1 hab with ⟨x, y, rfl, rfl, hxy⟩ | ⟨-, rfl⟩
    · rcases (leaf_beq_iff (.inr (.inl rfl))).1 hbc with ⟨_, z, hy, rfl, hyz⟩ | ⟨hy, -⟩
      · obtain rfl := float.inj hy
        exact Binary64.beq_trans hxy hyz
      · exact absurd rfl (hy y)
    · exact hbc
  | sequence as ih =>
    rw [distinctKeys_sequence_iff] at ha
    obtain ⟨bs, rfl, hleft⟩ := sequence_beq_iff.1 hab
    obtain ⟨cs, rfl, hright⟩ := sequence_beq_iff.1 hbc
    rw [distinctKeys_sequence_iff] at hb hc
    refine sequence_beq_iff.2 ⟨cs, rfl, fun i => (hleft i).trans (hright i) fun v hv w hw u hu => ?_⟩
    have hv' := List.mem_of_getElem? hv
    exact ih v hv' (ha v hv') (hb w (List.mem_of_getElem? hw)) (hc u (List.mem_of_getElem? hu))
  | mapping as ih =>
    obtain ⟨has, hvalues⟩ := distinctKeys_mapping_iff.1 ha
    obtain ⟨bs, rfl, hleft⟩ := (mapping_beq_iff_lookups has hb).1 hab
    obtain ⟨hbs, hothers⟩ := distinctKeys_mapping_iff.1 hb
    obtain ⟨cs, rfl, hright⟩ := (mapping_beq_iff_lookups hbs hc).1 hbc
    obtain ⟨-, hthird⟩ := distinctKeys_mapping_iff.1 hc
    refine (mapping_beq_iff_lookups has hc).2
      ⟨cs, rfl, fun key => (hleft key).trans (hright key) fun v hv w hw u hu => ?_⟩
    have hv' := Entries.mem_of_get? hv
    exact ih _ hv' (hvalues _ hv') (hothers _ (Entries.mem_of_get? hw))
      (hthird _ (Entries.mem_of_get? hu))

theorem sequence_beq_self_iff {items : List Value} :
    (sequence items == sequence items) = true ↔ ∀ item ∈ items, (item == item) = true := by
  simp only [sequence_beq_iff, sequence.injEq, exists_eq_left', equalAt_self_iff]
  constructor
  · intro h item hmem
    obtain ⟨i, hi⟩ := List.getElem?_of_mem hmem
    exact h i item hi
  · intro h i item hi
    exact h item (List.mem_of_getElem? hi)

theorem mapping_beq_self_iff {entries : Entries Value} (h : (mapping entries).DistinctKeys) :
    (mapping entries == mapping entries) = true ↔
      ∀ entry ∈ entries, (entry.2 == entry.2) = true := by
  obtain ⟨hnodup, -⟩ := distinctKeys_mapping_iff.1 h
  simp only [mapping_beq_iff_lookups hnodup h, mapping.injEq, exists_eq_left', equalAt_self_iff]
  constructor
  · intro h entry hmem
    exact h entry.1 entry.2 (Entries.get?_of_mem hnodup hmem)
  · intro h key value hvalue
    exact h (key, value) (Entries.mem_of_get? hvalue)

/-- **A value is equal to itself unless there is a NaN in it.** -/
theorem beq_self_iff {a : Value} (ha : a.DistinctKeys) :
    (a == a) = true ↔ ∀ x, a.Contains (.float x) → x.isNaN = false := by
  induction a using byParts with
  | leaf a hleaf =>
    simp only [contains_iff_of_isLeaf hleaf]
    rw [leaf_beq_iff hleaf]
    by_cases hfloat : ∃ x, a = .float x
    · obtain ⟨x, rfl⟩ := hfloat
      simp [← Binary64.beq_self_iff]
    · have hne : ∀ x, a ≠ .float x := fun x hx => hfloat ⟨x, hx⟩
      constructor
      · rintro - x rfl
        exact absurd rfl (hne x)
      · intro _
        exact .inr ⟨hne, rfl⟩
  | sequence items ih =>
    rw [distinctKeys_sequence_iff] at ha
    simp only [contains_sequence_iff, reduceCtorEq, false_or]
    rw [sequence_beq_self_iff]
    constructor
    · rintro h x ⟨item, hmem, hx⟩
      exact (ih item hmem (ha item hmem)).1 (h item hmem) x hx
    · intro h item hmem
      exact (ih item hmem (ha item hmem)).2 fun x hx => h x ⟨item, hmem, hx⟩
  | mapping entries ih =>
    obtain ⟨-, hvalues⟩ := distinctKeys_mapping_iff.1 ha
    simp only [contains_mapping_iff, reduceCtorEq, false_or]
    rw [mapping_beq_self_iff ha]
    constructor
    · rintro h x ⟨entry, hmem, hx⟩
      exact (ih entry hmem (hvalues entry hmem)).1 (h entry hmem) x hx
    · intro h entry hmem
      exact (ih entry hmem (hvalues entry hmem)).2 fun x hx => h x ⟨entry, hmem, hx⟩

/-! ### The order of keys -/

/-- `Reordered value value'`: the entries of one mapping, the value itself or one in it at
    whatever depth, stand in another order in `value'`. -/
inductive Reordered : Value → Value → Prop where
  | entries {entries entries' : Entries Value} :
      entries.Perm entries' → Reordered (.mapping entries) (.mapping entries')
  | inItem {front behind : List Value} {value value' : Value} :
      Reordered value value' →
      Reordered (.sequence (front ++ value :: behind)) (.sequence (front ++ value' :: behind))
  | inEntry {front behind : Entries Value} {key : String} {value value' : Value} :
      Reordered value value' →
      Reordered (.mapping (front ++ (key, value) :: behind))
        (.mapping (front ++ (key, value') :: behind))

theorem Reordered.distinctKeys {a a' : Value} (h : Reordered a a') (ha : a.DistinctKeys) :
    a'.DistinctKeys := by
  induction h with
  | entries hperm =>
    rw [distinctKeys_mapping_iff] at ha ⊢
    exact ⟨(hperm.map _).nodup_iff.1 ha.1, fun entry hmem => ha.2 entry (hperm.mem_iff.2 hmem)⟩
  | inItem _ ih =>
    simp only [distinctKeys_sequence_iff, List.forall_mem_append, List.forall_mem_cons] at ha ⊢
    exact ⟨ha.1, ih ha.2.1, ha.2.2⟩
  | inEntry _ ih =>
    simp only [distinctKeys_mapping_iff, Entries.keys, List.map_append, List.map_cons,
      List.forall_mem_append, List.forall_mem_cons] at ha ⊢
    exact ⟨ha.1, ha.2.1, ih ha.2.2.1, ha.2.2.2⟩

theorem equalAt_some_congr {a a' : Value} (h : ∀ b, (a == b) = true ↔ (a' == b) = true)
    (other : Option Value) : EqualAt (some a) other ↔ EqualAt (some a') other := by
  simp only [equalAt_some_iff, h]

/-- **The order of keys has no say in what a value is equal to**, at any depth. -/
theorem Reordered.beq_eq {a a' : Value} (h : Reordered a a') (b : Value) :
    (a == b) = (a' == b) := by
  rw [Bool.eq_iff_iff]
  induction h generalizing b with
  | entries hperm => simp only [mapping_beq_iff, hperm.length_eq, hperm.mem_iff]
  | @inItem front behind value value' _ ih =>
    have hplace : ∀ (i : Nat) other, EqualAt (front ++ value :: behind)[i]? other ↔
        EqualAt (front ++ value' :: behind)[i]? other := by
      intro i other
      rcases Nat.lt_trichotomy i front.length with hlt | rfl | hgt
      · rw [List.getElem?_append_left hlt, List.getElem?_append_left hlt]
      · simpa using equalAt_some_congr ih other
      · obtain ⟨k, rfl⟩ := Nat.exists_eq_add_of_lt hgt
        rw [Nat.add_assoc, List.getElem?_append_right (Nat.le_add_right _ _),
          List.getElem?_append_right (Nat.le_add_right _ _), Nat.add_sub_cancel_left]
        rfl
    simp only [sequence_beq_iff, hplace]
  | inEntry _ ih =>
    simp only [mapping_beq_iff, List.length_append, List.length_cons, List.forall_mem_append,
      List.forall_mem_cons, equalAt_some_congr ih]

end Value

open Value

/-- **Equality of values is a partial equivalence.**  It does not look at the order of keys,
    at any depth: mappings are equal if under each key both have equal values, or none.  A
    function is equal to nothing but itself, and a value is equal to itself unless there is
    a NaN in it. -/
theorem beq_partial_equivalence {a b c : Value} (ha : a.DistinctKeys) (hb : b.DistinctKeys)
    (hc : c.DistinctKeys) :
    ((a == b) = true → (b == a) = true) ∧
    ((a == b) = true → (b == c) = true → (a == c) = true) ∧
    (∀ a' b', Reordered a a' → Reordered b b' →
      (a' == b) = (a == b) ∧ (a == b') = (a == b)) ∧
    (∀ as bs, a = .mapping as → b = .mapping bs → ((a == b) = true ↔
      ∀ key, Option.Rel (fun v w => (v == w) = true) (Entries.get? key as)
        (Entries.get? key bs))) ∧
    (∀ id, (.function id == b) = true ↔ b = .function id) ∧
    ((a == a) = true ↔ ∀ x, a.Contains (.float x) → x.isNaN = false) := by
  refine ⟨beq_symm ha hb, beq_trans ha hb hc, ?_, ?_, ?_, beq_self_iff ha⟩
  · intro a' b' ha' hb'
    have hright : (a == b') = (a == b) := by
      rw [Bool.eq_iff_iff]
      constructor
      · intro h
        have hsymm := beq_symm ha (hb'.distinctKeys hb) h
        rw [← hb'.beq_eq] at hsymm
        exact beq_symm hb ha hsymm
      · intro h
        have hsymm := beq_symm ha hb h
        rw [hb'.beq_eq] at hsymm
        exact beq_symm (hb'.distinctKeys hb) ha hsymm
    exact ⟨(ha'.beq_eq b).symm, hright⟩
  · rintro as bs rfl rfl
    obtain ⟨has, -⟩ := distinctKeys_mapping_iff.1 ha
    simp only [mapping_beq_iff_lookups has hb, mapping.injEq, exists_eq_left']
    rfl
  · intro id
    rw [leaf_beq_iff (.inr (.inr ⟨id, rfl⟩))]
    simp only [reduceCtorEq, false_and, exists_false, false_or, ne_eq, not_false_eq_true,
      implies_true, true_and]
    exact eq_comm

/-- Two zeros, a function and the same keys in another order; and a NaN deep in a value. -/
theorem beq_partial_equivalence_zeros :
    let zero (negative : Bool) : Value := .float (.ofMagnitudeBits negative 0)
    let inner : Value := .mapping [("s", .string "t"), ("u", .boolean true)]
    let inner' : Value := .mapping [("u", .boolean true), ("s", .string "t")]
    let a : Value := .mapping [("k", .sequence [zero false, .function 3]), ("l", inner)]
    let b : Value := .mapping [("l", inner), ("k", .sequence [zero true, .function 3])]
    let b' : Value := .mapping [("l", inner'), ("k", .sequence [zero true, .function 3])]
    let c : Value := .mapping [("k", .sequence [.sequence [.float .nan]])]
    a.DistinctKeys ∧ b.DistinctKeys ∧ c.DistinctKeys ∧ (a == b) = true ∧ (b == a) = true ∧
      (a == b') = true ∧ (a == a) = true ∧ (c == c) = false := by
  intro zero inner inner' a b b' c
  have hinner : inner.DistinctKeys :=
    .mapping (by decide) (by simpa using ⟨.scalar rfl, .scalar rfl⟩)
  have hitems (negative : Bool) : (sequence [zero negative, .function 3]).DistinctKeys :=
    .sequence (by simpa using ⟨.scalar rfl, .function 3⟩)
  have ha : a.DistinctKeys := .mapping (by decide) (by simpa using ⟨hitems false, hinner⟩)
  have hb : b.DistinctKeys := .mapping (by decide) (by simpa using ⟨hinner, hitems true⟩)
  have hc : c.DistinctKeys := by
    refine .mapping (by decide) ?_
    simpa [distinctKeys_sequence_iff] using DistinctKeys.scalar rfl
  have hab : (a == b) = true := by decide
  have hinner' : Reordered inner inner' := .entries (.swap _ _ [])
  have hb' : Reordered b b' := @Reordered.inEntry [] _ "l" inner inner' hinner'
  have hnan : c.Contains (.float .nan) := by
    simp [c, contains_mapping_iff, contains_sequence_iff, Contains.self]
  obtain ⟨hsymm, htrans, horder, -⟩ := beq_partial_equivalence ha hb ha
  obtain ⟨-, -, -, -, -, hself⟩ := beq_partial_equivalence hc hc hc
  refine ⟨ha, hb, hc, hab, hsymm hab, ?_, htrans hab (hsymm hab), ?_⟩
  · exact (horder a b' (.entries (.refl _)) hb').2.trans hab
  · rw [← Bool.not_eq_true, hself]
    intro h
    exact absurd (h _ hnan) (by decide)

end StyleTemplate
