/-
  **Values without a key twice.**

  The type of values cannot say that no mapping has a key twice, since what is said of the
  keys of a mapping would have to be there before the values under them.  `KeyedValue` says
  it of whole values.  They are just the values that are built up from leaves by sequences
  and by inserting pairs (`KeyedValue.byBuilding`), and equality is a partial equivalence
  on them, with nothing to be assumed.  There are no others in a program that inserts its
  values or reads them from documents (`Source.OfDocument.distinctKeys`), since looking up a
  path does not lead out of them (`distinctKeys_of_lookup?`).
-/
import StyleTemplate.Proofs.Toml.DistinctKeys
import StyleTemplate.Proofs.Value.Overwriting

namespace StyleTemplate

open Entries

theorem Entries.ofPairs_of_nodup {α : Type} {entries : Entries α} (h : (keys entries).Nodup) :
    ofPairs entries = entries :=
  (overwritten_iff.1 (overwritten_self h)).symm

namespace Value

/-- What is made of pairs has no key twice, if no value of theirs has. -/
theorem distinctKeys_ofPairs {pairs : List (String × Value)}
    (h : ∀ pair ∈ pairs, pair.2.DistinctKeys) : (mapping (ofPairs pairs)).DistinctKeys := by
  refine .mapping (keys_ofPairs_nodup pairs) fun entry hmem => ?_
  exact h entry ((overwritten_ofPairs pairs).mem_of_mem hmem)

/-- **What is in a value without a key twice has no key twice, either.** -/
theorem DistinctKeys.of_contains {value part : Value} (h : value.DistinctKeys)
    (hpart : value.Contains part) : part.DistinctKeys := by
  induction hpart with
  | self => exact h
  | item hmem _ ih => exact ih (distinctKeys_sequence_iff.1 h _ hmem)
  | entry hmem _ ih => exact ih ((distinctKeys_mapping_iff.1 h).2 _ hmem)

/-- What stands for a value of a document has its keys. -/
theorem distinctKeys_of_ofToml? {v : Toml.Value} {value : Value} (h : v.DistinctKeys)
    (hvalue : ofToml? v = some value) : value.DistinctKeys := by
  induction h generalizing value with
  | @scalar v harray htable =>
    cases v with
    | array items => exact absurd rfl (harray items)
    | table entries => exact absurd rfl (htable entries)
    | _ =>
      obtain rfl := Option.some.inj hvalue
      exact .scalar rfl
  | array _ ih =>
    obtain ⟨items, hitems, rfl⟩ := Option.map_eq_some_iff.1 hvalue
    refine .sequence fun item hmem => ?_
    obtain ⟨v, hv, hitem⟩ := exists_of_mem_itemsOfToml? hitems item hmem
    exact ih v hv hitem
  | table hnodup _ ih =>
    rw [ofToml?] at hvalue
    split at hvalue
    next =>
      obtain ⟨d, -, rfl⟩ := Option.map_eq_some_iff.1 hvalue
      exact .scalar rfl
    next =>
      obtain ⟨entries, hentries, rfl⟩ := Option.map_eq_some_iff.1 hvalue
      obtain ⟨hkeys, hvalues⟩ := entriesOfToml?_eq_some hentries
      refine .mapping (hkeys ▸ hnodup) fun entry hmem => ?_
      obtain ⟨v, hv, hentry⟩ := hvalues entry hmem
      exact ih v hv hentry

end Value

/-! ### Sources -/

/-- Neither the source nor any mapping in it has a key twice. -/
def Source.DistinctKeys (source : Source) : Prop :=
  source.values.Keyed Value.DistinctKeys

theorem Source.distinctKeys_of_ofToml {text : List Char} {source : Source}
    (h : Source.ofToml text = .ok source) : source.DistinctKeys := by
  rw [Source.ofToml] at h
  split at h
  next values hvalues =>
    obtain rfl := Except.ok.inj h
    obtain ⟨vs, hparse, hentries⟩ := Option.bind_eq_some_iff.1 hvalues
    obtain ⟨hnodup, hdistinct⟩ := Toml.keyed_of_parse? hparse
    obtain ⟨hkeys, hvalues⟩ := Value.entriesOfToml?_eq_some hentries
    refine ⟨hkeys ▸ hnodup, fun entry hmem => ?_⟩
    obtain ⟨v, hv, hentry⟩ := hvalues entry hmem
    exact Value.distinctKeys_of_ofToml? (hdistinct v hv) hentry
  next => simp at h

/-- **A source that was read from a document has no key twice.** -/
theorem Source.OfDocument.distinctKeys {source : Source} (h : source.OfDocument) :
    source.DistinctKeys := by
  obtain ⟨text, other, hother, hvalues⟩ := h.exists_text
  have hdistinct := distinctKeys_of_ofToml hother
  rwa [DistinctKeys, hvalues] at hdistinct

theorem Source.DistinctKeys.insert {source : Source} (h : source.DistinctKeys) (key : String)
    {value : Value} (hvalue : value.DistinctKeys) : (source.insert key value).DistinctKeys :=
  Entries.Keyed.insert h key hvalue

/-- **What is looked up has no key twice**, in sources that have none. -/
theorem distinctKeys_of_lookup? {sources : List Source} {source : Source} {path : List String}
    {value : Value} (hsources : ∀ source ∈ sources, source.DistinctKeys)
    (h : lookup? path sources = some (source, value)) : value.DistinctKeys := by
  obtain ⟨hmem, hfind⟩ := mem_of_lookup? h
  cases Source.find?_eq_some_iff.1 hfind with
  | intro htop hreaches =>
    exact ((hsources source hmem).of_get? htop).of_contains hreaches.contains

/-! ### The type of such values -/

/-- A value in which no mapping has a key twice, at any depth. -/
structure KeyedValue where
  value : Value
  distinctKeys : value.DistinctKeys

namespace KeyedValue

instance : BEq KeyedValue := ⟨fun a b => a.value == b.value⟩

/-- **Equality is a partial equivalence** of values without a key twice. -/
instance : PartialEquivBEq KeyedValue where
  symm {a b} hab := Value.beq_symm a.distinctKeys b.distinctKeys hab
  trans {a b c} hab hbc := Value.beq_trans a.distinctKeys b.distinctKeys c.distinctKeys hab hbc

def leaf (value : Value) (h : value.IsLeaf) : KeyedValue where
  value
  distinctKeys := .leaf h

def sequence (items : List KeyedValue) : KeyedValue where
  value := .sequence (items.map (·.value))
  distinctKeys := .sequence (by simpa using fun item _ => item.distinctKeys)

/-- The mapping that pairs come to when they are inserted one after another. -/
def mapping (pairs : List (String × KeyedValue)) : KeyedValue where
  value := .mapping (ofPairs (pairs.map (Prod.map id (·.value))))
  distinctKeys := by
    refine Value.distinctKeys_ofPairs fun pair hmem => ?_
    obtain ⟨pair, -, rfl⟩ := List.mem_map.1 hmem
    exact pair.2.distinctKeys

/-- **Every value without a key twice is built up** from leaves, by sequences and by
    inserting pairs. -/
@[elab_as_elim]
theorem byBuilding {motive : KeyedValue → Prop} (leaf : ∀ value h, motive (leaf value h))
    (sequence : ∀ items, (∀ item ∈ items, motive item) → motive (sequence items))
    (mapping : ∀ pairs, (∀ pair ∈ pairs, motive pair.2) → motive (mapping pairs))
    (a : KeyedValue) : motive a := by
  obtain ⟨value, hdistinct⟩ := a
  induction value using Value.byParts with
  | leaf value hleaf => exact leaf value hleaf
  | sequence items ih =>
    have hitems := Value.distinctKeys_sequence_iff.1 hdistinct
    let parts := items.attach.map fun item => (⟨item.1, hitems item.1 item.2⟩ : KeyedValue)
    have hparts : (⟨.sequence items, hdistinct⟩ : KeyedValue) = .sequence parts := by
      simp [KeyedValue.sequence, parts]
    rw [hparts]
    refine sequence parts fun part hmem => ?_
    obtain ⟨item, -, rfl⟩ := List.mem_map.1 hmem
    exact ih item.1 item.2 _
  | mapping entries ih =>
    obtain ⟨hnodup, hvalues⟩ := Value.distinctKeys_mapping_iff.1 hdistinct
    let pairs := entries.attach.map fun entry =>
      (entry.1.1, (⟨entry.1.2, hvalues entry.1 entry.2⟩ : KeyedValue))
    have hpairs : (⟨.mapping entries, hdistinct⟩ : KeyedValue) = .mapping pairs := by
      have hmap : pairs.map (Prod.map id (·.value)) = entries := by
        rw [List.map_map]
        exact List.attach_map_subtype_val entries
      simp [KeyedValue.mapping, hmap, ofPairs_of_nodup hnodup]
    rw [hpairs]
    refine mapping pairs fun pair hmem => ?_
    obtain ⟨entry, -, rfl⟩ := List.mem_map.1 hmem
    exact ih entry.1 entry.2 _

end KeyedValue

end StyleTemplate
