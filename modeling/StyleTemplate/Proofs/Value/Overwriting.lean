/-
  **Property lists keep the order of declaration.**

  Pairs that are inserted one after another come to one entry for each key: where the key
  first occurred, and with the value of its last occurrence (`Overwritten`).  One step
  appends an entry or puts a value in the place of another (`Overwritten.insert`), so any
  number of them, on top of any entries, does the same (`Overwritten.insertAll`); and there
  are no other entries of that description (`overwritten_iff`).  A property list then has
  one line for each entry, in that order (`isLineOf_of_propertyLines`): in CSS a later
  declaration wins over an earlier one.
-/
import Mathlib.Data.List.Induction
import Mathlib.Data.List.Nodup
import StyleTemplate.Proofs.Value.Equality

namespace StyleTemplate

namespace Entries

variable {α : Type} {pairs entries others : List (String × α)}

/-! ### Last occurrences -/

/-- The last of the pairs with this key has this value. -/
def LastIn (pairs : List (String × α)) (key : String) (value : α) : Prop :=
  ∃ front behind, pairs = front ++ (key, value) :: behind ∧ key ∉ keys behind

theorem lastIn_concat_iff {key key' : String} {value value' : α} :
    LastIn (pairs ++ [(key', value')]) key value ↔
      key = key' ∧ value = value' ∨ key ≠ key' ∧ LastIn pairs key value := by
  constructor
  · rintro ⟨front, behind, heq, hlast⟩
    rcases List.eq_nil_or_concat' behind with rfl | ⟨behind, pair, rfl⟩
    · obtain ⟨-, hpair⟩ := List.append_inj' heq rfl
      simp only [List.cons.injEq, Prod.mk.injEq, and_true] at hpair
      exact .inl ⟨hpair.1.symm, hpair.2.symm⟩
    · rw [← List.cons_append, ← List.append_assoc] at heq
      obtain ⟨rfl, hpair⟩ := List.append_inj' heq rfl
      obtain rfl := List.singleton_inj.1 hpair
      simp only [keys, List.map_append, List.mem_append, not_or] at hlast
      exact .inr ⟨by simpa using hlast.2, front, behind, rfl, hlast.1⟩
  · rintro (⟨rfl, rfl⟩ | ⟨hne, front, behind, rfl, hlast⟩)
    · exact ⟨pairs, [], rfl, by simp [keys]⟩
    · refine ⟨front, behind ++ [(key', value')], by simp, ?_⟩
      simpa [keys, hne] using hlast

theorem LastIn.mem_keys {key : String} {value : α} (h : LastIn pairs key value) :
    key ∈ keys pairs := by
  obtain ⟨front, behind, rfl, -⟩ := h
  simp [keys]

theorem exists_lastIn {key : String} (h : key ∈ keys pairs) : ∃ value, LastIn pairs key value := by
  induction pairs using List.reverseRecOn with
  | nil => simp [keys] at h
  | append_singleton pairs pair ih =>
    obtain ⟨key', value'⟩ := pair
    simp only [lastIn_concat_iff]
    by_cases hkey : key = key'
    · exact ⟨value', .inl ⟨hkey, rfl⟩⟩
    · have hmem : key ∈ keys pairs := by simpa [keys, hkey] using h
      obtain ⟨value, hlast⟩ := ih hmem
      exact ⟨value, .inr ⟨hkey, hlast⟩⟩

theorem lastIn_iff_mem (hnodup : (keys entries).Nodup) {key : String} {value : α} :
    LastIn entries key value ↔ (key, value) ∈ entries := by
  constructor
  · rintro ⟨front, behind, rfl, -⟩
    simp
  · intro hmem
    obtain ⟨front, behind, rfl⟩ := List.append_of_mem hmem
    refine ⟨front, behind, rfl, ?_⟩
    simp only [keys, List.map_append, List.map_cons, List.nodup_append, List.nodup_cons] at hnodup
    exact hnodup.2.1.1

/-! ### What pairs come to -/

/-- `Overwritten pairs entries`: the entries have each key of the pairs where it first
    occurs among them, and the value of its last occurrence. -/
structure Overwritten (pairs : List (String × α)) (entries : Entries α) : Prop where
  mem_iff : ∀ key value, (key, value) ∈ entries ↔ LastIn pairs key value
  ordered : (keys entries).Pairwise fun k l => (keys pairs).idxOf k < (keys pairs).idxOf l

theorem Overwritten.nodup (h : Overwritten pairs entries) : (keys entries).Nodup :=
  h.ordered.imp fun hlt => by
    rintro rfl
    exact lt_irrefl _ hlt

theorem Overwritten.mem_of_mem (h : Overwritten pairs entries) {entry : String × α}
    (hmem : entry ∈ entries) : entry ∈ pairs := by
  obtain ⟨front, behind, rfl, -⟩ := (h.mem_iff entry.1 entry.2).1 hmem
  simp

theorem Overwritten.mem_keys_iff (h : Overwritten pairs entries) {key : String} :
    key ∈ keys entries ↔ key ∈ keys pairs := by
  constructor
  · intro hmem
    obtain ⟨entry, hentry, rfl⟩ := List.mem_map.1 hmem
    exact ((h.mem_iff entry.1 entry.2).1 hentry).mem_keys
  · intro hmem
    obtain ⟨value, hlast⟩ := exists_lastIn hmem
    exact List.mem_map_of_mem (f := Prod.fst) ((h.mem_iff key value).2 hlast)

theorem overwritten_self (hnodup : (keys entries).Nodup) : Overwritten entries entries := by
  refine ⟨fun key value => (lastIn_iff_mem hnodup).symm, ?_⟩
  rw [List.pairwise_iff_getElem]
  intro i j hi hj hij
  rwa [hnodup.idxOf_getElem, hnodup.idxOf_getElem]

theorem mem_insert_iff (hnodup : (keys entries).Nodup) {key key' : String} {value value' : α} :
    (key, value) ∈ insert key' value' entries ↔
      key = key' ∧ value = value' ∨ key ≠ key' ∧ (key, value) ∈ entries := by
  rw [← get?_eq_some_iff (keys_insert_nodup key' value' hnodup)]
  by_cases hkey : key = key'
  · rw [hkey, get?_insert_self]
    simp [eq_comm]
  · rw [get?_insert_of_ne _ _ hkey, get?_eq_some_iff hnodup]
    simp [hkey]

/-- **One more pair** puts its value in the place of an older one, or at the end. -/
theorem Overwritten.insert (h : Overwritten pairs entries) (key : String) (value : α) :
    Overwritten (pairs ++ [(key, value)]) (insert key value entries) := by
  constructor
  · intro key' value'
    rw [mem_insert_iff h.nodup, lastIn_concat_iff, h.mem_iff]
  · have hkeys : keys (pairs ++ [(key, value)]) = keys pairs ++ [key] := by simp [keys]
    have hplace : ∀ k ∈ keys entries, (keys pairs ++ [key]).idxOf k = (keys pairs).idxOf k :=
      fun k hk => List.idxOf_append_of_mem (h.mem_keys_iff.1 hk)
    have hold : (keys entries).Pairwise
        fun k l => (keys pairs ++ [key]).idxOf k < (keys pairs ++ [key]).idxOf l := by
      refine h.ordered.imp_of_mem fun hk hl hlt => ?_
      rwa [hplace _ hk, hplace _ hl]
    rw [keys_insert, hkeys]
    split
    next => exact hold
    next hfresh =>
      refine List.pairwise_append.2 ⟨hold, List.pairwise_singleton _ _, ?_⟩
      intro k hk l hl
      rw [List.mem_singleton.1 hl, hplace k hk,
        List.idxOf_append_of_notMem fun hkey => hfresh (h.mem_keys_iff.2 hkey)]
      exact Nat.lt_add_right _ (List.idxOf_lt_length_of_mem (h.mem_keys_iff.1 hk))

/-- **Pairs inserted one after another** come to what they come to together. -/
theorem Overwritten.insertAll (h : Overwritten pairs entries) (more : List (String × α)) :
    Overwritten (pairs ++ more)
      (more.foldl (fun entries (key, value) => Entries.insert key value entries) entries) := by
  induction more generalizing pairs entries with
  | nil => simpa using h
  | cons pair more ih =>
    have hstep := ih (h.insert pair.1 pair.2)
    rwa [List.append_assoc, List.singleton_append] at hstep

theorem overwritten_ofPairs (pairs : List (String × α)) : Overwritten pairs (ofPairs pairs) :=
  (@overwritten_self α [] List.nodup_nil).insertAll pairs

theorem Overwritten.unique (h : Overwritten pairs entries) (h' : Overwritten pairs others) :
    entries = others := by
  have hmem : ∀ entry, entry ∈ entries ↔ entry ∈ others := by
    rintro ⟨key, value⟩
    rw [h.mem_iff, h'.mem_iff]
  have hperm := (List.perm_ext_iff_of_nodup (.of_map _ h.nodup) (.of_map _ h'.nodup)).2 hmem
  have hentries := List.pairwise_map.1 h.ordered
  have hothers := List.pairwise_map.1 h'.ordered
  refine hperm.eq_of_pairwise ?_ hentries hothers
  intro a b _ _ hlt hgt
  exact absurd hlt (lt_asymm hgt)

theorem overwritten_iff : Overwritten pairs entries ↔ entries = ofPairs pairs := by
  constructor
  · intro h
    exact h.unique (overwritten_ofPairs pairs)
  · rintro rfl
    exact overwritten_ofPairs pairs

end Entries

open Entries

/-- What a source has after some pairs have been inserted. -/
theorem Source.foldl_insert (source : Source) (pairs : List (String × Value)) :
    pairs.foldl (fun source (key, value) => source.insert key value) source =
      { source with values :=
          pairs.foldl (fun entries (key, value) => Entries.insert key value entries) source.values } := by
  induction pairs generalizing source with
  | nil => rfl
  | cons pair pairs ih => exact ih (source.insert pair.1 pair.2)

namespace Value

/-! ### The lines of a property list -/

/-- The line that says a property: its name and the text of its value. -/
def IsLineOf (entry : String × Value) (line : String) : Prop :=
  ∃ text, entry.2.text = .ok text ∧ line = entry.1 ++ ": " ++ text

theorem text_of_propertyText {property text : String} {value : Value}
    (h : propertyText property value = .ok text) : value.text = .ok text := by
  cases value with
  | null | mapping | function => simp [propertyText] at h
  | boolean | integer | bigInteger | float | string | sequence => exact h

/-- **A property list has one line for each entry**, in the order of the entries. -/
theorem isLineOf_of_propertyLines {entries : Entries Value} {lines : List String}
    (h : propertyLines entries = .ok lines) : List.Forall₂ IsLineOf entries lines := by
  induction entries generalizing lines with
  | nil =>
    obtain rfl : [] = lines := by simpa [propertyLines] using h
    exact .nil
  | cons entry more ih =>
    obtain ⟨property, value⟩ := entry
    rw [propertyLines] at h
    cases htext : propertyText property value with
    | error e => simp [htext] at h
    | ok text =>
      cases hmore : propertyLines more with
      | error e => simp [htext, hmore] at h
      | ok others =>
        obtain rfl : (property ++ ": " ++ text) :: others = lines := by
          simpa [htext, hmore] using h
        exact .cons ⟨text, text_of_propertyText htext, rfl⟩ (ih hmore)

theorem exists_lines_of_isProperty {entries : Entries Value}
    (h : ∀ entry ∈ entries, entry.2.IsProperty) (suffix : Option Char) :
    ∃ lines, List.Forall₂ IsLineOf entries lines ∧
      (mapping entries).replacement suffix =
        .ok (propertyEnd.intercalate lines ++ (suffix.map Char.toString).getD propertyEnd) := by
  obtain ⟨lines, hlines⟩ := propertyLines_eq_ok_iff.2 h
  exact ⟨lines, isLineOf_of_propertyLines hlines, by rw [replacement, hlines]⟩

end Value

open Value

/-- **Pairs come to one entry for each key, where the key first occurs and with its last
    value**, whether they are collected or inserted into a source, on top of what that has.
    If all their values can stand in a property, the mapping is written as the lines of
    those entries, in that order. -/
theorem resolve_overwritten {pairs : List (String × Value)}
    (h : ∀ pair ∈ pairs, pair.2.IsProperty) {σ : Type} (host : Host σ) (args : List String)
    (suffix : Option Char) (state : σ) :
    (keys (ofPairs pairs)).Nodup ∧ (∀ key, key ∈ keys (ofPairs pairs) ↔ key ∈ keys pairs) ∧
    (∀ entries, Overwritten pairs entries ↔ entries = ofPairs pairs) ∧
    (∀ source : Source, (keys source.values).Nodup →
      let filled := pairs.foldl (fun source (key, value) => source.insert key value) source
      filled.name? = source.name? ∧ Overwritten (source.values ++ pairs) filled.values) ∧
    ∃ lines, List.Forall₂ IsLineOf (ofPairs pairs) lines ∧
      resolve host (.mapping (ofPairs pairs)) args suffix state =
        (.ok (";\n".intercalate lines ++ (suffix.map Char.toString).getD ";\n"), state) := by
  have hpairs := overwritten_ofPairs pairs
  refine ⟨hpairs.nodup, fun key => hpairs.mem_keys_iff, fun entries => overwritten_iff, ?_, ?_⟩
  · intro source hnodup
    rw [Source.foldl_insert]
    exact ⟨rfl, (overwritten_self hnodup).insertAll pairs⟩
  · have hentries : ∀ entry ∈ ofPairs pairs, entry.2.IsProperty :=
      fun entry hmem => h entry (hpairs.mem_of_mem hmem)
    obtain ⟨lines, hlines, hreplacement⟩ := exists_lines_of_isProperty hentries suffix
    exact ⟨lines, hlines, congrArg (·, state) hreplacement⟩

/-- Two keys twice each, and a source that has one of them already. -/
theorem resolve_overwritten_twice :
    let border : Value := .sequence [.string "thin", .sequence [.string "red"]]
    let pairs : List (String × Value) :=
      [("border", .string "none"), ("z", .integer 1), ("border", border), ("z", .boolean true)]
    let source : Source := ⟨some "theme", [("z", .null)]⟩
    let filled := pairs.foldl (fun source (key, value) => source.insert key value) source
    let host : Host Nat := ⟨fun _ _ calls => (none, calls + 1)⟩
    (∀ pair ∈ pairs, pair.2.IsProperty) ∧ (keys source.values).Nodup ∧
      Overwritten pairs [("border", border), ("z", .boolean true)] ∧
      Overwritten (source.values ++ pairs) filled.values ∧
      filled.values = [("z", .boolean true), ("border", border)] ∧
      resolve host (.mapping (ofPairs pairs)) [] none 5 =
        (.ok "border: thin, red;\nz: true;\n", 5) := by
  intro border pairs source filled host
  have hpairs : ∀ pair ∈ pairs, pair.2.IsProperty := by
    have hborder : border.IsProperty := .inr ⟨_, rfl, by simp [Joinable, leavesOf, leaves, isForeign]⟩
    have hscalar (value : Value) (h : value.isScalar = true) : value.IsProperty := .inl h
    simpa [pairs] using ⟨hscalar _ rfl, hscalar _ rfl, hborder, hscalar _ rfl⟩
  have hsource : (keys source.values).Nodup := by decide
  obtain ⟨-, -, hentries, hfilled, lines, hlines, hresolve⟩ :=
    resolve_overwritten hpairs host [] none 5
  refine ⟨hpairs, hsource, (hentries _).2 rfl, (hfilled source hsource).2, rfl, ?_⟩
  rw [hresolve]
  obtain _ | ⟨⟨border, hborder, rfl⟩, _ | ⟨⟨z, hz, rfl⟩, _ | _⟩⟩ := hlines
  obtain rfl := Except.ok.inj hborder
  obtain rfl := Except.ok.inj hz
  rfl

end StyleTemplate
