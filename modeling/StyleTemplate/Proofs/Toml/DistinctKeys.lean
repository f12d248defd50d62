/-
  **Documents without a key twice.**

  A document says what is in a table bit by bit, and a key that is there already is
  refused or gets more put into its table, in its place.  So no table ever has a key twice:
  not while statements are put together (`Draft.Keyed.add?`), nor in inline tables
  (`distinctKeys_of_inlineTable`), nor in what a document comes to in the end
  (`keyed_of_parse?`).  All changes go through `descend?`, which puts a changed table back
  under its own key (`Level.Keyed.descend?`).
-/
import Mathlib.Data.List.Basic
import StyleTemplate.Proofs.Source.Lookup
import StyleTemplate.Toml.Document

namespace StyleTemplate

/-! ### Entries -/

namespace Entries

variable {α : Type} {P : α → Prop} {entries : Entries α}

/-- No key twice, and a condition on all values. -/
def Keyed (P : α → Prop) (entries : Entries α) : Prop :=
  (keys entries).Nodup ∧ ∀ entry ∈ entries, P entry.2

theorem Keyed.nil : Keyed P ([] : Entries α) :=
  ⟨List.nodup_nil, by simp⟩

theorem mem_or_eq_of_mem_insert {key : String} {value : α} {entry : String × α}
    (h : entry ∈ insert key value entries) : entry ∈ entries ∨ entry = (key, value) := by
  fun_induction insert key value entries with
  | case1 => exact .inr (List.mem_singleton.1 h)
  | case2 v more =>
    rcases List.mem_cons.1 h with rfl | hmore
    · exact .inr rfl
    · exact .inl (List.mem_cons_of_mem _ hmore)
  | case3 k v more hk ih =>
    rcases List.mem_cons.1 h with rfl | hmore
    · exact .inl List.mem_cons_self
    · exact (ih hmore).imp_left (List.mem_cons_of_mem _)

theorem Keyed.insert (h : Keyed P entries) (key : String) {value : α} (hvalue : P value) :
    Keyed P (insert key value entries) := by
  refine ⟨keys_insert_nodup key value h.1, fun entry hmem => ?_⟩
  rcases mem_or_eq_of_mem_insert hmem with hold | rfl
  · exact h.2 entry hold
  · exact hvalue

theorem erase_sublist (key : String) (entries : Entries α) :
    (erase key entries).Sublist entries := by
  fun_induction erase key entries with
  | case1 => exact List.Sublist.slnil
  | case2 v more => exact List.sublist_cons_self _ _
  | case3 k v more hk ih => exact ih.cons_cons _

theorem Keyed.erase (h : Keyed P entries) (key : String) : Keyed P (erase key entries) :=
  ⟨h.1.sublist ((erase_sublist key entries).map _),
    fun entry hmem => h.2 entry ((erase_sublist key entries).subset hmem)⟩

theorem Keyed.of_get? (h : Keyed P entries) {key : String} {value : α}
    (hget : get? key entries = some value) : P value :=
  h.2 _ (mem_of_get? hget)

end Entries

namespace Toml

/-! ### No key twice -/

/-- No table has a key twice, neither the value nor any in it. -/
inductive Value.DistinctKeys : Value → Prop where
  | scalar {v : Value} : (∀ items, v ≠ .array items) → (∀ entries, v ≠ .table entries) →
      DistinctKeys v
  | array {items : List Value} : (∀ item ∈ items, DistinctKeys item) →
      DistinctKeys (.array items)
  | table {entries : Entries Value} : (Entries.keys entries).Nodup →
      (∀ entry ∈ entries, DistinctKeys entry.2) → DistinctKeys (.table entries)

/-- No table has a key twice, of those that are still open. -/
inductive Node.DistinctKeys : Node → Prop where
  | value {v : Value} : v.DistinctKeys → DistinctKeys (.value v)
  | table {origin : Origin} {entries : Entries Node} : (Entries.keys entries).Nodup →
      (∀ entry ∈ entries, DistinctKeys entry.2) → DistinctKeys (.table origin entries)
  | tables {elements : List (Entries Node)} :
      (∀ entries ∈ elements, (Entries.keys entries).Nodup) →
      (∀ entries ∈ elements, ∀ entry ∈ entries, DistinctKeys entry.2) →
      DistinctKeys (.tables elements)

def Level.Keyed (level : Level) : Prop :=
  Entries.Keyed Node.DistinctKeys level.entries

theorem Node.distinctKeys_table_iff {origin : Origin} {entries : Entries Node} :
    (Node.table origin entries).DistinctKeys ↔ Entries.Keyed Node.DistinctKeys entries := by
  constructor
  · intro h
    cases h with
    | table hnodup hvalues => exact ⟨hnodup, hvalues⟩
  · exact fun h => .table h.1 h.2

theorem Node.distinctKeys_tables_iff {elements : List (Entries Node)} :
    (Node.tables elements).DistinctKeys ↔
      ∀ entries ∈ elements, Entries.Keyed Node.DistinctKeys entries := by
  constructor
  · intro h
    cases h with
    | tables hnodup hvalues => exact fun entries hmem => ⟨hnodup entries hmem, hvalues entries hmem⟩
  · intro h
    exact .tables (fun entries hmem => (h entries hmem).1) fun entries hmem => (h entries hmem).2

/-! ### Changes -/

/-- What each step keeps, if it succeeds, all of them keep. -/
theorem foldlM_invariant {α β : Type} {step : α → β → Option α} {inv : α → Prop} {xs : List β}
    {a a' : α} (h : inv a) (hstep : ∀ x ∈ xs, ∀ b b', inv b → step b x = some b' → inv b')
    (hrun : xs.foldlM step a = some a') : inv a' := by
  induction xs generalizing a with
  | nil =>
    obtain rfl := Option.some.inj hrun
    exact h
  | cons x more ih =>
    obtain ⟨hfirst, hmore⟩ := List.forall_mem_cons.1 hstep
    obtain ⟨next, hnext, hrest⟩ := Option.bind_eq_some_iff.1 hrun
    exact ih (hfirst a next h hnext) hmore hrest

theorem Level.Keyed.insert {level : Level} (h : level.Keyed) (key : String) {node : Node}
    (hnode : node.DistinctKeys) :
    Level.Keyed { level with entries := Entries.insert key node level.entries } :=
  Entries.Keyed.insert h key hnode

/-- **What a change keeps in the table at the end of a path, it keeps in the whole.** -/
theorem Level.Keyed.descend? {α : Type} {P : α → Prop} {dotted : Bool} {path : List String}
    {level level' : Level} {change : Level → Option (α × Level)} {a : α} (h : level.Keyed)
    (hchange : ∀ below a below', below.Keyed → change below = some (a, below') →
      P a ∧ below'.Keyed)
    (hdescend : Toml.descend? dotted path level change = some (a, level')) :
    P a ∧ level'.Keyed := by
  induction path generalizing level a level' with
  | nil => exact hchange _ _ _ h hdescend
  | cons key path ih =>
    rw [Toml.descend?] at hdescend
    split at hdescend
    next =>
      obtain ⟨⟨a, below⟩, hbelow, heq⟩ := Option.map_eq_some_iff.1 hdescend
      obtain ⟨rfl, rfl⟩ := Prod.mk.inj heq
      have hempty : Level.Keyed ⟨{ implicit := true, dotted }, []⟩ := Entries.Keyed.nil
      obtain ⟨ha, hkeyed⟩ := ih hempty hbelow
      exact ⟨ha, h.insert key (Node.distinctKeys_table_iff.2 hkeyed)⟩
    next => simp at hdescend
    next origin entries hget =>
      split at hdescend
      · simp at hdescend
      · obtain ⟨⟨a, below⟩, hbelow, heq⟩ := Option.map_eq_some_iff.1 hdescend
        obtain ⟨rfl, rfl⟩ := Prod.mk.inj heq
        have htable : Level.Keyed ⟨origin, entries⟩ :=
          Node.distinctKeys_table_iff.1 (Entries.Keyed.of_get? h hget)
        obtain ⟨ha, hkeyed⟩ := ih htable hbelow
        exact ⟨ha, h.insert key (Node.distinctKeys_table_iff.2 hkeyed)⟩
    next elements hget =>
      split at hdescend
      · simp at hdescend
      next entries hlast =>
        obtain ⟨⟨a, below⟩, hbelow, heq⟩ := Option.map_eq_some_iff.1 hdescend
        obtain ⟨rfl, rfl⟩ := Prod.mk.inj heq
        have htables := Node.distinctKeys_tables_iff.1 (Entries.Keyed.of_get? h hget)
        have hopen : Level.Keyed ⟨{}, entries⟩ := htables entries (List.mem_of_getLast? hlast)
        obtain ⟨ha, hkeyed⟩ := ih hopen hbelow
        refine ⟨ha, h.insert key (Node.distinctKeys_tables_iff.2 fun other hmem => ?_)⟩
        rcases List.mem_append.1 hmem with hold | hnew
        · exact htables other ((List.dropLast_sublist elements).subset hold)
        · rwa [List.mem_singleton.1 hnew]

variable {level level' : Level} {path : List String} {key : String} {entries : Entries Node}

/-- A change of which only the table is kept. -/
theorem Level.Keyed.snd_descend? {dotted : Bool} {change : Level → Option (Unit × Level)}
    (h : level.Keyed)
    (hchange : ∀ below a below', below.Keyed → change below = some (a, below') → below'.Keyed)
    (hdescend : Prod.snd <$> Toml.descend? dotted path level change = some level') :
    level'.Keyed := by
  obtain ⟨⟨a, level'⟩, hfound, rfl⟩ := Option.map_eq_some_iff.1 hdescend
  refine (h.descend? (P := fun _ => True) ?_ hfound).2
  exact fun below a below' hbelow heq => ⟨trivial, hchange below a below' hbelow heq⟩

theorem Level.Keyed.addEntry? {v : Value} (h : level.Keyed) (hvalue : v.DistinctKeys)
    (hadd : Toml.addEntry? path key v level = some level') : level'.Keyed := by
  refine h.snd_descend? ?_ hadd
  intro below a below' hbelow hchange
  split at hchange
  · simp at hchange
  · obtain ⟨-, rfl⟩ := Prod.mk.inj (Option.some.inj hchange)
    exact hbelow.insert key (.value hvalue)

theorem Level.Keyed.openTable? (h : level.Keyed)
    (hopen : Toml.openTable? path key level = some (entries, level')) :
    entries.Keyed Node.DistinctKeys ∧ level'.Keyed := by
  refine h.descend? ?_ hopen
  intro below entries below' hbelow hchange
  split at hchange
  next =>
    obtain ⟨rfl, rfl⟩ := Prod.mk.inj (Option.some.inj hchange)
    exact ⟨.nil, hbelow⟩
  next origin entries hget =>
    split at hchange
    next =>
      obtain ⟨rfl, rfl⟩ := Prod.mk.inj (Option.some.inj hchange)
      exact ⟨Node.distinctKeys_table_iff.1 (Entries.Keyed.of_get? hbelow hget), hbelow.erase key⟩
    next => simp at hchange
  next => simp at hchange

theorem Level.Keyed.openArray? (h : level.Keyed)
    (hopen : Toml.openArray? path key level = some level') : level'.Keyed := by
  refine h.snd_descend? ?_ hopen
  intro below a below' hbelow hchange
  split at hchange
  next =>
    obtain ⟨-, rfl⟩ := Prod.mk.inj (Option.some.inj hchange)
    exact hbelow.insert key (Node.distinctKeys_tables_iff.2 (by simp))
  next =>
    obtain ⟨-, rfl⟩ := Prod.mk.inj (Option.some.inj hchange)
    exact hbelow
  next => simp at hchange

theorem Level.Keyed.closeTable? (h : level.Keyed) (hentries : entries.Keyed Node.DistinctKeys)
    (hclose : Toml.closeTable? path key entries level = some level') : level'.Keyed := by
  refine h.snd_descend? ?_ hclose
  intro below a below' hbelow hchange
  split at hchange
  next =>
    obtain ⟨-, rfl⟩ := Prod.mk.inj (Option.some.inj hchange)
    exact hbelow.insert key (Node.distinctKeys_table_iff.2 hentries)
  next => simp at hchange

theorem Level.Keyed.closeElement? (h : level.Keyed) (hentries : entries.Keyed Node.DistinctKeys)
    (hclose : Toml.closeElement? path key entries level = some level') : level'.Keyed := by
  refine h.snd_descend? ?_ hclose
  intro below a below' hbelow hchange
  split at hchange
  next elements hget =>
    obtain ⟨-, rfl⟩ := Prod.mk.inj (Option.some.inj hchange)
    refine hbelow.insert key (Node.distinctKeys_tables_iff.2 fun other hmem => ?_)
    rcases List.mem_append.1 hmem with hold | hnew
    · exact Node.distinctKeys_tables_iff.1 (Entries.Keyed.of_get? hbelow hget) other hold
    · rwa [List.mem_singleton.1 hnew]
  next => simp at hchange

/-! ### Finished tables -/

theorem keys_finished (entries : Entries Node) :
    Entries.keys (finished entries) = Entries.keys entries := by
  induction entries with
  | nil => rfl
  | cons entry more ih =>
    obtain ⟨key, node⟩ := entry
    simp only [Entries.keys] at ih
    simp [finished, finishedEntry, Entries.keys, ih]

theorem mem_finished {entries : Entries Node} {entry : String × Value}
    (h : entry ∈ finished entries) :
    ∃ node, (entry.1, node) ∈ entries ∧ entry.2 = node.toValue := by
  induction entries with
  | nil => simp [finished] at h
  | cons first more ih =>
    obtain ⟨key, node⟩ := first
    rw [finished] at h
    rcases List.mem_cons.1 h with rfl | hmore
    · exact ⟨node, List.mem_cons_self, rfl⟩
    · obtain ⟨node, hmem, heq⟩ := ih hmore
      exact ⟨node, List.mem_cons_of_mem _ hmem, heq⟩

theorem mem_finishedTables {elements : List (Entries Node)} {v : Value}
    (h : v ∈ finishedTables elements) : ∃ entries ∈ elements, v = .table (finished entries) := by
  induction elements with
  | nil => simp [finishedTables] at h
  | cons entries more ih =>
    rw [finishedTables] at h
    rcases List.mem_cons.1 h with rfl | hmore
    · exact ⟨entries, List.mem_cons_self, rfl⟩
    · obtain ⟨other, hmem, heq⟩ := ih hmore
      exact ⟨other, List.mem_cons_of_mem _ hmem, heq⟩

theorem Node.DistinctKeys.toValue {node : Node} (h : node.DistinctKeys) :
    node.toValue.DistinctKeys := by
  induction h with
  | value h => exact h
  | table hnodup _ ih =>
    refine .table (by rwa [keys_finished]) fun entry hmem => ?_
    obtain ⟨node, hnode, heq⟩ := mem_finished hmem
    rw [heq]
    exact ih _ hnode
  | tables hnodup _ ih =>
    refine .array fun v hmem => ?_
    obtain ⟨entries, hentries, rfl⟩ := mem_finishedTables hmem
    refine .table (by rw [keys_finished]; exact hnodup entries hentries) fun entry hmem => ?_
    obtain ⟨node, hnode, heq⟩ := mem_finished hmem
    rw [heq]
    exact ih entries hentries _ hnode

theorem keyed_finished (h : entries.Keyed Node.DistinctKeys) :
    (finished entries).Keyed Value.DistinctKeys := by
  refine ⟨by rw [keys_finished]; exact h.1, fun entry hmem => ?_⟩
  obtain ⟨node, hnode, heq⟩ := mem_finished hmem
  rw [heq]
  exact (h.2 _ hnode).toValue

/-! ### Readers -/

namespace Reader

variable {α β : Type} {P : α → Prop} {Q : β → Prop}

/-- `r.Gives P`: whatever the reader reads, `P` holds of it. -/
def Gives (P : α → Prop) (r : Reader α) : Prop :=
  ∀ text a rest, r text = some (a, rest) → P a

theorem gives_pure {a : α} (h : P a) : Gives P (pure a : Reader α) := by
  intro text b rest hread
  obtain ⟨rfl, -⟩ := Prod.mk.inj (Option.some.inj hread)
  exact h

theorem gives_failure : Gives P (failure : Reader α) :=
  fun _ _ _ hread => nomatch hread

theorem Gives.bind {r : Reader α} {more : α → Reader β} (h : Gives P r)
    (hmore : ∀ a, P a → Gives Q (more a)) : Gives Q (r >>= more) := by
  intro text b rest hread
  obtain ⟨⟨a, behind⟩, hfirst, hsecond⟩ := Option.bind_eq_some_iff.1 hread
  exact hmore a (h text a behind hfirst) behind b rest hsecond

/-- What has been read before does not matter. -/
theorem gives_bind {r : Reader α} {more : α → Reader β} (hmore : ∀ a, Gives Q (more a)) :
    Gives Q (r >>= more) :=
  Gives.bind (P := fun _ => True) (fun _ _ _ _ => trivial) fun a _ => hmore a

theorem Gives.map {r : Reader α} {f : α → β} (h : Gives P r) (hf : ∀ a, P a → Q (f a)) :
    Gives Q (f <$> r) := by
  intro text b rest hread
  obtain ⟨⟨a, behind⟩, hfirst, heq⟩ := Option.bind_eq_some_iff.1 hread
  obtain ⟨rfl, -⟩ := Prod.mk.inj (Option.some.inj heq)
  exact hf a (h text a behind hfirst)

theorem gives_map {r : Reader α} {f : α → β} (hf : ∀ a, Q (f a)) : Gives Q (f <$> r) :=
  Gives.map (P := fun _ => True) (fun _ _ _ _ => trivial) fun a _ => hf a

theorem Gives.attempt {r : Reader α} (h : Gives P r) :
    Gives (fun a? => ∀ a ∈ a?, P a) (attempt r) := by
  intro text a? rest hread a ha
  rw [Reader.attempt] at hread
  split at hread
  next b behind hfirst =>
    obtain ⟨rfl, -⟩ := Prod.mk.inj (Option.some.inj hread)
    obtain rfl := Option.some.inj ha
    exact h text b behind hfirst
  next =>
    obtain ⟨rfl, -⟩ := Prod.mk.inj (Option.some.inj hread)
    nomatch ha

theorem Gives.upTo {r : Reader α} (h : Gives P r) (n : Nat) :
    Gives (fun as => ∀ a ∈ as, P a) (upTo n r) := by
  induction n with
  | zero => exact gives_pure (by simp)
  | succ n ih =>
    refine h.attempt.bind fun a? ha => ?_
    cases a? with
    | none => exact gives_pure (by simp)
    | some a => exact ih.bind fun as has => gives_pure (List.forall_mem_cons.2 ⟨ha a rfl, has⟩)

theorem Gives.many {r : Reader α} (h : Gives P r) : Gives (fun as => ∀ a ∈ as, P a) (many r) :=
  fun text as rest hread => h.upTo text.length text as rest hread

theorem Gives.many1 {first others : Reader α} (h : Gives P first) (hothers : Gives P others) :
    Gives (fun as => ∀ a ∈ as, P a) (many1 first others) :=
  h.bind fun _ ha => hothers.many.bind fun _ has => gives_pure (List.forall_mem_cons.2 ⟨ha, has⟩)

theorem gives_firstOf {readers : List (Reader α)} (h : ∀ r ∈ readers, Gives P r) :
    Gives P (firstOf readers) := by
  induction readers with
  | nil => exact gives_failure
  | cons r more ih =>
    obtain ⟨hr, hmore⟩ := List.forall_mem_cons.1 h
    refine hr.attempt.bind fun a? ha => ?_
    cases a? with
    | none => exact ih hmore
    | some a => exact gives_pure (ha a rfl)

theorem gives_ofOption {a? : Option α} (h : ∀ a ∈ a?, P a) : Gives P (ofOption a?) := by
  cases a? with
  | none => exact gives_failure
  | some a => exact gives_pure (h a rfl)

/-! ### Values -/

theorem gives_scalar : Gives Value.DistinctKeys scalar := by
  refine gives_firstOf ?_
  simp only [List.forall_mem_cons, List.not_mem_nil, false_implies, implies_true, and_true]
  refine ⟨gives_map ?_, gives_map ?_, gives_map ?_, gives_map ?_, gives_map ?_⟩ <;>
    exact fun _ => .scalar nofun nofun

theorem gives_arrayItems {item : Reader Value} (h : Gives Value.DistinctKeys item) :
    Gives (fun items => ∀ v ∈ items, v.DistinctKeys) (arrayItems item) := by
  intro text items rest hread
  fun_induction arrayItems item text generalizing items rest with
  | case1 =>
    obtain ⟨rfl, -⟩ := Prod.mk.inj (Option.some.inj hread)
    simp
  | case2 text _ start _ _ value behind hitem =>
    obtain ⟨rfl, -⟩ := Prod.mk.inj (Option.some.inj hread)
    simpa using h start value behind hitem
  | case3 text _ start _ _ value behind hitem _ more _ _ ih =>
    obtain ⟨⟨values, last⟩, hmore, heq⟩ := Option.map_eq_some_iff.1 hread
    obtain ⟨rfl, -⟩ := Prod.mk.inj heq
    exact List.forall_mem_cons.2 ⟨h start value behind hitem, ih values last hmore⟩
  | case4 | case5 | case6 | case7 => simp at hread

theorem gives_inlineEntry {item : Reader Value} (h : Gives Value.DistinctKeys item) :
    Gives (fun entry => entry.2.DistinctKeys) (inlineEntry item) :=
  gives_bind fun _ => gives_bind fun _ => gives_bind fun _ =>
    h.bind fun _ hvalue => gives_bind fun _ => gives_pure hvalue

theorem gives_inlineEntries {item : Reader Value} (h : Gives Value.DistinctKeys item) :
    Gives (fun entries => ∀ entry ∈ entries, entry.2.DistinctKeys) (inlineEntries item) := by
  have hentries := (gives_inlineEntry h).many1
    (@gives_bind _ _ _ (skip ',') _ fun _ => gives_inlineEntry h)
  refine gives_bind fun _ => gives_bind fun closed => ?_
  cases closed with
  | true => exact gives_pure (by simp)
  | false => exact hentries.bind fun _ hkeyed => gives_bind fun _ => gives_pure hkeyed

/-- **An inline table has no key twice.** -/
theorem distinctKeys_of_inlineTable {entries : List (Key × Value)} {v : Value}
    (h : ∀ entry ∈ entries, entry.2.DistinctKeys) (htable : inlineTable entries = some v) :
    v.DistinctKeys := by
  obtain ⟨level, hlevel, heq⟩ := Option.bind_eq_some_iff.1 htable
  obtain rfl := Option.some.inj heq
  have hempty : Level.Keyed {} := Entries.Keyed.nil
  have hkeyed : level.Keyed := foldlM_invariant hempty
    (fun entry hmem _ _ hbefore hadd => hbefore.addEntry? (h entry hmem) hadd) hlevel
  exact .table (keyed_finished hkeyed).1 (keyed_finished hkeyed).2

/-- **A value has no key twice**, however deep. -/
theorem gives_value (depth : Nat) : Gives Value.DistinctKeys (value depth) := by
  induction depth with
  | zero => exact gives_scalar
  | succ depth ih =>
    refine gives_bind fun isArray => ?_
    cases isArray with
    | true => exact (gives_arrayItems ih).map fun _ hitems => .array hitems
    | false =>
      refine gives_bind fun isTable => ?_
      cases isTable with
      | true =>
        refine (gives_inlineEntries ih).bind fun entries hentries => ?_
        exact gives_ofOption fun v hv => distinctKeys_of_inlineTable hentries hv
      | false => exact gives_scalar

end Reader

/-! ### Documents -/

/-- What a statement says has no key twice. -/
def Statement.DistinctKeys : Statement → Prop
  | .entry _ v => v.DistinctKeys
  | .header _ | .arrayHeader _ => True

theorem Reader.gives_entryLine : Gives Statement.DistinctKeys entryLine :=
  gives_bind fun _ => gives_bind fun _ => gives_bind fun _ =>
    (gives_value _).bind fun _ hvalue => gives_bind fun _ => gives_pure hvalue

theorem Reader.gives_headerLine : Gives Statement.DistinctKeys headerLine := by
  refine gives_bind fun _ => gives_bind fun isArray => ?_
  cases isArray with
  | true => exact gives_bind fun _ => gives_bind fun _ => gives_bind fun _ => gives_pure trivial
  | false => exact gives_bind fun _ => gives_bind fun _ => gives_bind fun _ => gives_pure trivial

/-- What a line says has no key twice, if it says anything. -/
def LineKeyed (statement? : Option Statement) : Prop :=
  ∀ s ∈ statement?, s.DistinctKeys

theorem Reader.gives_line : Gives LineKeyed line := by
  have hempty : Gives LineKeyed emptyLine :=
    gives_bind fun _ => gives_bind fun _ => gives_pure (by simp [LineKeyed])
  have hsome : ∀ r, Gives Statement.DistinctKeys r → Gives LineKeyed (some <$> r) :=
    fun _ h => h.map fun _ hs => by simpa [LineKeyed] using hs
  have hblank : ∀ r, Gives LineKeyed r →
      Gives LineKeyed (r >>= fun statement? => blank >>= fun _ => pure statement?) :=
    fun _ h => h.bind fun _ hs => gives_bind fun _ => gives_pure hs
  refine gives_bind fun c? => ?_
  split
  · exact hblank _ gives_failure
  · exact hblank _ (hsome _ gives_headerLine)
  · exact hblank _ hempty
  · exact hblank _ hempty
  · exact hblank _ hempty
  · exact hblank _ (hsome _ gives_entryLine)

theorem Reader.gives_statements :
    Gives (fun statements => ∀ s ∈ statements, s.DistinctKeys) statements := by
  refine gives_bind fun _ => gives_bind fun _ => gives_line.many.bind fun lines hlines => ?_
  refine gives_bind fun _ => gives_pure fun s hmem => ?_
  obtain ⟨statement?, hline, hs⟩ := List.mem_filterMap.1 hmem
  exact hlines statement? hline s hs

/-- A draft all of whose tables have no key twice. -/
structure Draft.Keyed (d : Draft) : Prop where
  root : d.root.Keyed
  current : d.current.Keyed

theorem Draft.Keyed.close? {d : Draft} {level : Level} (h : d.Keyed)
    (hclose : d.close? = some level) : level.Keyed := by
  rw [Draft.close?] at hclose
  split at hclose
  · obtain rfl := Option.some.inj hclose
    exact h.current
  · exact h.root.closeTable? h.current hclose
  · exact h.root.closeElement? h.current hclose

/-- **A statement puts no key beside itself**, whatever has been said before. -/
theorem Draft.Keyed.add? {d d' : Draft} {s : Statement} (h : d.Keyed) (hs : s.DistinctKeys)
    (hadd : d.add? s = some d') : d'.Keyed := by
  cases s with
  | entry key v =>
    obtain ⟨current, hcurrent, heq⟩ := Option.bind_eq_some_iff.1 hadd
    obtain rfl := Option.some.inj heq
    exact ⟨h.root, h.current.addEntry? hs hcurrent⟩
  | header key =>
    obtain ⟨closed, hclosed, hadd⟩ := Option.bind_eq_some_iff.1 hadd
    obtain ⟨⟨entries, root⟩, hopen, heq⟩ := Option.bind_eq_some_iff.1 hadd
    obtain rfl := Option.some.inj heq
    obtain ⟨hentries, hroot⟩ := (h.close? hclosed).openTable? hopen
    exact ⟨hroot, hentries⟩
  | arrayHeader key =>
    obtain ⟨closed, hclosed, hadd⟩ := Option.bind_eq_some_iff.1 hadd
    obtain ⟨root, hopen, heq⟩ := Option.bind_eq_some_iff.1 hadd
    obtain rfl := Option.some.inj heq
    exact ⟨(h.close? hclosed).openArray? hopen, Entries.Keyed.nil⟩

/-- **A document has no key twice**, in whichever of its tables. -/
theorem keyed_of_parse? {text : List Char} {entries : Entries Value}
    (h : parse? text = some entries) : entries.Keyed Value.DistinctKeys := by
  obtain ⟨⟨statements, rest⟩, hstatements, h⟩ := Option.bind_eq_some_iff.1 h
  obtain ⟨draft, hdraft, h⟩ := Option.bind_eq_some_iff.1 h
  obtain ⟨level, hlevel, h⟩ := Option.bind_eq_some_iff.1 h
  obtain rfl := Option.some.inj h
  have hdistinct := Reader.gives_statements _ _ _ hstatements
  have hempty : Draft.Keyed {} := ⟨Entries.Keyed.nil, Entries.Keyed.nil⟩
  have hkeyed : draft.Keyed := foldlM_invariant hempty
    (fun s hmem _ _ hbefore hadd => hbefore.add? (hdistinct s hmem) hadd) hdraft
  exact keyed_finished (hkeyed.close? hlevel)

end Toml

end StyleTemplate
