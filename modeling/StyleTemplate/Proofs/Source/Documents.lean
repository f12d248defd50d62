/-
  **What documents can bring into a text.**

  A source read from a document has no null, no number beyond the ordinary and no function
  in it, however deep (`OfDocument.of_contains`).  So writing one of its values fails only
  for a mapping that stands in a sequence, or in a mapping (`OfDocument.forMapping`).  And
  as it is null alone that swallows a suffix, whatever is put in the place of a
  placeholder ends with the placeholder's suffix (`KeepsSuffix`).
-/
import StyleTemplate.Proofs.Source.Lookup
import StyleTemplate.Proofs.Substitution.Endings
import StyleTemplate.Proofs.Token.Locality
import StyleTemplate.Source.Loading

namespace StyleTemplate

namespace Value

/-! ### What is in a value -/

/-- `value.Contains part`: the part is the value itself, or stands in it at any depth. -/
inductive Contains : Value → Value → Prop where
  | self {value : Value} : Contains value value
  | item {items : List Value} {item part : Value} :
      item ∈ items → Contains item part → Contains (.sequence items) part
  | entry {entries : Entries Value} {key : String} {value part : Value} :
      (key, value) ∈ entries → Contains value part → Contains (.mapping entries) part

mutual

theorem contains_of_mem_leaves (value : Value) {leaf : Value} (h : leaf ∈ value.leaves) :
    value.Contains leaf := by
  cases value with
  | sequence items =>
    rw [leaves] at h
    obtain ⟨item, hmem, hitem⟩ := exists_contains_of_mem_leavesOf items h
    exact .item hmem hitem
  | _ =>
    simp only [leaves, List.mem_singleton] at h
    rw [h]
    exact .self
termination_by structural value

theorem exists_contains_of_mem_leavesOf (items : List Value) {leaf : Value}
    (h : leaf ∈ leavesOf items) : ∃ item ∈ items, item.Contains leaf := by
  cases items with
  | nil => simp [leavesOf] at h
  | cons item more =>
    rw [leavesOf, List.mem_append] at h
    rcases h with hitem | hmore
    · exact ⟨item, List.mem_cons_self, contains_of_mem_leaves item hitem⟩
    · obtain ⟨other, hmem, hother⟩ := exists_contains_of_mem_leavesOf more hmore
      exact ⟨other, List.mem_cons_of_mem _ hmem, hother⟩
termination_by structural items

end

/-! ### Values of documents -/

/-- Whether a value of a document stands for this value. -/
def OfDocument (value : Value) : Prop :=
  ∃ v, ofToml? v = some value

theorem exists_of_mem_itemsOfToml? {vs : List Toml.Value} {items : List Value}
    (h : itemsOfToml? vs = some items) : ∀ item ∈ items, ∃ v ∈ vs, ofToml? v = some item := by
  induction vs generalizing items with
  | nil =>
    obtain rfl : [] = items := by simpa [itemsOfToml?] using h
    simp
  | cons v vs ih =>
    simp only [itemsOfToml?, Option.bind_eq_bind, Option.bind_eq_some_iff, Option.pure_def,
      Option.some_inj] at h
    obtain ⟨item, hitem, more, hmore, rfl⟩ := h
    refine List.forall_mem_cons.2 ⟨⟨v, List.mem_cons_self, hitem⟩, fun other hmem => ?_⟩
    obtain ⟨w, hw, hother⟩ := ih hmore other hmem
    exact ⟨w, List.mem_cons_of_mem _ hw, hother⟩

/-- Entries stand for those of a document with the same keys, in the same order. -/
theorem entriesOfToml?_eq_some {vs : List (String × Toml.Value)} {entries : Entries Value}
    (h : entriesOfToml? vs = some entries) : Entries.keys entries = Entries.keys vs ∧
      ∀ entry ∈ entries, ∃ v ∈ vs, ofToml? v.2 = some entry.2 := by
  induction vs generalizing entries with
  | nil =>
    obtain rfl : [] = entries := by simpa [entriesOfToml?] using h
    simp [Entries.keys]
  | cons v vs ih =>
    obtain ⟨key, v⟩ := v
    simp only [entriesOfToml?, entryOfToml?, Option.bind_eq_bind, Option.bind_eq_some_iff,
      Option.map_eq_some_iff, Option.pure_def, Option.some_inj] at h
    obtain ⟨entry, ⟨value, hvalue, rfl⟩, more, hmore, rfl⟩ := h
    obtain ⟨hkeys, hvalues⟩ := ih hmore
    refine ⟨congrArg (key :: ·) hkeys, ?_⟩
    refine List.forall_mem_cons.2 ⟨⟨_, List.mem_cons_self, hvalue⟩, fun other hmem => ?_⟩
    obtain ⟨w, hw, hother⟩ := hvalues other hmem
    exact ⟨w, List.mem_cons_of_mem _ hw, hother⟩

/-- A value of a document is a scalar of ordinary size, or has values of the document in
    it. -/
theorem OfDocument.cases_value {value : Value} (h : value.OfDocument) :
    (value.isScalar = true ∧ value.kind ≠ .bigInteger) ∨
      (∃ items, value = .sequence items ∧ ∀ item ∈ items, item.OfDocument) ∨
      ∃ entries, value = .mapping entries ∧ ∀ entry ∈ entries, entry.2.OfDocument := by
  obtain ⟨v, hv⟩ := h
  cases v with
  | array items =>
    obtain ⟨values, hvalues, rfl⟩ := Option.map_eq_some_iff.1 hv
    refine .inr (.inl ⟨values, rfl, fun item hmem => ?_⟩)
    obtain ⟨w, -, hw⟩ := exists_of_mem_itemsOfToml? hvalues item hmem
    exact ⟨w, hw⟩
  | table entries =>
    rw [ofToml?] at hv
    split at hv
    next =>
      obtain ⟨d, -, rfl⟩ := Option.map_eq_some_iff.1 hv
      exact .inl ⟨rfl, by simp [kind]⟩
    next =>
      obtain ⟨values, hvalues, rfl⟩ := Option.map_eq_some_iff.1 hv
      refine .inr (.inr ⟨values, rfl, fun entry hmem => ?_⟩)
      obtain ⟨w, -, hw⟩ := (entriesOfToml?_eq_some hvalues).2 entry hmem
      exact ⟨w.2, hw⟩
  | _ =>
    obtain rfl := Option.some_inj.1 hv
    exact .inl ⟨rfl, by simp [kind]⟩

/-- **What is in a value of a document is one, too.** -/
theorem OfDocument.of_contains {value part : Value} (h : value.OfDocument)
    (hpart : value.Contains part) : part.OfDocument := by
  induction hpart with
  | self => exact h
  | item hmem _ ih =>
    rcases h.cases_value with ⟨hscalar, -⟩ | ⟨_, heq, hitems⟩ | ⟨_, heq, _⟩
    · simp [isScalar] at hscalar
    · exact ih (hitems _ (sequence.inj heq ▸ hmem))
    · simp at heq
  | entry hmem _ ih =>
    rcases h.cases_value with ⟨hscalar, -⟩ | ⟨_, heq, _⟩ | ⟨_, heq, hentries⟩
    · simp [isScalar] at hscalar
    · simp at heq
    · exact ih (hentries _ (mapping.inj heq ▸ hmem))

/-- No document says a null, a number beyond the ordinary, or a function. -/
theorem OfDocument.kind_not_mem {value : Value} (h : value.OfDocument) :
    value.kind ∉ [.null, .bigInteger, .function] := by
  rcases h.cases_value with ⟨hscalar, hkind⟩ | ⟨items, rfl, -⟩ | ⟨entries, rfl, -⟩
  · cases value <;> simp_all [isScalar, kind]
  · simp [kind]
  · simp [kind]

/-- What a path reaches in a value is in the value. -/
theorem Reaches.contains {value found : Value} {path : List String}
    (h : value.Reaches path found) : value.Contains found := by
  induction h with
  | here => exact .self
  | child hchild _ ih =>
    cases hchild with
    | key hget => exact .entry (Entries.mem_of_get? hget) ih
    | position _ _ hitem => exact .item (List.mem_of_getElem? hitem) ih

/-! ### Writing a value of a document -/

section Writing

variable {value : Value} (h : value.OfDocument)
include h

theorem OfDocument.kind_eq_of_isForeign (hforeign : value.isForeign = true) :
    value.kind = .mapping := by
  have hkind := h.kind_not_mem
  cases value <;> simp_all [isForeign, kind]

theorem OfDocument.ne_null : value ≠ .null := by
  rintro rfl
  exact h.kind_not_mem (by simp [kind])

theorem OfDocument.ne_function (id : FunctionId) : value ≠ .function id := by
  rintro rfl
  exact h.kind_not_mem (by simp [kind])

end Writing

end Value

/-- Whether an error is about a mapping where none can stand. -/
def ResolveError.ForMapping (error : ResolveError) : Prop :=
  error = .invalidSequenceElement .mapping ∨
    ∃ property, error = .invalidPropertyValue property .mapping

namespace Value

/-- **A value of a document can only be in the way for being a mapping.** -/
theorem OfDocument.forMapping {value : Value} {error : ResolveError} (h : value.OfDocument)
    (hoffends : value.Offends error) : error.ForMapping := by
  induction hoffends with
  | @element items front behind leaf heq _ hleaf =>
    have hcontains : (sequence items).Contains leaf := by
      apply contains_of_mem_leaves
      rw [leaves, heq]
      simp
    rw [(h.of_contains hcontains).kind_eq_of_isForeign hleaf]
    exact .inl rfl
  | @property front behind key value _ hvalue =>
    have hof : value.OfDocument := h.of_contains (.entry (List.mem_append_cons_self) .self)
    rw [hof.kind_eq_of_isForeign (hvalue.resolve_left hof.ne_null)]
    exact .inr ⟨key, rfl⟩
  | propertyElement _ _ ih =>
    -- the sequence under the key is one of the document, which is all that `ih` asks for
    exact ih (h.of_contains (.entry (List.mem_append_cons_self) .self))

end Value

/-! ### Sources of documents -/

/-- Whether a source is a document, read as a text or from a file. -/
inductive Source.OfDocument (source : Source) : Prop where
  | text {text : List Char} : Source.ofToml text = .ok source → OfDocument source
  | file {read : FileReader} {path : String} :
      Source.ofFile read path = .ok source → OfDocument source

theorem ofDocument_of_ofToml {text : List Char} {source : Source}
    (h : Source.ofToml text = .ok source) :
    ∀ entry ∈ source.values, entry.2.OfDocument := by
  rw [Source.ofToml] at h
  split at h
  next values hvalues =>
    obtain rfl := Except.ok.inj h
    obtain ⟨vs, -, hentries⟩ := Option.bind_eq_some_iff.1 hvalues
    intro entry hmem
    obtain ⟨w, -, hw⟩ := (Value.entriesOfToml?_eq_some hentries).2 entry hmem
    exact ⟨w.2, hw⟩
  next => simp at h

/-- The values of a source are those of a text, however the source was read. -/
theorem Source.OfDocument.exists_text {source : Source} (h : source.OfDocument) :
    ∃ text other, Source.ofToml text = .ok other ∧ other.values = source.values := by
  cases h with
  | @text text h => exact ⟨text, source, h, rfl⟩
  | file h =>
    rw [Source.ofFile] at h
    split at h
    next => simp at h
    next text _ =>
      split at h
      next other hother =>
        obtain rfl := Except.ok.inj h
        exact ⟨text, other, hother, rfl⟩
      next => simp at h

theorem Source.OfDocument.forall_values {source : Source} (h : source.OfDocument) :
    ∀ entry ∈ source.values, entry.2.OfDocument := by
  obtain ⟨text, other, hother, hvalues⟩ := h.exists_text
  exact hvalues ▸ ofDocument_of_ofToml hother

variable {sources : List Source}

/-- What is found in documents is a value of one. -/
theorem ofDocument_of_lookup? (hsources : ∀ source ∈ sources, source.OfDocument)
    {path : List String} {source : Source} {value : Value}
    (h : lookup? path sources = some (source, value)) : value.OfDocument := by
  obtain ⟨hmem, hfind⟩ := mem_of_lookup? h
  cases Source.find?_eq_some_iff.1 hfind with
  | intro htop hreaches =>
    have htopof := (hsources source hmem).forall_values _ (Entries.mem_of_get? htop)
    exact htopof.of_contains hreaches.contains

/-! ### Placeholders for values of documents -/

/-- Whether a text ends with the suffix of the token that it stands for. -/
def KeepsSuffix (token : Token) (text : List Char) : Prop :=
  ∀ c, token.suffix = some c → ∃ front, text = front ++ [c]

section Resolve

variable {σ : Type} {host : Host σ} {value : Value} {args : List String} {suffix : Option Char}
  {functions functions' : σ}

/-- Resolving a value of a document calls nothing. -/
theorem Value.OfDocument.resolve_eq (h : value.OfDocument) :
    resolve host value args suffix functions = (value.replacement suffix, functions) := by
  cases value with
  | function id => exact absurd rfl (h.ne_function id)
  | _ => rfl

theorem Value.OfDocument.forMapping_of_resolve (h : value.OfDocument) {error : ResolveError}
    (hresolve : resolve host value args suffix functions = (.error error, functions')) :
    error.ForMapping := by
  rw [h.resolve_eq] at hresolve
  rcases Value.replacement_eq_error_iff.1 (Prod.mk.inj hresolve).1 with ⟨⟨id, hid⟩, -⟩ | hoffends
  · exact absurd hid (h.ne_function id)
  · exact h.forMapping hoffends

theorem Value.OfDocument.ends_of_resolve (h : value.OfDocument) {c : Char} {text : String}
    (hresolve : resolve host value args (some c) functions = (.ok text, functions')) :
    ∃ front, text.toList = front ++ [c] := by
  rw [h.resolve_eq] at hresolve
  exact value.replacement_ends h.ne_null (Prod.mk.inj hresolve).1

end Resolve

theorem SuffixForm.ends {written rest : List Char} {suffix : Option Char}
    (h : SuffixForm written suffix rest) {c : Char} (hc : suffix = some c) :
    ∃ front, written = front ++ [c] := by
  cases h with
  | @terminator blank d rest hblank hd =>
    obtain rfl := Option.some_inj.1 hc
    exact ⟨blank, rfl⟩
  | white hd hnext =>
    obtain rfl := Option.some_inj.1 hc
    exact ⟨[], rfl⟩
  | none => simp at hc

theorem PhraseForm.ends {marker : Char} {written rest : List Char} {phrase : Phrase}
    (h : PhraseForm marker written phrase rest) {c : Char} (hc : phrase.suffix = some c) :
    ∃ front, written = front ++ [c] := by
  cases h with
  | escape hsuffix =>
    obtain ⟨front, rfl⟩ := hsuffix.ends hc
    exact ⟨marker :: front, rfl⟩
  | @named name params _ _ _ _ _ _ _ _ _ hsuffix =>
    obtain ⟨front, rfl⟩ := hsuffix.ends hc
    exact ⟨name ++ (params ++ front), by simp⟩

theorem Scanned.keepsSuffix_raw {marker : Char} {position : Position} {text : List Char}
    {gaps : List (List Char)} {tokens : List Token}
    (h : Scanned marker position text gaps tokens) :
    ∀ token ∈ tokens, KeepsSuffix token token.raw.toList := by
  intro token hmem c hc
  obtain ⟨phrase, start, written, rest, hform, rfl⟩ := h.exists_form token hmem
  obtain ⟨front, rfl⟩ := hform.ends hc
  exact ⟨marker :: front, by simp⟩

variable {σ τ : Type} {p : Processor σ τ}

theorem keepsSuffix_escape (marker : Char) (token : Token) :
    KeepsSuffix token (marker :: token.suffix.toList) := by
  intro c hc
  exact ⟨[marker], by simp [hc]⟩

theorem keepsSuffix_of_resolve (hsources : ∀ source ∈ sources, source.OfDocument)
    {host : Host σ} {token : Token} {source : Source} {value : Value} {functions functions' : σ}
    {text : String} (hlookup : lookup? token.path sources = some (source, value))
    (hresolve : resolve host value token.args token.suffix functions = (.ok text, functions')) :
    KeepsSuffix token text.toList := by
  intro c hc
  rw [hc] at hresolve
  exact (ofDocument_of_lookup? hsources hlookup).ends_of_resolve hresolve

theorem keepsSuffix_of_replacement? (hsources : ∀ source ∈ sources, source.OfDocument)
    {token : Token} {functions functions' : σ} {text : String}
    (h : p.replacement? sources token functions = (.ok (some text), functions')) :
    KeepsSuffix token text.toList := by
  have hwritten := written_replacement? p sources token functions
  rw [h] at hwritten
  cases hwritten with
  | escape =>
    rw [toList_marker_append_suffixText]
    exact keepsSuffix_escape _ token
  | resolved _ hlookup hresolve => exact keepsSuffix_of_resolve hsources hlookup hresolve

theorem StandIn.keepsSuffix (hsources : ∀ source ∈ sources, source.OfDocument) {collapse : Bool}
    {token : Token} {before after : σ} {text : List Char}
    (hraw : KeepsSuffix token token.raw.toList)
    (h : StandIn p sources collapse token before text after) : KeepsSuffix token text := by
  cases h with
  | escapeKept => exact hraw
  | escapeCollapsed => exact keepsSuffix_escape _ token
  | notFound => exact hraw
  | failed => exact hraw
  | resolved _ hlookup hresolve => exact keepsSuffix_of_resolve hsources hlookup hresolve

/-! ### Runs with documents -/

theorem Failures.forMapping (hsources : ∀ source ∈ sources, source.OfDocument) {host : Host σ}
    {tokens : List Token} {failed : List (Token × ResolveError)} {functions functions' : σ}
    (h : Failures host sources tokens functions failed functions') :
    ∀ failure ∈ failed, failure.2.ForMapping := by
  induction h with
  | nil => simp
  | escape _ _ ih => exact ih
  | notFound _ _ _ ih => exact ih
  | resolved _ _ _ _ ih => exact ih
  | failed _ hlookup hresolve _ ih =>
    have hfirst := (ofDocument_of_lookup? hsources hlookup).forMapping_of_resolve hresolve
    exact List.forall_mem_cons.2 ⟨hfirst, ih⟩

theorem Ending.forMapping {pass : Pass σ} {result : Except SubstituteError (List Char)}
    {failed : List (Token × ResolveError)} (h : Ending p pass result failed)
    (hsources : ∀ source ∈ pass.sources, source.OfDocument) :
    ∀ failure ∈ failed, failure.2.ForMapping := by
  cases h with
  | malformed => simp
  | finished _ hfailed => exact hfailed.forMapping hsources
  | stopped _ hfailed => exact hfailed.forMapping hsources

theorem Endings.forMapping {passes : List (Pass σ)} {failed : List (Token × ResolveError)}
    (h : Endings p passes failed)
    (hsources : ∀ pass ∈ passes, ∀ source ∈ pass.sources, source.OfDocument) :
    ∀ failure ∈ failed, failure.2.ForMapping := by
  induction h with
  | nil => simp
  | cons hending _ ih =>
    obtain ⟨hfirst, hmore⟩ := List.forall_mem_cons.1 hsources
    exact List.forall_mem_append.2 ⟨hending.forMapping hfirst, ih hmore⟩

/-- A pass that hands back the error of a token has that token among what failed. -/
theorem Endings.exists_of_unresolved {passes : List (Pass σ)}
    {failed : List (Token × ResolveError)} (h : Endings p passes failed) {pass : Pass σ}
    (hmem : pass ∈ passes) {raw : String} {error : ResolveError}
    (hresult : (p.perform pass).1 = .error (.unresolved raw error)) :
    ∃ token, token.raw = raw ∧ (token, error) ∈ failed := by
  induction h with
  | nil => simp at hmem
  | cons hending _ ih =>
    rcases List.mem_cons.1 hmem with rfl | hmem
    · rw [hresult] at hending
      cases hending with
      | stopped => exact ⟨_, rfl, List.mem_append_left _ List.mem_cons_self⟩
    · obtain ⟨token, hraw, hfailed⟩ := ih hmem
      exact ⟨token, hraw, List.mem_append_right _ hfailed⟩

/-- A pass of a chain has its source from the chain. -/
theorem Processor.mem_of_mem_chain (p : Processor σ τ) (sources : List Source)
    (text : List Char) (functions : σ) :
    ∀ pass ∈ p.chain sources text functions, ∀ source ∈ pass.sources, source ∈ sources := by
  fun_induction p.chain sources text functions with
  | case1 => simp
  | case2 => simp
  | case3 source more text functions _ first text' state _ ih =>
    rw [List.forall_mem_cons]
    constructor
    · simp [first]
    · intro pass hmem source' hsource
      exact List.mem_cons_of_mem _ (ih pass hmem source' hsource)
  | case4 source more text functions _ first => simp [first]

theorem Processor.mem_of_mem_passes (p : Processor σ τ) {chained : Bool} {sources : List Source}
    {text : List Char} {functions : σ} {pass : Pass σ}
    (h : pass ∈ p.passes chained sources text functions) :
    ∀ source ∈ pass.sources, source ∈ sources := by
  cases chained with
  | false =>
    obtain rfl := List.mem_singleton.1 h
    exact fun _ hsource => hsource
  | true => exact p.mem_of_mem_chain sources text functions pass h

/-- Between the gaps of its text, a pass with documents puts texts that end as their tokens
    do. -/
theorem exists_keepsSuffix_of_pass (hsources : ∀ source ∈ sources, source.OfDocument)
    {collapse : Bool} {text out : List Char} {state state' : RunState σ τ}
    (h : p.pass sources collapse text state = (.ok out, state')) :
    ∃ tokens gaps texts, scanAll p.options.marker (normalize text) = .ok tokens ∧
      gaps? (normalize text) tokens = some gaps ∧
      StandIns p sources collapse tokens state.functions texts state'.functions ∧
      out = interleave gaps texts ∧ List.Forall₂ KeepsSuffix tokens texts := by
  obtain ⟨gaps, tokens, hscanned, hreplace⟩ := exists_scanned_of_pass h
  obtain ⟨texts, hstand, rfl⟩ := hscanned.replaceAll_ok hreplace
  refine ⟨tokens, gaps, texts, scanFrom_eq_ok_iff.2 ⟨gaps, hscanned⟩, hscanned.gapsFrom?_eq,
    hstand, rfl, ?_⟩
  apply hstand.forall₂
  intro token hmem functions standIn functions' hstandIn
  exact hstandIn.keepsSuffix hsources (hscanned.keepsSuffix_raw token hmem)

/-- **Documents bring no null, no number beyond the ordinary and no function into a run.**
    So whatever its tokens fail for is a mapping in a sequence or in a mapping: that is all
    it reports, and the only error of a token that it hands back.  And each token is
    replaced by a text that ends with its suffix. -/
theorem run_with_documents (hsources : ∀ source ∈ sources, source.OfDocument)
    (p : Processor σ τ) (chained : Bool) (text : List Char) (state : RunState σ τ) :
    (∀ source ∈ sources, ∀ entry ∈ source.values, ∀ part, entry.2.Contains part →
      part.kind ∉ [.null, .bigInteger, .function]) ∧
    (∃ failed, Endings p (p.passes chained sources text state.functions) failed ∧
      (p.run chained sources text state).2.reported =
        p.sink.reportAll (p.diagnosticsOf failed) state.reported ∧
      (∀ raw error, (p.run chained sources text state).1 = .error (.unresolved raw error) →
        ∃ token, token.raw = raw ∧ (token, error) ∈ failed) ∧
      ∀ failure ∈ failed, failure.2.ForMapping) ∧
    ∀ pass ∈ p.passes chained sources text state.functions,
      (∀ token functions replacement functions',
        p.replacement? pass.sources token functions = (.ok (some replacement), functions') →
          KeepsSuffix token replacement.toList) ∧
      ∀ reported out state',
        p.pass pass.sources pass.collapse pass.text ⟨pass.functions, reported⟩ =
          (.ok out, state') →
        ∃ tokens gaps texts, scanAll p.options.marker (normalize pass.text) = .ok tokens ∧
          gaps? (normalize pass.text) tokens = some gaps ∧
          StandIns p pass.sources pass.collapse tokens pass.functions texts state'.functions ∧
          out = interleave gaps texts ∧ List.Forall₂ KeepsSuffix tokens texts := by
  have hpasses : ∀ pass ∈ p.passes chained sources text state.functions,
      ∀ source ∈ pass.sources, source.OfDocument := by
    intro pass hmem source hsource
    exact hsources source (p.mem_of_mem_passes hmem source hsource)
  refine ⟨?_, ?_, ?_⟩
  · intro source hmem entry hentry part hpart
    exact (((hsources source hmem).forall_values entry hentry).of_contains hpart).kind_not_mem
  · obtain ⟨failed, hendings, hreported⟩ :=
      p.exists_endings_run chained sources text state.functions state.reported
    refine ⟨failed, hendings, hreported, ?_, hendings.forMapping hpasses⟩
    intro raw error hresult
    obtain ⟨front, last, hlast, hrun⟩ :=
      p.exists_passes_eq chained sources text state.functions state.reported
    have hmem : last ∈ p.passes chained sources text state.functions := by
      rw [hlast]
      exact List.mem_append_right _ List.mem_cons_self
    exact hendings.exists_of_unresolved hmem ((congrArg Prod.fst hrun).symm.trans hresult)
  · intro pass hmem
    constructor
    · intro token functions replacement functions' h
      exact keepsSuffix_of_replacement? (hpasses pass hmem) h
    · intro reported out state' h
      exact exists_keepsSuffix_of_pass (hpasses pass hmem) h

/-- A document with a table in an array, and with a date.  The one cannot be written and is
    left in place; the other is put in with the white space behind its name. -/
theorem run_with_documents_date :
    let source : Source :=
      { values := [("a", .mapping [("b", .sequence [.mapping []])]), ("c", .string "1979-05-27")] }
    let p : Processor Unit (List Diagnostic) := ⟨{}, ⟨fun _ _ state => (none, state)⟩, .memory⟩
    let text := ['$', 'c', ' ', '$', 'a', ';']
    let out := ['1', '9', '7', '9', '-', '0', '5', '-', '2', '7', ' ', '$', 'a', ';']
    let rule : Token := ⟨⟨["a"], [], some ';', false⟩, ⟨3, 3, 3⟩, ⟨6, 6, 6⟩, "$a;"⟩
    let error : ResolveError := .invalidSequenceElement .mapping
    Source.ofToml "a = {b = [{}]}\nc = 1979-05-27".toList = .ok source ∧
      p.run false [source] text ⟨(), []⟩ = (.ok out, ⟨(), [.ofToken "" rule error.message]⟩) ∧
      ∃ failed, [.ofToken "" rule error.message] = p.diagnosticsOf failed ∧
        (∀ failure ∈ failed, failure.2.ForMapping) ∧
        ∃ tokens gaps texts, scanAll '$' text = .ok tokens ∧ out = interleave gaps texts ∧
          List.Forall₂ KeepsSuffix tokens texts := by
  intro source p text out rule error
  have hsource : Source.ofToml "a = {b = [{}]}\nc = 1979-05-27".toList = .ok source := by
    decide +kernel
  have hsources : ∀ s ∈ [source], s.OfDocument := by
    intro s hmem
    rw [List.mem_singleton.1 hmem]
    exact .text hsource
  have hnormal : normalize text = text := by decide +kernel
  have hpass : p.pass [source] true text ⟨(), []⟩ =
      (.ok out, ⟨(), [.ofToken "" rule error.message]⟩) := by
    decide +kernel
  obtain ⟨-, ⟨failed, -, hreported, -, hmapping⟩, hpasses⟩ :=
    run_with_documents hsources p false text ⟨(), []⟩
  obtain ⟨-, hout⟩ := hpasses ⟨[source], true, text, ()⟩ List.mem_cons_self
  obtain ⟨tokens, gaps, texts, htokens, -, -, heq, hkeeps⟩ := hout _ _ _ hpass
  have hrun : p.run false [source] text ⟨(), []⟩ = p.pass [source] true text ⟨(), []⟩ := rfl
  rw [hrun, hpass, Sink.reportAll_memory, List.nil_append] at hreported
  rw [hnormal] at htokens
  exact ⟨hsource, hrun.trans hpass, failed, hreported, hmapping, tokens, gaps, texts, htokens,
    heq, hkeeps⟩

end StyleTemplate
