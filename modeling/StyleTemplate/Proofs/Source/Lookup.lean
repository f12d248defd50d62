/-
  **What a path leads to.**

  A path goes down a tree from its first segment, which has to be a key of the source:
  by keys through mappings, and by positions through sequences (`Source.Reaches`).  It
  ends at most at one value, and nothing lies below a null, a scalar or a function.  Of
  several sources the first in which the path can be walked decides
  (`lookup?_eq_some_iff`), so a source that has none of the paths of a text may as well
  not be there (`replaceAll_congr`).

  A segment says a position in decimal, whatever its length (`DenotesPosition`).  Numbers
  of 64 bits and more are no positions, so that none of them is ever cut down to one.
-/
import Mathlib.Data.List.Basic
import Mathlib.Data.Nat.Digits.Defs
import StyleTemplate.Proofs.Value.Renderable
import StyleTemplate.Substitution.Basic

namespace StyleTemplate

/-! ### Positions -/

/-- The number that decimal digits denote, the first digit being the greatest. -/
def decimalValue (digits : List Char) : Nat :=
  Nat.ofDigits 10 (digits.reverse.map fun d => d.toNat - '0'.toNat)

/-- Whether a segment is one or more ASCII digits of this value, behind at most one plus
    sign. -/
inductive DenotesPosition (segment : String) : Nat → Prop where
  | intro {sign digits : List Char} :
      segment.toList = sign ++ digits → sign = [] ∨ sign = ['+'] → digits ≠ [] →
      (∀ d ∈ digits, d.isDigit = true) → DenotesPosition segment (decimalValue digits)

theorem ofDigits_eq_decimalValue {digits : List Char} (h : ∀ d ∈ digits, d.isDigit = true) :
    ofDigits 10 digits = decimalValue digits := by
  have hvalue : ∀ d ∈ digits, digitValue d = d.toNat - '0'.toNat := by
    intro d hd
    rw [digitValue, if_pos (h d hd)]
  rw [decimalValue, Nat.ofDigits_eq_foldr, List.foldr_map, List.foldr_reverse, ofDigits]
  apply List.foldl_ext
  intro n d hd
  rw [hvalue d hd]
  simp [Nat.add_comm]

theorem decimalValue_zeros (zeros : Nat) (digits : List Char) :
    decimalValue (List.replicate zeros '0' ++ digits) = decimalValue digits := by
  simp [decimalValue, Nat.ofDigits_append]

theorem exists_sign (text : List Char) : ∃ sign digits, text = sign ++ digits ∧
    (sign = [] ∧ digits.head? ≠ some '+' ∨ sign = ['+']) := by
  by_cases hplus : text.head? = some '+'
  · obtain ⟨digits, rfl⟩ := List.head?_eq_some_iff.1 hplus
    exact ⟨['+'], digits, rfl, .inr rfl⟩
  · exact ⟨[], text, rfl, .inl ⟨rfl, hplus⟩⟩

theorem position?_eq_some_iff_of_sign {segment : String} {sign digits : List Char} {n : Nat}
    (heq : segment.toList = sign ++ digits)
    (hsign : sign = [] ∧ digits.head? ≠ some '+' ∨ sign = ['+']) :
    Value.position? segment = some n ↔
      digits ≠ [] ∧ (∀ d ∈ digits, d.isDigit = true) ∧ decimalValue digits = n ∧ n < 2 ^ 64 := by
  have hposition : Value.position? segment =
      if digits.isEmpty || !digits.all Char.isDigit || UInt64.size ≤ ofDigits 10 digits then none
      else some (ofDigits 10 digits) := by
    rw [Value.position?, heq]
    rcases hsign with ⟨rfl, hhead⟩ | rfl
    · -- no sign is taken off, as the first symbol is none
      split
      next behind hplus =>
        rw [List.nil_append] at hplus
        simp [hplus] at hhead
      next => rfl
    · rfl
  rw [hposition]
  by_cases hall : ∀ d ∈ digits, d.isDigit = true
  · have hsize : UInt64.size = 2 ^ 64 := rfl
    rw [ofDigits_eq_decimalValue hall, hsize, List.all_eq_true.2 hall]
    by_cases hbad : digits = [] ∨ 2 ^ 64 ≤ decimalValue digits
    · rw [if_pos (by simpa using hbad)]
      simp only [reduceCtorEq, false_iff]
      rintro ⟨hne, -, rfl, hfits⟩
      exact hbad.elim hne (Nat.not_le.2 hfits)
    · rw [if_neg (by simpa using hbad), Option.some_inj]
      obtain ⟨hne, hfits⟩ := not_or.1 hbad
      constructor
      · rintro rfl
        exact ⟨hne, hall, rfl, Nat.not_le.1 hfits⟩
      · rintro ⟨-, -, rfl, -⟩
        rfl
  · have hall' : digits.all Char.isDigit = false := by simpa using hall
    simp [hall', hall]

theorem position?_eq_some_iff {segment : String} {n : Nat} :
    Value.position? segment = some n ↔ DenotesPosition segment n ∧ n < 2 ^ 64 := by
  constructor
  · intro h
    obtain ⟨sign, digits, heq, hsign⟩ := exists_sign segment.toList
    obtain ⟨hne, hall, rfl, hfits⟩ := (position?_eq_some_iff_of_sign heq hsign).1 h
    exact ⟨.intro heq (hsign.imp_left And.left) hne hall, hfits⟩
  · rintro ⟨h, hfits⟩
    cases h with
    | @intro sign digits heq hsign hne hall =>
      refine (position?_eq_some_iff_of_sign heq ?_).2 ⟨hne, hall, rfl, hfits⟩
      refine hsign.imp_left fun hnil => ⟨hnil, fun hplus => ?_⟩
      have hdigit := hall '+' (List.mem_of_head? hplus)
      simp at hdigit

/-! ### Going down a tree -/

theorem Entries.mem_of_get? {α : Type} {key : String} {value : α} {entries : Entries α}
    (h : Entries.get? key entries = some value) : (key, value) ∈ entries := by
  induction entries with
  | nil => simp [Entries.get?] at h
  | cons entry entries ih =>
    obtain ⟨k, v⟩ := entry
    rw [Entries.get?] at h
    split at h
    next hkey =>
      obtain rfl : v = value := by simpa using h
      rw [hkey]
      exact List.mem_cons_self
    next => exact List.mem_cons_of_mem _ (ih h)

namespace Value

/-- `value.HasChild segment child`: the child lies under the segment. -/
inductive HasChild : Value → String → Value → Prop where
  | key {entries : Entries Value} {segment : String} {child : Value} :
      Entries.get? segment entries = some child → HasChild (.mapping entries) segment child
  | position {items : List Value} {segment : String} {n : Nat} {child : Value} :
      DenotesPosition segment n → n < 2 ^ 64 → items[n]? = some child →
      HasChild (.sequence items) segment child

/-- `value.Reaches path found`: down from the value, the path ends at `found`. -/
inductive Reaches : Value → List String → Value → Prop where
  | here {value : Value} : Reaches value [] value
  | child {value child found : Value} {segment : String} {path : List String} :
      value.HasChild segment child → Reaches child path found →
      Reaches value (segment :: path) found

theorem child?_eq_some_iff {value child : Value} {segment : String} :
    value.child? segment = some child ↔ value.HasChild segment child := by
  constructor
  · intro h
    cases value with
    | mapping entries => exact .key h
    | sequence items =>
      obtain ⟨n, hn, hitem⟩ := Option.bind_eq_some_iff.1 h
      obtain ⟨hdenotes, hfits⟩ := position?_eq_some_iff.1 hn
      exact .position hdenotes hfits hitem
    | _ => simp [child?] at h
  · intro h
    cases h with
    | key hget => exact hget
    | position hdenotes hfits hitem =>
      exact Option.bind_eq_some_iff.2 ⟨_, position?_eq_some_iff.2 ⟨hdenotes, hfits⟩, hitem⟩

theorem walk?_eq_some_iff {value found : Value} {path : List String} :
    value.walk? path = some found ↔ value.Reaches path found := by
  induction path generalizing value with
  | nil =>
    rw [walk?, Option.some_inj]
    constructor
    · rintro rfl
      exact .here
    · intro h
      cases h
      rfl
  | cons segment path ih =>
    constructor
    · intro h
      rw [walk?] at h
      split at h
      next child hchild => exact .child (child?_eq_some_iff.1 hchild) (ih.1 h)
      next => simp at h
    · intro h
      cases h with
      | child hchild hmore => rw [walk?, child?_eq_some_iff.2 hchild]; exact ih.2 hmore

/-- A path that can be walked does so over each of the values on its way. -/
theorem reaches_append_iff {value found : Value} {front behind : List String} :
    value.Reaches (front ++ behind) found ↔
      ∃ between, value.Reaches front between ∧ between.Reaches behind found := by
  constructor
  · intro h
    induction front generalizing value with
    | nil => exact ⟨value, .here, h⟩
    | cons segment front ih =>
      cases h with
      | child hchild hmore =>
        obtain ⟨between, hfront, hbehind⟩ := ih hmore
        exact ⟨between, .child hchild hfront, hbehind⟩
  · rintro ⟨between, hfront, hbehind⟩
    induction hfront with
    | here => exact hbehind
    | child hchild _ ih => exact .child hchild (ih hbehind)

theorem Reaches.unique {value found other : Value} {path : List String}
    (h : value.Reaches path found) (hother : value.Reaches path other) : found = other := by
  rw [← walk?_eq_some_iff] at h hother
  exact Option.some_inj.1 (h.symm.trans hother)

/-- Whether nothing can lie below a value. -/
def IsLeaf (value : Value) : Prop :=
  value = .null ∨ value.isScalar = true ∨ ∃ id, value = .function id

theorem IsLeaf.not_hasChild {value : Value} (h : value.IsLeaf) (segment : String)
    (child : Value) : ¬ value.HasChild segment child := by
  rintro (_ | _)
  · simp [IsLeaf, isScalar] at h
  · simp [IsLeaf, isScalar] at h

end Value

namespace Source

/-- `source.Reaches path found`: the path starts with a key of the source, and ends at
    `found`. -/
inductive Reaches (source : Source) : List String → Value → Prop where
  | intro {key : String} {top found : Value} {path : List String} :
      source.get? key = some top → top.Reaches path found → Reaches source (key :: path) found

theorem find?_eq_some_iff {source : Source} {path : List String} {found : Value} :
    source.find? path = some found ↔ source.Reaches path found := by
  constructor
  · intro h
    cases path with
    | nil => simp [find?] at h
    | cons key path =>
      obtain ⟨top, htop, hwalk⟩ := Option.bind_eq_some_iff.1 h
      exact .intro htop (Value.walk?_eq_some_iff.1 hwalk)
  · intro h
    cases h with
    | intro htop hmore =>
      exact Option.bind_eq_some_iff.2 ⟨_, htop, Value.walk?_eq_some_iff.2 hmore⟩

theorem find?_eq_none_iff {source : Source} {path : List String} :
    source.find? path = none ↔ ∀ found, ¬ source.Reaches path found := by
  rw [Option.eq_none_iff_forall_ne_some]
  exact forall_congr' fun found => not_congr find?_eq_some_iff

/-- No path of a source goes on behind a leaf. -/
theorem Reaches.not_below {source : Source} {front : List String} {leaf : Value}
    (h : source.Reaches front leaf) (hleaf : leaf.IsLeaf) (segment : String)
    (behind : List String) (found : Value) :
    ¬ source.Reaches (front ++ segment :: behind) found := by
  cases h with
  | intro htop hfront =>
    rintro (⟨htop', hmore⟩)
    obtain rfl := Option.some_inj.1 (htop.symm.trans htop')
    -- any longer walk comes over the value at the end of `front`, which is the leaf
    obtain ⟨between, hfront', hbelow⟩ := Value.reaches_append_iff.1 hmore
    obtain rfl := hfront.unique hfront'
    cases hbelow with
    | child hchild _ => exact hleaf.not_hasChild _ _ hchild

end Source

/-! ### Several sources -/

theorem lookup?_append (path : List String) (sources others : List Source) :
    lookup? path (sources ++ others) = (lookup? path sources).or (lookup? path others) := by
  induction sources with
  | nil => rfl
  | cons source sources ih =>
    rw [List.cons_append, lookup?, lookup?]
    cases source.find? path with
    | none => exact ih
    | some value => rfl

theorem lookup?_cons (path : List String) (source : Source) (more : List Source) :
    lookup? path (source :: more) = (lookup? path [source]).or (lookup? path more) :=
  lookup?_append path [source] more

theorem lookup?_singleton (path : List String) (source : Source) :
    lookup? path [source] = (source.find? path).map fun value => (source, value) := by
  cases hfind : source.find? path <;> simp [lookup?, hfind]

theorem lookup?_eq_none_iff {path : List String} {sources : List Source} :
    lookup? path sources = none ↔
      ∀ source ∈ sources, ∀ found, ¬ source.Reaches path found := by
  induction sources with
  | nil => simp [lookup?]
  | cons source sources ih =>
    rw [List.forall_mem_cons, ← ih, ← Source.find?_eq_none_iff, lookup?]
    cases source.find? path with
    | none => simp
    | some value => simp

/-- What a source has is found if no source in front of it has it. -/
theorem lookup?_of_reaches {path : List String} {before behind : List Source} {source : Source}
    {value : Value} (hbefore : ∀ other ∈ before, ∀ found, ¬ other.Reaches path found)
    (h : source.Reaches path value) :
    lookup? path (before ++ source :: behind) = some (source, value) := by
  rw [lookup?_append, lookup?_eq_none_iff.2 hbefore, Option.none_or, lookup?,
    Source.find?_eq_some_iff.2 h]

theorem lookup?_of_not_reaches {path : List String} {source : Source}
    (h : ∀ found, ¬ source.Reaches path found) (before behind : List Source) :
    lookup? path (before ++ source :: behind) = lookup? path (before ++ behind) := by
  rw [lookup?_append, lookup?_append, lookup?, Source.find?_eq_none_iff.2 h]

theorem lookup?_eq_some_iff {path : List String} {sources : List Source} {source : Source}
    {value : Value} :
    lookup? path sources = some (source, value) ↔
      ∃ before behind, sources = before ++ source :: behind ∧
        (∀ other ∈ before, ∀ found, ¬ other.Reaches path found) ∧ source.Reaches path value := by
  constructor
  · intro h
    induction sources with
    | nil => simp [lookup?] at h
    | cons first sources ih =>
      rw [lookup?] at h
      split at h
      next found hfind =>
        obtain ⟨rfl, rfl⟩ := Prod.mk.inj (Option.some_inj.1 h)
        exact ⟨[], sources, rfl, by simp, Source.find?_eq_some_iff.1 hfind⟩
      next hfind =>
        obtain ⟨before, behind, rfl, hbefore, hreaches⟩ := ih h
        exact ⟨first :: before, behind, rfl,
          List.forall_mem_cons.2 ⟨Source.find?_eq_none_iff.1 hfind, hbefore⟩, hreaches⟩
  · rintro ⟨before, behind, rfl, hbefore, hreaches⟩
    exact lookup?_of_reaches hbefore hreaches

theorem mem_of_lookup? {path : List String} {sources : List Source} {source : Source}
    {value : Value} (h : lookup? path sources = some (source, value)) :
    source ∈ sources ∧ source.find? path = some value := by
  obtain ⟨before, behind, rfl, -, hreaches⟩ := lookup?_eq_some_iff.1 h
  exact ⟨by simp, Source.find?_eq_some_iff.2 hreaches⟩

/-! ### Substituting from several sources -/

section Substitution

variable {σ τ : Type} {p : Processor σ τ} {sources others : List Source}

theorem replacement?_congr {token : Token}
    (h : token.escape = false → lookup? token.path sources = lookup? token.path others)
    (functions : σ) :
    p.replacement? sources token functions = p.replacement? others token functions := by
  cases hescape : token.escape with
  | true => simp [Processor.replacement?, hescape]
  | false => rw [Processor.replacement?, Processor.replacement?, h hescape]

/-- **Sources have their say through what is found in them for the tokens**, and in
    nothing else that replacing does. -/
theorem replaceAll_congr {tokens : List Token} {collapse : Bool}
    (h : ∀ token ∈ tokens, token.escape = false →
      lookup? token.path sources = lookup? token.path others)
    (text : List Char) (state : RunState σ τ) :
    p.replaceAll sources collapse tokens text state =
      p.replaceAll others collapse tokens text state := by
  induction tokens generalizing text state with
  | nil => rfl
  | cons token tokens ih =>
    obtain ⟨hfirst, hmore⟩ := List.forall_mem_cons.1 h
    rw [Processor.replaceAll, Processor.replaceAll, replacement?_congr hfirst]
    split
    next => exact ih hmore _ _
    next =>
      rcases p.replacement? others token state.functions with ⟨error | _ | replacement, functions⟩
      · cases p.options.onError with
        | report => exact ih hmore _ _
        | abort => rfl
      · exact ih hmore _ _
      · exact ih hmore _ _

theorem pass_congr {text : List Char} {collapse : Bool}
    (h : ∀ tokens, scanAll p.options.marker (normalize text) = .ok tokens →
      ∀ token ∈ tokens, token.escape = false →
        lookup? token.path sources = lookup? token.path others)
    (state : RunState σ τ) :
    p.pass sources collapse text state = p.pass others collapse text state := by
  rw [Processor.pass, Processor.pass]
  cases hscan : scanAll p.options.marker (normalize text) with
  | error error => rfl
  | ok tokens =>
    apply replaceAll_congr
    intro token hmem
    exact h tokens hscan token (List.mem_reverse.1 hmem)

end Substitution

/-- **A path leads to what the first source has that it can be walked in.**  Where a source
    has a null, a scalar or a function with more of the path to go, the next one has its
    turn; a null at the end is what the path leads to.  Positions are decimal numbers below
    2^64.  So two lists of sources are searched one after the other, and a source without
    any of the paths of a text can be put anywhere: not the result, and nothing that a
    substitution does on the way to it, is another. -/
theorem lookup?_first_reached {σ τ : Type} (p : Processor σ τ) (path : List String)
    (sources others : List Source) :
    (∀ source value, lookup? path sources = some (source, value) ↔
      ∃ before behind, sources = before ++ source :: behind ∧
        (∀ other ∈ before, ∀ found, ¬ other.Reaches path found) ∧ source.Reaches path value) ∧
    (lookup? path sources = none ↔
      ∀ source ∈ sources, ∀ found, ¬ source.Reaches path found) ∧
    (∀ (source : Source) front leaf segment behind, source.Reaches front leaf → leaf.IsLeaf →
      lookup? (front ++ segment :: behind) (source :: others) =
        lookup? (front ++ segment :: behind) others) ∧
    (∀ source : Source, source.Reaches path .null →
      lookup? path (source :: others) = some (source, .null)) ∧
    (∀ segment n, Value.position? segment = some n ↔ DenotesPosition segment n ∧ n < 2 ^ 64) ∧
    (∀ zeros digits,
      decimalValue (List.replicate zeros '0' ++ digits) = decimalValue digits) ∧
    lookup? path (sources ++ others) = (lookup? path sources).or (lookup? path others) ∧
    ∀ (added : Source) text (state : RunState σ τ),
      (∀ tokens, scanAll p.options.marker (normalize text) = .ok tokens →
        ∀ token ∈ tokens, token.escape = false → ∀ found, ¬ added.Reaches token.path found) →
      p.substitute (sources ++ added :: others) text state =
        p.substitute (sources ++ others) text state := by
  refine ⟨?_, lookup?_eq_none_iff, ?_, ?_, ?_, decimalValue_zeros,
    lookup?_append path sources others, ?_⟩
  · intro source value
    exact lookup?_eq_some_iff
  · intro source front leaf segment behind hfront hleaf
    exact lookup?_of_not_reaches (hfront.not_below hleaf segment behind) [] others
  · intro source hnull
    have hfirst : ∀ other ∈ ([] : List Source), ∀ found, ¬ other.Reaches path found := by simp
    exact lookup?_of_reaches hfirst hnull
  · intro segment n
    exact position?_eq_some_iff
  · intro added text state hadded
    apply pass_congr
    intro tokens hscan token hmem hname
    exact lookup?_of_not_reaches (hadded tokens hscan token hmem hname) sources others

/-- A null in the first source hides nothing of the second one's sequence, whose second
    place is also said by "+01"; a source with the null alone makes no difference. -/
theorem lookup?_first_reached_null :
    let hollow : Source := { values := [("theme", .null)] }
    let fonts : Value := .mapping [("fonts", .sequence [.string "Arial", .string "Georgia"])]
    let full : Source := { values := [("theme", fonts)] }
    let p : Processor Unit (List Diagnostic) := ⟨{}, ⟨fun _ _ state => (none, state)⟩, .memory⟩
    lookup? ["theme", "fonts", "+01"] [hollow, full] = some (full, .string "Georgia") ∧
      lookup? ["theme"] [hollow, full] = some (hollow, .null) ∧
      p.substitute [full, hollow] "a $theme.fonts.01;".toList ⟨(), []⟩ =
        p.substitute [full] "a $theme.fonts.01;".toList ⟨(), []⟩ := by
  intro hollow fonts full p
  have hnull : hollow.Reaches ["theme"] .null := .intro rfl .here
  have hleaf : Value.null.IsLeaf := .inl rfl
  obtain ⟨-, -, hbelow, -⟩ := lookup?_first_reached p ["theme", "fonts", "+01"] [] [full]
  obtain ⟨hfound, -⟩ := lookup?_first_reached p ["theme", "fonts", "+01"] [full] []
  obtain ⟨-, -, -, hhit, -⟩ := lookup?_first_reached p ["theme"] [] [full]
  obtain ⟨-, -, -, -, -, -, -, hadded⟩ := lookup?_first_reached p [] [full] []
  have hone : DenotesPosition "+01" 1 :=
    @DenotesPosition.intro "+01" ['+'] ['0', '1'] rfl (.inr rfl) (by simp) (by simp)
  have hreaches : full.Reaches ["theme", "fonts", "+01"] (.string "Georgia") :=
    .intro rfl (.child (.key rfl) (.child (.position hone (by decide) rfl) .here))
  refine ⟨?_, hhit hollow hnull, hadded hollow _ _ ?_⟩
  · have hskip := hbelow hollow ["theme"] .null "fonts" ["+01"] hnull hleaf
    exact hskip.trans ((hfound full (.string "Georgia")).2 ⟨[], [], rfl, by simp, hreaches⟩)
  · intro tokens hscan token hmem _ found
    have hnormal : normalize "a $theme.fonts.01;".toList = "a $theme.fonts.01;".toList := by
      decide +kernel
    have hpath : ∀ token ∈ tokens, token.path = ["theme"] ++ "fonts" :: ["01"] := by
      have htokens : (scanAll '$' "a $theme.fonts.01;".toList).map (·.map (·.path)) =
          .ok [["theme", "fonts", "01"]] := by decide +kernel
      rw [← hnormal, hscan] at htokens
      obtain ⟨token, rfl, htoken⟩ := List.map_eq_singleton_iff.1 (Except.ok.inj htokens)
      simpa using htoken
    rw [hpath token hmem]
    exact hnull.not_below hleaf _ _ _

end StyleTemplate
