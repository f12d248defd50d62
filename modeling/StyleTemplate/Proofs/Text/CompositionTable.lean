/-
  **Taking apart undoes putting together.**

  What a symbol is taken apart into cannot be taken apart again
  (`decomposeSymbol_of_mem`), and a composite is taken apart into what its first part
  is taken apart into, with its second part behind that
  (`decomposeSymbol_of_composite?`).  For the Hangul syllables this is arithmetic.  For
  the tables it rests on the order of their words: no number is the composite of two
  words, and a first part that is a composite itself has its own word before
  (`InOrder`).  That is checked on the words as they are written, with sets of numbers
  as the bits of one number.
-/
import Mathlib.Data.List.Induction
import Mathlib.Data.String.Basic
import StyleTemplate.Proofs.Text.Normalization

namespace StyleTemplate

/-! ### Sets of numbers as bits -/

/-- The number whose bits are set at the given numbers. -/
def bitsOf (numbers : List Nat) : Nat :=
  numbers.foldl (fun bits n => bits ||| 1 <<< n) 0

theorem bitsOf_concat (numbers : List Nat) (n : Nat) :
    bitsOf (numbers ++ [n]) = bitsOf numbers ||| 1 <<< n :=
  List.foldl_concat _ _ _ _

theorem testBit_bitsOf (numbers : List Nat) (n : Nat) :
    (bitsOf numbers).testBit n = decide (n ∈ numbers) := by
  induction numbers using List.reverseRecOn with
  | nil => simp [bitsOf]
  | append_singleton numbers last ih =>
    rw [bitsOf_concat, Nat.testBit_or, ih, Nat.one_shiftLeft, Nat.testBit_two_pow]
    simp [eq_comm]

/-! ### Words in order -/

/-- A word of a table: a number, and the numbers of its parts. -/
abbrev Mapping := Nat × List Nat

/-- Whether a number is neither among `keys` nor a Hangul syllable. -/
def Atomic (keys : List Nat) (n : Nat) : Prop :=
  n ∉ keys ∧ decomposeHangul? n = none

/-- The same, with the keys as bits. -/
def isAtomic (keys : Nat) (n : Nat) : Bool :=
  !keys.testBit n && (decomposeHangul? n).isNone

theorem isAtomic_bitsOf {keys : List Nat} {n : Nat} :
    isAtomic (bitsOf keys) n = true ↔ Atomic keys n := by
  simp [isAtomic, Atomic, testBit_bitsOf]

/-- `InOrder keys earlier words`: behind words with the keys `earlier`, each of some
    words has a new key and two parts.  The second cannot be taken apart, and neither
    can the first, unless there is a word for it before. -/
inductive InOrder (keys : List Nat) : List Nat → List Mapping → Prop where
  | nil {earlier : List Nat} : InOrder keys earlier []
  | cons {earlier : List Nat} {key first second : Nat} {words : List Mapping} :
      key ∉ earlier → first ∈ earlier ∨ Atomic keys first → Atomic keys second →
      InOrder keys (earlier ++ [key]) words →
      InOrder keys earlier ((key, [first, second]) :: words)

def inOrder (keys : Nat) : Nat → List Mapping → Bool
  | _, [] => true
  | earlier, (key, [first, second]) :: words =>
    !earlier.testBit key && (earlier.testBit first || isAtomic keys first) &&
      isAtomic keys second && inOrder keys (earlier ||| 1 <<< key) words
  | _, _ :: _ => false

theorem inOrder_sound {keys earlier : List Nat} {words : List Mapping}
    (h : inOrder (bitsOf keys) (bitsOf earlier) words = true) : InOrder keys earlier words := by
  induction words generalizing earlier with
  | nil => exact .nil
  | cons word words ih =>
    obtain ⟨key, parts⟩ := word
    match parts with
    | [first, second] =>
      rw [inOrder, ← bitsOf_concat] at h
      simp only [testBit_bitsOf, isAtomic_bitsOf, Bool.and_eq_true, Bool.or_eq_true,
        Bool.not_eq_true', decide_eq_false_iff_not, decide_eq_true_eq] at h
      obtain ⟨⟨⟨hkey, hfirst⟩, hsecond⟩, hmore⟩ := h
      exact .cons hkey hfirst hsecond (ih hmore)
    | [] | [_] | _ :: _ :: _ :: _ => simp [inOrder] at h

/-- Whether a number is a symbol that can be the key of a word: no basic symbol, no
    Hangul syllable, and no letter that Hangul syllables are made of. -/
def isKey (n : Nat) : Bool :=
  0xC0 ≤ n && !(0x1100 ≤ n && n < 0x1200) && decide n.isValidChar && (decomposeHangul? n).isNone

def keysOf (oneWay composites : List Mapping) : List Nat :=
  oneWay.map Prod.fst ++ composites.map Prod.fst

def tablesInOrder (oneWay composites : List Mapping) : Bool :=
  let keys := bitsOf (keysOf oneWay composites)
  (keysOf oneWay composites).all isKey && oneWay.all (fun word => word.2.all (isAtomic keys)) &&
    inOrder keys (bitsOf (oneWay.map Prod.fst)) composites

/-! ### The words of the tables -/

/-- What the words of some lines say, which are given symbol by symbol. -/
def mappingsOf (lines : List (List Char)) : List Mapping :=
  (lines.flatMap (splitOnSymbol ' ')).map mappingOfWord

theorem mappingsOf_eq {lines : List String} {symbols : List (List Char)}
    (h : lines = symbols.map String.ofList) :
    (wordsOf lines).map mappingOfWord = mappingsOf symbols := by
  rw [h, wordsOf, List.flatMap_map]
  simp only [String.toList_ofList]
  rfl

theorem ofList_cons_eq_map {symbols : List Char} {lines : List String}
    {more : List (List Char)} (h : lines = more.map String.ofList) :
    String.ofList symbols :: lines = (symbols :: more).map String.ofList := by
  rw [h, List.map_cons]

def oneWayMappings : List Mapping :=
  (wordsOf oneWayWords).map mappingOfWord

def compositeMappings : List Mapping :=
  (wordsOf compositeWords).map mappingOfWord

set_option maxRecDepth 10000 in
/-- The lines are checked symbol by symbol, which evaluates much faster than taking the
    symbols out of the lines does. -/
theorem tablesInOrder_mappings : tablesInOrder oneWayMappings compositeMappings = true := by
  have hchecked : ∃ oneWay composites, oneWayWords = oneWay.map String.ofList ∧
      compositeWords = composites.map String.ofList ∧
      tablesInOrder (mappingsOf oneWay) (mappingsOf composites) = true := by
    constructor
    constructor
    refine ⟨?oneWay, ?composites, ?check⟩
    case oneWay =>
      dsimp only [oneWayWords]
      repeat' (first | exact List.map_nil.symm | apply ofList_cons_eq_map)
    case composites =>
      dsimp only [compositeWords]
      repeat' (first | exact List.map_nil.symm | apply ofList_cons_eq_map)
    case check => decide +kernel
  obtain ⟨oneWay, composites, honeWay, hcomposites, hcheck⟩ := hchecked
  rwa [oneWayMappings, compositeMappings, mappingsOf_eq honeWay, mappingsOf_eq hcomposites]

/-! ### The table of decompositions -/

/-- All numbers that the tables take apart. -/
def takenApart : List Nat :=
  keysOf oneWayMappings compositeMappings

abbrev DecompositionTable := Std.HashMap Nat (List Nat)

/-- The table with a word of the composites added. -/
def DecompositionTable.addComposite (table : DecompositionTable) : Mapping → DecompositionTable
  | (key, [first, second]) => table.insert key (table.getD first [first] ++ [second])
  | _ => table

def oneWayTable : DecompositionTable :=
  oneWayMappings.foldl (fun table word => table.insert word.1 word.2) ∅

theorem decompositionTable_eq :
    decompositionTable = compositeMappings.foldl DecompositionTable.addComposite oneWayTable := by
  rw [compositeMappings, List.foldl_map, oneWayTable, oneWayMappings, List.foldl_map]
  rfl

/-- Whether a table takes apart the numbers `taken`, into parts that cannot be taken
    apart. -/
structure TakesApart (keys taken : List Nat) (table : DecompositionTable) : Prop where
  mem_iff : ∀ n, n ∈ table ↔ n ∈ taken
  parts : EveryValue (fun parts => ∀ part ∈ parts, Atomic keys part) table

namespace TakesApart

variable {keys taken : List Nat} {table : DecompositionTable}

theorem insert (h : TakesApart keys taken table) {parts : List Nat}
    (hparts : ∀ part ∈ parts, Atomic keys part) (key : Nat) :
    TakesApart keys (taken ++ [key]) (table.insert key parts) := by
  constructor
  · intro n
    rw [Std.HashMap.mem_insert, List.mem_append, h.mem_iff, List.mem_singleton, beq_iff_eq,
      or_comm, eq_comm]
  · exact h.parts.insert hparts key

theorem getElem?_of_not_mem (h : TakesApart keys taken table) {n : Nat} (hn : n ∉ taken) :
    table[n]? = none :=
  Std.HashMap.getElem?_eq_none (fun hmem => hn ((h.mem_iff n).1 hmem))

/-- What is left of a number that the table takes apart, or that cannot be. -/
theorem atomic_of_mem_getD (h : TakesApart keys taken table) {n : Nat}
    (hn : n ∈ taken ∨ Atomic keys n) : ∀ part ∈ table.getD n [n], Atomic keys part := by
  rw [Std.HashMap.getD_eq_getD_getElem?]
  cases hfound : table[n]? with
  | some parts => exact h.parts n parts hfound
  | none =>
    have hnot : n ∉ taken := by
      rw [← h.mem_iff, Std.HashMap.mem_iff_isSome_getElem?, hfound]
      simp
    intro part hpart
    obtain rfl : part = n := by simpa using hpart
    exact hn.resolve_left hnot

theorem foldl_insert (h : TakesApart keys taken table) {words : List Mapping}
    (hwords : ∀ word ∈ words, ∀ part ∈ word.2, Atomic keys part) :
    TakesApart keys (taken ++ words.map Prod.fst)
      (words.foldl (fun table word => table.insert word.1 word.2) table) := by
  induction words generalizing taken table with
  | nil => simpa using h
  | cons word words ih =>
    obtain ⟨hword, hmore⟩ := List.forall_mem_cons.1 hwords
    have hadded := ih (h.insert hword word.1) hmore
    rwa [List.append_assoc] at hadded

theorem addComposite (h : TakesApart keys taken table) {key first second : Nat}
    (hfirst : first ∈ taken ∨ Atomic keys first) (hsecond : Atomic keys second) :
    TakesApart keys (taken ++ [key]) (table.addComposite (key, [first, second])) := by
  apply h.insert
  intro part hpart
  rcases List.mem_append.1 hpart with hpart | hpart
  · exact h.atomic_of_mem_getD hfirst part hpart
  · rwa [List.mem_singleton.1 hpart]

theorem foldl_addComposite (h : TakesApart keys taken table) {words : List Mapping}
    (hwords : InOrder keys taken words) :
    TakesApart keys (taken ++ words.map Prod.fst)
      (words.foldl DecompositionTable.addComposite table) := by
  induction hwords generalizing table with
  | nil => simpa using h
  | cons hkey hfirst hsecond _ ih =>
    have hadded := ih (h.addComposite hfirst hsecond)
    rwa [List.append_assoc] at hadded

end TakesApart

/-- Later words are not about what is taken apart by then. -/
theorem InOrder.getElem?_foldl {keys taken : List Nat} {words : List Mapping}
    (h : InOrder keys taken words) {n : Nat} (hn : n ∈ taken) (table : DecompositionTable) :
    (words.foldl DecompositionTable.addComposite table)[n]? = table[n]? := by
  induction h generalizing table with
  | nil => rfl
  | @cons taken key first second words hkey _ _ _ ih =>
    have hne : (key == n) = false := by
      rw [beq_eq_false_iff_ne]
      rintro rfl
      exact hkey hn
    rw [List.foldl_cons, ih (List.mem_append_left _ hn), DecompositionTable.addComposite,
      Std.HashMap.getElem?_insert, hne]
    rfl

/-- The first part of a composite has a word of its own, or cannot be taken apart. -/
theorem InOrder.mem_or_atomic {keys taken : List Nat} {words : List Mapping}
    (h : InOrder keys taken words) (hkeys : ∀ n ∈ taken ++ words.map Prod.fst, n ∈ keys)
    {key first second : Nat} (hmem : (key, [first, second]) ∈ words) :
    first ∈ keys ∨ Atomic keys first := by
  induction h with
  | nil => simp at hmem
  | @cons taken key' first' second' words _ hfirst _ _ ih =>
    rcases List.mem_cons.1 hmem with heq | hmem
    · obtain ⟨-, rfl, -⟩ : key = key' ∧ first = first' ∧ second = second' := by simpa using heq
      exact hfirst.imp_left (fun htaken => hkeys first (List.mem_append_left _ htaken))
    · exact ih (by simpa [or_assoc] using hkeys) hmem

/-- In the end a composite is taken apart as its first part is then. -/
theorem TakesApart.getElem?_foldl {keys taken : List Nat} {words : List Mapping}
    {table : DecompositionTable} (h : TakesApart keys taken table)
    (hwords : InOrder keys taken words) (hkeys : ∀ n ∈ taken ++ words.map Prod.fst, n ∈ keys)
    {key first second : Nat} (hmem : (key, [first, second]) ∈ words) :
    let final := words.foldl DecompositionTable.addComposite table
    final[key]? = some (final.getD first [first] ++ [second]) := by
  induction hwords generalizing table with
  | nil => simp at hmem
  | @cons taken key' first' second' words hkey hfirst hsecond hmore ih =>
    have hadded : TakesApart keys (taken ++ [key']) _ := h.addComposite hfirst hsecond
    have hkeys' : ∀ n ∈ taken ++ [key'] ++ words.map Prod.fst, n ∈ keys := by
      simpa [or_assoc] using hkeys
    rcases List.mem_cons.1 hmem with heq | hmem
    · obtain ⟨rfl, rfl, rfl⟩ : key = key' ∧ first = first' ∧ second = second' := by
        simpa using heq
      have hfinal := hadded.foldl_addComposite hmore
      have hsame : (words.foldl DecompositionTable.addComposite
          (table.addComposite (key, [first, second])))[first]? = table[first]? := by
        rcases hfirst with htaken | hatomic
        · have hne : key ≠ first := by
            rintro rfl
            exact hkey htaken
          rw [hmore.getElem?_foldl (List.mem_append_left _ htaken), DecompositionTable.addComposite,
            Std.HashMap.getElem?_insert, if_neg (by simpa using hne)]
        · have hnot : first ∉ taken := fun hmem => hatomic.1 (hkeys first (by simp [hmem]))
          rw [hfinal.getElem?_of_not_mem (fun hmem => hatomic.1 (hkeys' first hmem)),
            h.getElem?_of_not_mem hnot]
      simp only [List.foldl_cons, Std.HashMap.getD_eq_getD_getElem?, hsame]
      rw [hmore.getElem?_foldl (List.mem_append_right _ (List.mem_singleton_self key)),
        DecompositionTable.addComposite, Std.HashMap.getElem?_insert, if_pos (by simp),
        Std.HashMap.getD_eq_getD_getElem?]
    · exact ih hadded hkeys' hmem

/-! ### What the tables say -/

theorem inOrder_compositeMappings :
    InOrder takenApart (oneWayMappings.map Prod.fst) compositeMappings := by
  have hchecked := tablesInOrder_mappings
  simp only [tablesInOrder, Bool.and_eq_true] at hchecked
  exact inOrder_sound hchecked.2

theorem takesApart_oneWayTable :
    TakesApart takenApart (oneWayMappings.map Prod.fst) oneWayTable := by
  have hchecked := tablesInOrder_mappings
  simp only [tablesInOrder, Bool.and_eq_true, List.all_eq_true, isAtomic_bitsOf] at hchecked
  have hempty : TakesApart takenApart [] (∅ : DecompositionTable) :=
    ⟨by simp, fun n parts h => by simp at h⟩
  exact hempty.foldl_insert hchecked.1.2

theorem takesApart_decompositionTable :
    TakesApart takenApart takenApart decompositionTable := by
  rw [decompositionTable_eq]
  exact takesApart_oneWayTable.foldl_addComposite inOrder_compositeMappings

theorem mem_takenApart {n : Nat} :
    n ∈ takenApart ↔ n ∈ oneWayMappings.map Prod.fst ++ compositeMappings.map Prod.fst := by
  rw [takenApart, keysOf]

theorem range_of_mem_takenApart {n : Nat} (h : n ∈ takenApart) :
    0xC0 ≤ n ∧ (n < 0x1100 ∨ 0x1200 ≤ n) ∧ n.isValidChar ∧ decomposeHangul? n = none := by
  have hchecked := tablesInOrder_mappings
  simp only [tablesInOrder, Bool.and_eq_true, List.all_eq_true] at hchecked
  have hkey := hchecked.1.1 n h
  simp only [isKey, Bool.and_eq_true, decide_eq_true_eq, Option.isNone_iff_eq_none,
    Bool.not_eq_true', Bool.and_eq_false_iff, decide_eq_false_iff_not] at hkey
  obtain ⟨⟨⟨hbasic, hletter⟩, hvalid⟩, hsyllable⟩ := hkey
  exact ⟨hbasic, by omega, hvalid, hsyllable⟩

theorem getD_decompositionTable_of_not_mem {n : Nat} (h : n ∉ takenApart) :
    decompositionTable.getD n [n] = [n] := by
  rw [Std.HashMap.getD_eq_getD_getElem?, takesApart_decompositionTable.getElem?_of_not_mem h]
  rfl

/-- Everything but the Hangul syllables is taken apart by the table. -/
theorem decomposeSymbol_eq_getD {c : Char} (h : decomposeHangul? c.toNat = none) :
    decomposeSymbol c = (decompositionTable.getD c.toNat [c.toNat]).map Char.ofNat := by
  rw [decomposeSymbol, h]
  split
  next hbasic =>
    have hnot : c.toNat ∉ takenApart := by
      intro hmem
      have hrange := range_of_mem_takenApart hmem
      omega
    rw [getD_decompositionTable_of_not_mem hnot]
    simp
  next =>
    rw [Std.HashMap.getD_eq_getD_getElem?]
    cases decompositionTable[c.toNat]? with
    | some parts => rfl
    | none => simp

theorem decomposeSymbol_of_atomic {c : Char} (h : Atomic takenApart c.toNat) :
    decomposeSymbol c = [c] := by
  rw [decomposeSymbol_eq_getD h.2, getD_decompositionTable_of_not_mem h.1]
  simp

theorem atomic_of_letter {n : Nat} (h : 0x1100 ≤ n) (h' : n < 0x1200) : Atomic takenApart n := by
  constructor
  · intro hmem
    have hrange := range_of_mem_takenApart hmem
    omega
  · rw [decomposeHangul?, if_neg (by omega)]

theorem atomic_of_basic {n : Nat} (h : n < 0xC0) : Atomic takenApart n := by
  constructor
  · intro hmem
    have hrange := range_of_mem_takenApart hmem
    omega
  · rw [decomposeHangul?, if_neg (by omega)]

theorem atomic_toNat_ofNat {n : Nat} (h : Atomic takenApart n) :
    Atomic takenApart (Char.ofNat n).toNat := by
  by_cases hvalid : n.isValidChar
  · rwa [toNat_ofNat_of_isValidChar hvalid]
  · rw [Char.ofNat, dif_neg hvalid]
    exact atomic_of_basic (by decide)

theorem decomposeHangul?_add {index : Nat} (h : index < 11172) :
    decomposeHangul? (0xAC00 + index) =
      some ([0x1100 + index / 588, 0x1161 + index % 588 / 28] ++
        if index % 28 = 0 then [] else [0x11A7 + index % 28]) := by
  have hrange : 0xAC00 ≤ 0xAC00 + index ∧ 0xAC00 + index < 0xAC00 + 11172 := by omega
  rw [decomposeHangul?, if_pos hrange, Nat.add_sub_cancel_left]

theorem exists_index_of_decomposeHangul? {n : Nat} {parts : List Nat}
    (h : decomposeHangul? n = some parts) : ∃ index, index < 11172 ∧ n = 0xAC00 + index := by
  simp only [decomposeHangul?, Option.ite_none_right_eq_some] at h
  exact ⟨n - 0xAC00, by omega, by omega⟩

theorem letter_of_mem_decomposeHangul? {n part : Nat} {parts : List Nat}
    (h : decomposeHangul? n = some parts) (hpart : part ∈ parts) :
    0x1100 ≤ part ∧ part < 0x1200 := by
  obtain ⟨index, hindex, rfl⟩ := exists_index_of_decomposeHangul? h
  rw [decomposeHangul?_add hindex] at h
  obtain rfl := Option.some.inj h
  simp only [List.mem_append, List.mem_cons, List.not_mem_nil, or_false] at hpart
  rcases hpart with (hpart | hpart) | hpart
  · omega
  · omega
  · split at hpart
    · simp at hpart
    · have htrailing := List.mem_singleton.1 hpart
      omega

/-- **What a symbol is taken apart into cannot be taken apart again.** -/
theorem decomposeSymbol_of_mem {c d : Char} (h : d ∈ decomposeSymbol c) :
    decomposeSymbol d = [d] := by
  apply decomposeSymbol_of_atomic
  cases hhangul : decomposeHangul? c.toNat with
  | some parts =>
    rw [decomposeSymbol, hhangul] at h
    split at h
    next hbasic =>
      rw [List.mem_singleton.1 h]
      exact atomic_of_basic hbasic
    next =>
      obtain ⟨part, hpart, rfl⟩ := List.mem_map.1 h
      obtain ⟨hlow, hhigh⟩ := letter_of_mem_decomposeHangul? hhangul hpart
      exact atomic_toNat_ofNat (atomic_of_letter hlow hhigh)
  | none =>
    rw [decomposeSymbol_eq_getD hhangul] at h
    obtain ⟨part, hpart, rfl⟩ := List.mem_map.1 h
    apply atomic_toNat_ofNat
    apply takesApart_decompositionTable.atomic_of_mem_getD _ part hpart
    by_cases hmem : c.toNat ∈ takenApart
    · exact .inl hmem
    · exact .inr ⟨hmem, hhangul⟩

/-! ### Composites -/

/-- Whether every composite of a table is one of the words. -/
def FromWords (table : Std.HashMap (Nat × Nat) Nat) : Prop :=
  ∀ (pair : Nat × Nat) (key : Nat), table[pair]? = some key →
    (key, [pair.1, pair.2]) ∈ compositeMappings

theorem fromWords_compositionTable : FromWords compositionTable := by
  unfold compositionTable
  refine List.foldlRecOn _ _ ?_ ?_
  · intro pair key h
    simp at h
  · intro table htable word hword
    split
    next composite first second heq =>
      intro pair key hfound
      rw [Std.HashMap.getElem?_insert] at hfound
      split at hfound
      next hpair =>
        obtain rfl : (first, second) = pair := by simpa using hpair
        obtain rfl : composite = key := by simpa using hfound
        exact heq ▸ List.mem_map_of_mem hword
      next => exact htable pair key hfound
    next => exact htable

theorem decomposeHangul?_of_composeHangul? {first second key : Nat}
    (h : composeHangul? first second = some key) :
    ∃ parts, decomposeHangul? key = some (parts ++ [second]) ∧
      (decomposeHangul? first = some parts ∨
        parts = [first] ∧ 0x1100 ≤ first ∧ first < 0x1200) := by
  unfold composeHangul? at h
  split at h
  next hletters =>
    obtain rfl := Option.some.inj h
    refine ⟨[first], ?_, .inr ⟨rfl, by omega, by omega⟩⟩
    generalize hindex : ((first - 0x1100) * 21 + (second - 0x1161)) * 28 = index
    have hfirst : 0x1100 + index / 588 = first := by omega
    have hsecond : 0x1161 + index % 588 / 28 = second := by omega
    rw [decomposeHangul?_add (by omega), if_pos (by omega), hfirst, hsecond]
    rfl
  next =>
    split at h
    next hsyllable =>
      obtain rfl := Option.some.inj h
      obtain ⟨index, rfl⟩ := Nat.exists_eq_add_of_le hsyllable.1
      refine ⟨_, ?_, .inl (decomposeHangul?_add (by omega))⟩
      generalize htrailing : second - 0x11A7 = trailing
      have hleading : (index + trailing) / 588 = index / 588 := by omega
      have hvowel : (index + trailing) % 588 / 28 = index % 588 / 28 := by omega
      have hsecond : 0x11A7 + (index + trailing) % 28 = second := by omega
      rw [Nat.add_assoc, decomposeHangul?_add (by omega), hleading, hvowel, if_neg (by omega),
        if_pos (by omega), hsecond, List.append_nil]
    next => simp at h

theorem decomposeSymbol_of_decomposeHangul? {c : Char} {parts : List Nat}
    (h : decomposeHangul? c.toNat = some parts) : decomposeSymbol c = parts.map Char.ofNat := by
  have hrange : ¬ c.toNat < 0xC0 := by
    intro hbasic
    rw [(atomic_of_basic hbasic).2] at h
    simp at h
  rw [decomposeSymbol, if_neg hrange, h]

theorem decomposeSymbol_of_composeHangul? {a b : Char} {key : Nat}
    (h : composeHangul? a.toNat b.toNat = some key) :
    decomposeSymbol (Char.ofNat key) = decomposeSymbol a ++ [b] := by
  obtain ⟨parts, hkey, hfirst⟩ := decomposeHangul?_of_composeHangul? h
  have hvalid : key.isValidChar := by
    simp only [decomposeHangul?, Option.ite_none_right_eq_some] at hkey
    exact .inl (by omega)
  rw [← toNat_ofNat_of_isValidChar hvalid] at hkey
  rw [decomposeSymbol_of_decomposeHangul? hkey, List.map_append]
  rcases hfirst with hfirst | ⟨rfl, hlow, hhigh⟩
  · rw [decomposeSymbol_of_decomposeHangul? hfirst]
    simp
  · rw [decomposeSymbol_of_atomic (atomic_of_letter hlow hhigh)]
    simp

theorem decomposeSymbol_of_mem_compositeMappings {a b : Char} {key : Nat}
    (h : (key, [a.toNat, b.toNat]) ∈ compositeMappings) :
    decomposeSymbol (Char.ofNat key) = decomposeSymbol a ++ [b] := by
  have hkey : key ∈ takenApart :=
    mem_takenApart.2 (List.mem_append_right _ (List.mem_map_of_mem h))
  obtain ⟨-, -, hvalid, hsyllable⟩ := range_of_mem_takenApart hkey
  have hwhole := toNat_ofNat_of_isValidChar hvalid
  have hfirst : decomposeHangul? a.toNat = none := by
    rcases inOrder_compositeMappings.mem_or_atomic (fun _ => mem_takenApart.2) h with hmem | hatomic
    · exact (range_of_mem_takenApart hmem).2.2.2
    · exact hatomic.2
  have htable := takesApart_oneWayTable.getElem?_foldl inOrder_compositeMappings
    (fun _ => mem_takenApart.2) h
  rw [← decompositionTable_eq] at htable
  rw [decomposeSymbol_eq_getD (by rw [hwhole, hsyllable]), decomposeSymbol_eq_getD hfirst, hwhole,
    Std.HashMap.getD_eq_getD_getElem?, htable, Option.getD_some, List.map_append, List.map_singleton,
    Char.ofNat_toNat]

/-- **A composite is taken apart into its first part, taken apart, and its second.** -/
theorem decomposeSymbol_of_composite? {a b whole : Char} (h : composite? a b = some whole) :
    decomposeSymbol whole = decomposeSymbol a ++ [b] := by
  unfold composite? at h
  split at h
  next => simp at h
  next =>
    split at h
    next key hhangul =>
      obtain rfl := Option.some.inj h
      exact decomposeSymbol_of_composeHangul? hhangul
    next =>
      obtain ⟨key, htable, rfl⟩ := Option.map_eq_some_iff.1 h
      exact decomposeSymbol_of_mem_compositeMappings (fromWords_compositionTable _ _ htable)

end StyleTemplate
