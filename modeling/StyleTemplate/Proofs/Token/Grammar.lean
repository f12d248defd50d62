/-
  **The grammar of placeholders, apart from the reader.**

  The reader of phrases (`Phrase.read`) goes through a text and decides as it
  goes.  Here the same language is written down as a grammar: what is written,
  what it says, and what may not follow, since the longest match is taken.

  What follows a phrase enters the grammar only through conditions of the form
  "no symbol of this class comes next".  So a phrase stays one when the text
  behind it is cut off (`PhraseForm.of_prefix`), and whatever text follows it
  if it ends with a terminator (`PhraseForm.of_terminator`).
-/
import Mathlib.Data.List.Basic
import StyleTemplate.Token.Scanner

namespace StyleTemplate

/-! ### Words of the grammar -/

/-- White space only. -/
def Blank (text : List Char) : Prop :=
  ∀ c ∈ text, isWhite c = true

/-- The text is over, or goes on with a symbol outside the class. -/
def NoneNext (cls : Char → Bool) (text : List Char) : Prop :=
  ∀ c ∈ text.head?, cls c = false

instance (text : List Char) : Decidable (Blank text) :=
  List.decidableBAll (isWhite · = true) text

instance (cls : Char → Bool) (text : List Char) : Decidable (NoneNext cls text) :=
  Option.decidableForallMem text.head?

/-- The same for the symbol behind any white space at the front of the text. -/
def NoneBehindWhite (cls : Char → Bool) (text : List Char) : Prop :=
  ∀ blank c behind, Blank blank → text = blank ++ c :: behind → cls c = false

/-! ### The grammar

Every form relates a written text to what it says.  Where the longest match has
to be kept from reading on, the text that follows is an argument, too. -/

/-- A suffix: a terminator behind any white space, or else one white space
    symbol, or else nothing. -/
inductive SuffixForm : List Char → Option Char → List Char → Prop where
  | terminator {blank : List Char} {c : Char} {rest : List Char} :
      Blank blank → isTerminator c = true → SuffixForm (blank ++ [c]) (some c) rest
  | white {c : Char} {rest : List Char} :
      isWhite c = true → NoneBehindWhite isTerminator rest → SuffixForm [c] (some c) rest
  | none {rest : List Char} :
      NoneNext isWhite rest → NoneNext isTerminator rest → SuffixForm [] none rest

/-- What stands between two quotes.  A backslash and the quote or a second
    backslash say that symbol; any other pair says itself. -/
inductive QuotedForm (quote : Char) : List Char → List Char → Prop where
  | empty : QuotedForm quote [] []
  | symbol {c : Char} {written value : List Char} :
      c ≠ quote → c ≠ '\\' → QuotedForm quote written value →
      QuotedForm quote (c :: written) (c :: value)
  | escaped {c : Char} {written value : List Char} :
      c = quote ∨ c = '\\' → QuotedForm quote written value →
      QuotedForm quote ('\\' :: c :: written) (c :: value)
  | kept {c : Char} {written value : List Char} :
      c ≠ quote → c ≠ '\\' → QuotedForm quote written value →
      QuotedForm quote ('\\' :: c :: written) ('\\' :: c :: value)

/-- One argument with the white space around it. -/
inductive ArgumentForm : List Char → String → Prop where
  | quoted {before after written value : List Char} {quote : Char} :
      Blank before → isQuote quote = true → QuotedForm quote written value → Blank after →
      ArgumentForm (before ++ quote :: (written ++ quote :: after)) (String.ofList value)
  | bare {before value after : List Char} :
      Blank before → value ≠ [] → NoneNext isWhite value → NoneNext isQuote value →
      (∀ c ∈ value.getLast?, isWhite c = false) → Blank after →
      (∀ c ∈ value ++ after, isBareArgument c = true) →
      ArgumentForm (before ++ (value ++ after)) (String.ofList value)

/-- One or more arguments with commas between them. -/
inductive ArgumentsForm : List Char → List String → Prop where
  | last {written : List Char} {argument : String} :
      ArgumentForm written argument → ArgumentsForm written [argument]
  | more {written others : List Char} {argument : String} {arguments : List String} :
      ArgumentForm written argument → ArgumentsForm others arguments →
      ArgumentsForm (written ++ ',' :: others) (argument :: arguments)

/-- The parameters behind a name.  An opening parenthesis behind any white space
    has to be the start of a whole list. -/
inductive ParametersForm : List Char → List String → List Char → Prop where
  | none {rest : List Char} :
      NoneBehindWhite (· == '(') rest → ParametersForm [] [] rest
  | empty {before inside rest : List Char} :
      Blank before → Blank inside → ParametersForm (before ++ '(' :: (inside ++ [')'])) [] rest
  | list {before written rest : List Char} {args : List String} :
      Blank before → ArgumentsForm written args →
      ParametersForm (before ++ '(' :: (written ++ [')'])) args rest

/-- A name: segments of one or more symbols, with dots between them. -/
structure NameForm (written : List Char) (segments : List (List Char)) : Prop where
  ne_nil : segments ≠ []
  segment_ne_nil : ∀ segment ∈ segments, segment ≠ []
  symbols : ∀ segment ∈ segments, ∀ c ∈ segment, isNameSymbol c = true ∧ c ≠ '.'
  written_eq : written = ['.'].intercalate segments

/-- A phrase behind a marker. -/
inductive PhraseForm (marker : Char) : List Char → Phrase → List Char → Prop where
  | escape {written : List Char} {suffix : Option Char} {rest : List Char} :
      SuffixForm written suffix rest →
      PhraseForm marker (marker :: written) ⟨[marker.toString], [], suffix, true⟩ rest
  | named {name params written : List Char} {segments : List (List Char)} {args : List String}
      {suffix : Option Char} {rest : List Char} :
      NameForm name segments → marker ∉ name.head? →
      NoneNext isNameSymbol (params ++ (written ++ rest)) →
      ParametersForm params args (written ++ rest) → SuffixForm written suffix rest →
      PhraseForm marker (name ++ (params ++ written))
        ⟨segments.map String.ofList, args, suffix, false⟩ rest

/-! ### Runs and white space -/

theorem isWhite_of_isTerminator {c : Char} (h : isTerminator c = true) : isWhite c = false := by
  simp only [isTerminator, Bool.or_eq_true, beq_iff_eq] at h
  rcases h with rfl | rfl <;> decide

theorem isWhite_of_isQuote {c : Char} (h : isQuote c = true) : isWhite c = false := by
  simp only [isQuote, Bool.or_eq_true, beq_iff_eq] at h
  rcases h with rfl | rfl <;> decide

theorem ne_backslash_of_isQuote {c : Char} (h : isQuote c = true) : c ≠ '\\' := by
  rintro rfl
  exact absurd h (by decide)

theorem toNat_of_isNameSymbol {c : Char} (h : isNameSymbol c = true) :
    (48 ≤ c.toNat ∧ c.toNat ≤ 57) ∨ (65 ≤ c.toNat ∧ c.toNat ≤ 90) ∨
      (97 ≤ c.toNat ∧ c.toNat ≤ 122) ∨ c.toNat = 95 ∨ c.toNat = 45 ∨ c.toNat = 46 := by
  have hclass : ((decide (65 ≤ c.val ∧ c.val ≤ 90) || 97 ≤ c.val && c.val ≤ 122 ||
      48 ≤ c.val && c.val ≤ 57) || c == '_' || c == '-' || c == '.') = true := h
  simp only [Bool.or_eq_true, Bool.and_eq_true, decide_eq_true_eq, beq_iff_eq,
    UInt32.le_iff_toNat_le] at hclass
  rcases hclass with ((((h | h) | h) | rfl) | rfl) | rfl
  · exact .inr (.inl h)
  · exact .inr (.inr (.inl h))
  · exact .inl h
  · decide
  · decide
  · decide

theorem isWhite_of_isNameSymbol {c : Char} (h : isNameSymbol c = true) : isWhite c = false := by
  have hrange := toNat_of_isNameSymbol h
  simp only [isWhite, Bool.or_eq_false_iff, Bool.and_eq_false_iff, decide_eq_false_iff_not,
    beq_eq_false_iff_ne]
  omega

theorem isNameSymbol_of_isWhite {c : Char} (h : isWhite c = true) : isNameSymbol c = false := by
  cases hc : isNameSymbol c with
  | false => rfl
  | true => exact absurd h (by simp [isWhite_of_isNameSymbol hc])

theorem isNameSymbol_of_isTerminator {c : Char} (h : isTerminator c = true) :
    isNameSymbol c = false := by
  simp only [isTerminator, Bool.or_eq_true, beq_iff_eq] at h
  rcases h with rfl | rfl <;> decide

theorem NoneNext.cons {cls : Char → Bool} {c : Char} (h : cls c = false) (text : List Char) :
    NoneNext cls (c :: text) := by
  intro d hd
  simp only [List.head?_cons, Option.mem_def, Option.some.injEq] at hd
  rw [← hd, h]

theorem NoneNext.of_cons {cls : Char → Bool} {c : Char} {text : List Char}
    (h : NoneNext cls (c :: text)) : cls c = false :=
  h c rfl

theorem noneNext_dropWhile (cls : Char → Bool) (text : List Char) :
    NoneNext cls (text.dropWhile cls) := by
  intro c hc
  have := List.head?_dropWhile_not cls text
  rw [Option.mem_def.1 hc] at this
  simpa using this

/-- A run of symbols of the class is cut off whole. -/
theorem takeWhile_append_of_noneNext {cls : Char → Bool} {run rest : List Char}
    (all : ∀ c ∈ run, cls c = true) (next : NoneNext cls rest) :
    (run ++ rest).takeWhile cls = run := by
  rw [List.takeWhile_append_of_pos all]
  cases rest with
  | nil => simp
  | cons c rest => simp [next.of_cons]

theorem dropWhile_append_of_noneNext {cls : Char → Bool} {run rest : List Char}
    (all : ∀ c ∈ run, cls c = true) (next : NoneNext cls rest) :
    (run ++ rest).dropWhile cls = rest := by
  rw [List.dropWhile_append_of_pos all]
  cases rest with
  | nil => simp
  | cons c rest => simp [next.of_cons]

theorem skipWhite_append {blank : List Char} (h : Blank blank) (text : List Char) :
    skipWhite (blank ++ text) = skipWhite text :=
  List.dropWhile_append_of_pos h

theorem skipWhite_of_noneNext {text : List Char} (h : NoneNext isWhite text) :
    skipWhite text = text := by
  cases text with
  | nil => rfl
  | cons c text => simp [skipWhite, h.of_cons]

theorem skipWhite_append_cons {blank : List Char} (h : Blank blank) {c : Char}
    (hc : isWhite c = false) (text : List Char) : skipWhite (blank ++ c :: text) = c :: text := by
  rw [skipWhite_append h, skipWhite_of_noneNext (.cons hc text)]

/-- What is skipped is white space. -/
theorem exists_blank_append_skipWhite (text : List Char) :
    ∃ blank, Blank blank ∧ text = blank ++ skipWhite text := by
  refine ⟨leadingWhite text, ?_, List.takeWhile_append_dropWhile.symm⟩
  intro c hc
  exact List.all_eq_true.1 List.all_takeWhile c hc

/-- For symbols that are not white space, "behind white space" is "next once
    white space is skipped". -/
theorem noneBehindWhite_iff {cls : Char → Bool} (hcls : ∀ c, cls c = true → isWhite c = false)
    {text : List Char} : NoneBehindWhite cls text ↔ NoneNext cls (skipWhite text) := by
  constructor
  · intro h c hc
    obtain ⟨blank, hblank, heq⟩ := exists_blank_append_skipWhite text
    cases hskip : skipWhite text with
    | nil => simp [hskip] at hc
    | cons d behind =>
      rw [hskip] at hc heq
      simp only [List.head?_cons, Option.mem_def, Option.some.injEq] at hc
      exact h blank c behind hblank (hc ▸ heq)
  · rintro h blank c behind hblank rfl
    cases hc : cls c with
    | false => rfl
    | true =>
      rw [skipWhite_append_cons hblank (hcls c hc)] at h
      exact hc.symm.trans h.of_cons

theorem NoneBehindWhite.noneNext {cls : Char → Bool} {text : List Char}
    (h : NoneBehindWhite cls text) : NoneNext cls text := by
  intro c hc
  cases text with
  | nil => simp at hc
  | cons d text =>
    simp only [List.head?_cons, Option.mem_def, Option.some.injEq] at hc
    exact h [] c text (by simp [Blank]) (by simp [hc])

/-- White space in front changes nothing about what stands behind white space. -/
theorem NoneBehindWhite.cons_of_white {cls : Char → Bool} {text : List Char}
    (h : NoneBehindWhite cls text) (hcls : ∀ c, cls c = true → isWhite c = false) {c : Char}
    (hc : isWhite c = true) : NoneBehindWhite cls (c :: text) := by
  have hskip : skipWhite (c :: text) = skipWhite text := by simp [skipWhite, hc]
  rwa [noneBehindWhite_iff hcls, hskip, ← noneBehindWhite_iff hcls]

theorem noneBehindWhite_of_noneNext {cls : Char → Bool} {text : List Char}
    (white : NoneNext isWhite text) (next : NoneNext cls text) : NoneBehindWhite cls text := by
  rintro blank c behind hblank rfl
  cases blank with
  | nil => exact next.of_cons
  | cons d blank => exact absurd (hblank d List.mem_cons_self) (by simp [white.of_cons])

/-- A suffix looks at the first symbol behind it, and at the first one there that is
    not white space. -/
theorem SuffixForm.congr {written rest other : List Char} {suffix : Option Char}
    (h : SuffixForm written suffix rest) (hhead : other.head? = rest.head?)
    (hskip : (skipWhite other).head? = (skipWhite rest).head?) :
    SuffixForm written suffix other := by
  cases h with
  | terminator hblank hc => exact .terminator hblank hc
  | white hc next =>
    refine .white hc ?_
    rw [noneBehindWhite_iff fun _ => isWhite_of_isTerminator] at next ⊢
    intro d hd
    exact next d (hskip ▸ hd)
  | none white terminator =>
    refine .none ?_ ?_
    · intro d hd
      exact white d (hhead ▸ hd)
    · intro d hd
      exact terminator d (hhead ▸ hd)

theorem SuffixForm.not_mem {marker : Char} {written rest : List Char} {suffix : Option Char}
    (h : SuffixForm written suffix rest) (hwhite : isWhite marker = false)
    (hterminator : isTerminator marker = false) : marker ∉ written := by
  intro hmem
  cases h with
  | terminator hblank hc =>
    rcases List.mem_append.1 hmem with hmem | hmem
    · exact absurd (hblank marker hmem) (by simp [hwhite])
    · rw [← List.mem_singleton.1 hmem, hterminator] at hc
      exact absurd hc (by simp)
  | white hc =>
    rw [← List.mem_singleton.1 hmem, hwhite] at hc
    exact absurd hc (by simp)
  | none => exact absurd hmem List.not_mem_nil

/-! ### Cutting off what follows

A text that is cut off has no more symbols to read on into. -/

theorem NoneNext.of_prefix {cls : Char → Bool} {front behind : List Char}
    (h : NoneNext cls (front ++ behind)) : NoneNext cls front := by
  intro c hc
  cases front with
  | nil => simp at hc
  | cons d front => exact h c hc

theorem NoneBehindWhite.of_prefix {cls : Char → Bool} {front behind : List Char}
    (h : NoneBehindWhite cls (front ++ behind)) : NoneBehindWhite cls front := by
  intro blank c more hblank heq
  exact h blank c (more ++ behind) hblank (by simp [heq])

theorem SuffixForm.of_prefix {written front behind : List Char} {suffix : Option Char}
    (h : SuffixForm written suffix (front ++ behind)) : SuffixForm written suffix front := by
  cases h with
  | terminator hblank hc => exact .terminator hblank hc
  | white hc next => exact .white hc next.of_prefix
  | none white terminator => exact .none white.of_prefix terminator.of_prefix

theorem ParametersForm.of_prefix {written front behind : List Char} {args : List String}
    (h : ParametersForm written args (front ++ behind)) : ParametersForm written args front := by
  cases h with
  | none next => exact .none next.of_prefix
  | empty hbefore hinside => exact .empty hbefore hinside
  | list hbefore hargs => exact .list hbefore hargs

/-- A phrase stays one when the text behind it is cut off. -/
theorem PhraseForm.of_prefix {marker : Char} {written front behind : List Char} {phrase : Phrase}
    (h : PhraseForm marker written phrase (front ++ behind)) :
    PhraseForm marker written phrase front := by
  cases h with
  | escape hsuffix => exact .escape hsuffix.of_prefix
  | named hname hmarker next hparams hsuffix =>
    simp only [← List.append_assoc] at next hparams
    refine .named hname hmarker ?_ hparams.of_prefix hsuffix.of_prefix
    simpa only [List.append_assoc] using next.of_prefix

/-! ### Terminators shut a phrase off -/

theorem NoneNext.append_of_ne_nil {cls : Char → Bool} {front : List Char} (ne : front ≠ [])
    {behind : List Char} (h : NoneNext cls (front ++ behind)) (other : List Char) :
    NoneNext cls (front ++ other) := by
  cases front with
  | nil => exact absurd rfl ne
  | cons c front => exact .cons h.of_cons (front ++ other)

/-- What stands behind white space is settled by the first other symbol. -/
theorem NoneBehindWhite.append_of_white {cls : Char → Bool} {blank : List Char}
    (hblank : Blank blank) {c : Char} (hc : isWhite c = false) {behind : List Char}
    (hcls : ∀ c, cls c = true → isWhite c = false)
    (h : NoneBehindWhite cls (blank ++ c :: behind)) (other : List Char) :
    NoneBehindWhite cls (blank ++ c :: other) := by
  rw [noneBehindWhite_iff hcls, skipWhite_append_cons hblank hc] at h ⊢
  exact .cons h.of_cons other

theorem isWhite_of_eq_openParen {c : Char} (h : (c == '(') = true) : isWhite c = false := by
  rw [beq_iff_eq.1 h]
  decide

theorem SuffixForm.of_any_isTerminator {written rest : List Char} {suffix : Option Char}
    (h : SuffixForm written suffix rest) (closed : suffix.any isTerminator = true) :
    ∃ blank c, Blank blank ∧ isTerminator c = true ∧ written = blank ++ [c] ∧ suffix = some c := by
  cases h with
  | terminator hblank hc => exact ⟨_, _, hblank, hc, rfl, rfl⟩
  | white hc =>
    have := isWhite_of_isTerminator (by simpa using closed)
    simp [hc] at this
  | none => simp at closed

/-- A phrase that ends with a terminator is one whatever text follows it. -/
theorem PhraseForm.of_terminator {marker : Char} {written rest : List Char} {phrase : Phrase}
    (h : PhraseForm marker written phrase rest) (closed : phrase.suffix.any isTerminator = true)
    (other : List Char) : PhraseForm marker written phrase other := by
  cases h with
  | escape hsuffix =>
    obtain ⟨blank, c, hblank, hc, rfl, rfl⟩ := hsuffix.of_any_isTerminator closed
    exact .escape (.terminator hblank hc)
  | named hname hmarker next hparams hsuffix =>
    obtain ⟨blank, c, hblank, hc, rfl, rfl⟩ := hsuffix.of_any_isTerminator closed
    refine .named hname hmarker ?_ ?_ (.terminator hblank hc)
    · rw [← List.append_assoc] at next ⊢
      exact next.append_of_ne_nil (by simp) other
    · cases hparams with
      | none next' =>
        rw [List.append_assoc] at next' ⊢
        exact .none (next'.append_of_white hblank (isWhite_of_isTerminator hc)
          (fun _ => isWhite_of_eq_openParen) other)
      | empty hbefore hinside => exact .empty hbefore hinside
      | list hbefore hargs => exact .list hbefore hargs

end StyleTemplate
