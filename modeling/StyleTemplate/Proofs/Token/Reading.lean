/-
  **What the reader accepts is the grammar.**

  For each form of the grammar there are two statements: the reader accepts
  what the form writes (`read…_of_form`), and where the reader accepts, it has
  read a form (`exists_…Form`).  Together they give `Phrase.read_eq_ok_iff`, and
  from it what one step of a scanner does at a marker.
-/
import StyleTemplate.Proofs.Token.Grammar

namespace StyleTemplate

/-! ### Suffixes -/

theorem readWhite_of_noneNext {text : List Char} (h : NoneNext isWhite text) :
    readWhite text = (none, text) := by
  cases text with
  | nil => rfl
  | cons c text => simp [readWhite, h.of_cons]

/-- Without a terminator behind white space, at most one white space symbol is
    taken. -/
theorem readSuffix_of_noneBehindWhite {text : List Char}
    (h : NoneBehindWhite isTerminator text) : readSuffix text = readWhite text := by
  rw [noneBehindWhite_iff fun _ => isWhite_of_isTerminator] at h
  unfold readSuffix
  cases hskip : skipWhite text with
  | nil => rfl
  | cons c behind =>
    rw [hskip] at h
    simp [h.of_cons]

theorem readSuffix_of_form {written rest : List Char} {suffix : Option Char}
    (h : SuffixForm written suffix rest) : readSuffix (written ++ rest) = (suffix, rest) := by
  cases h with
  | @terminator blank c _ hblank hc =>
    rw [List.append_assoc, readSuffix, List.singleton_append,
      skipWhite_append_cons hblank (isWhite_of_isTerminator hc)]
    simp [hc]
  | @white c _ hc next =>
    have next' := next.cons_of_white (fun _ => isWhite_of_isTerminator) hc
    rw [List.singleton_append, readSuffix_of_noneBehindWhite next']
    simp [readWhite, hc]
  | none white terminator =>
    have next := noneBehindWhite_of_noneNext white terminator
    rw [List.nil_append, readSuffix_of_noneBehindWhite next, readWhite_of_noneNext white]

/-- Whatever the text, a suffix is read from it. -/
theorem exists_suffixForm (text : List Char) :
    ∃ written, text = written ++ (readSuffix text).2 ∧
      SuffixForm written (readSuffix text).1 (readSuffix text).2 := by
  obtain ⟨blank, hblank, heq⟩ := exists_blank_append_skipWhite text
  by_cases h : NoneBehindWhite isTerminator text
  · rw [readSuffix_of_noneBehindWhite h]
    cases text with
    | nil => exact ⟨[], rfl, .none (by simp [NoneNext, readWhite]) h.noneNext⟩
    | cons c text =>
      cases hc : isWhite c with
      | true =>
        refine ⟨[c], by simp [readWhite, hc], ?_⟩
        simp only [readWhite, hc, if_true]
        refine .white hc ?_
        intro white d behind hwhite heq
        refine h (c :: white) d behind ?_ (by simp [heq])
        simpa [Blank, hc] using hwhite
      | false =>
        refine ⟨[], by simp [readWhite, hc], ?_⟩
        simp only [readWhite, hc]
        exact .none (.cons hc text) h.noneNext
  · rw [noneBehindWhite_iff fun _ => isWhite_of_isTerminator] at h
    cases hskip : skipWhite text with
    | nil => exact absurd (by simp [NoneNext, hskip]) h
    | cons c behind =>
      have hc : isTerminator c = true := by
        cases hc : isTerminator c with
        | true => rfl
        | false => exact absurd (hskip ▸ .cons hc behind) h
      have hread : readSuffix text = (some c, behind) := by simp [readSuffix, hskip, hc]
      rw [hread]
      exact ⟨blank ++ [c], by simpa [hskip] using heq, .terminator hblank hc⟩

/-! ### Quoted arguments -/

theorem readQuoted_of_form {quote : Char} (hquote : isQuote quote = true)
    {written value : List Char} (h : QuotedForm quote written value) (rest : List Char) :
    readQuoted quote (written ++ quote :: rest) = some (value, rest) := by
  have hbackslash := ne_backslash_of_isQuote hquote
  induction h with
  | empty =>
    rw [List.nil_append, readQuoted.eq_3 _ _ _ (by simp [hbackslash])]
    simp
  | @symbol c written value hc hc' _ ih =>
    rw [List.cons_append, readQuoted.eq_3 _ _ _ (by simp [hc'])]
    simp [hc, ih]
  | escaped hc _ ih => simp [readQuoted, ih, hc]
  | kept hc hc' _ ih => simp [readQuoted, ih, hc, hc']

theorem exists_quotedForm {quote : Char} {text value rest : List Char}
    (h : readQuoted quote text = some (value, rest)) :
    ∃ written, text = written ++ quote :: rest ∧ QuotedForm quote written value := by
  fun_induction readQuoted quote text generalizing value rest with
  | case1 => simp at h
  | case2 c text ih =>
    obtain ⟨⟨value, rest⟩, hread, heq⟩ := Option.map_eq_some_iff.1 h
    obtain ⟨written, rfl, hwritten⟩ := ih hread
    simp only [Prod.mk.injEq] at heq
    obtain ⟨rfl, rfl⟩ := heq
    refine ⟨'\\' :: c :: written, rfl, ?_⟩
    split
    next hc => exact .escaped (by simpa using hc) hwritten
    next hc =>
      simp only [Bool.or_eq_true, beq_iff_eq, not_or] at hc
      exact .kept hc.1 hc.2 hwritten
  | case3 c text _ hc =>
    simp only [Option.some.injEq, Prod.mk.injEq] at h
    obtain ⟨rfl, rfl⟩ := h
    rw [beq_iff_eq] at hc
    exact ⟨[], by rw [hc]; rfl, .empty⟩
  | case4 c text hpair hc ih =>
    obtain ⟨⟨value, rest⟩, hread, heq⟩ := Option.map_eq_some_iff.1 h
    obtain ⟨written, rfl, hwritten⟩ := ih hread
    simp only [Prod.mk.injEq] at heq
    obtain ⟨rfl, rfl⟩ := heq
    refine ⟨c :: written, rfl, .symbol (by simpa using hc) ?_ hwritten⟩
    rintro rfl
    cases written with
    | nil => exact hpair _ _ rfl rfl
    | cons d written => exact hpair _ _ rfl rfl

/-! ### Single arguments -/

theorem trimEnd_append {value after : List Char} (hlast : ∀ c ∈ value.getLast?, isWhite c = false)
    (hafter : Blank after) : trimEnd (value ++ after) = value := by
  have next : NoneNext isWhite value.reverse := by simpa [NoneNext] using hlast
  have hafter' : ∀ c ∈ after.reverse, isWhite c = true := by simpa [Blank] using hafter
  rw [trimEnd, List.reverse_append, dropWhile_append_of_noneNext hafter' next,
    List.reverse_reverse]

theorem exists_trimEnd_append (text : List Char) :
    ∃ after, Blank after ∧ text = trimEnd text ++ after ∧
      ∀ c ∈ (trimEnd text).getLast?, isWhite c = false := by
  obtain ⟨blank, hblank, heq⟩ := exists_blank_append_skipWhite text.reverse
  refine ⟨blank.reverse, by simpa [Blank] using hblank, ?_, ?_⟩
  · rw [trimEnd, ← List.reverse_append]
    exact List.reverse_eq_iff.1 heq
  · simpa [trimEnd, NoneNext] using noneNext_dropWhile isWhite text.reverse

theorem isWhite_of_not_isBareArgument {c : Char} (h : isBareArgument c = false) :
    isWhite c = false := by
  simp only [isBareArgument, Bool.not_eq_false', Bool.or_eq_true, beq_iff_eq] at h
  rcases h with rfl | rfl <;> decide

/-- An argument is read up to the comma or parenthesis behind it, white space
    in between apart. -/
theorem readArgument_of_form {written : List Char} {argument : String}
    (h : ArgumentForm written argument) {c : Char} (hc : isBareArgument c = false)
    (rest : List Char) :
    ∃ left, readArgument (written ++ c :: rest) = .ok (argument, left) ∧
      skipWhite left = c :: rest := by
  have hwhite := isWhite_of_not_isBareArgument hc
  cases h with
  | @quoted before after written value quote hbefore hquote hbody hafter =>
    refine ⟨after ++ c :: rest, ?_, skipWhite_append_cons hafter hwhite rest⟩
    have hread := readQuoted_of_form hquote hbody (after ++ c :: rest)
    simp only [readArgument, List.append_assoc, List.cons_append,
      skipWhite_append_cons hbefore (isWhite_of_isQuote hquote), hquote, if_true, hread]
  | @bare before value after hbefore hne hstart hquote hlast hafter hall =>
    refine ⟨c :: rest, ?_, skipWhite_of_noneNext (.cons hwhite rest)⟩
    have next : NoneNext isBareArgument (c :: rest) := .cons hc rest
    have hrun := takeWhile_append_of_noneNext hall next
    have hrest := dropWhile_append_of_noneNext hall next
    obtain ⟨d, value, rfl⟩ := List.exists_cons_of_ne_nil hne
    simp only [List.cons_append] at hrun hrest
    simp only [readArgument, List.append_assoc, List.cons_append,
      skipWhite_append_cons hbefore hstart.of_cons, hquote.of_cons]
    rw [← List.append_assoc, hrun, hrest, ← List.cons_append, trimEnd_append hlast hafter]
    simp

/-- A run of symbols that starts with neither white space nor a quote is a bare
    argument. -/
theorem ArgumentForm.of_run {before run : List Char} {c : Char} (hbefore : Blank before)
    (hfirst : c ∈ run.head?) (hwhite : isWhite c = false) (hquote : isQuote c = false)
    (hall : ∀ d ∈ run, isBareArgument d = true) (hne : trimEnd run ≠ []) :
    ArgumentForm (before ++ run) (String.ofList (trimEnd run)) := by
  obtain ⟨after, hafter, htrim, hlast⟩ := exists_trimEnd_append run
  have hhead : ∀ d ∈ (trimEnd run).head?, d = c := by
    intro d hd
    rw [htrim, List.head?_append, Option.mem_def.1 hd] at hfirst
    simpa using hfirst
  have hform := ArgumentForm.bare hbefore hne (fun d hd => hhead d hd ▸ hwhite)
    (fun d hd => hhead d hd ▸ hquote) hlast hafter (htrim ▸ hall)
  rwa [← htrim] at hform

theorem exists_argumentForm {text left : List Char} {argument : String}
    (h : readArgument text = .ok (argument, left)) :
    ∃ written, text = written ++ skipWhite left ∧ ArgumentForm written argument := by
  obtain ⟨before, hbefore, heq⟩ := exists_blank_append_skipWhite text
  have hstart := noneNext_dropWhile isWhite text
  unfold readArgument at h
  split at h
  next => simp at h
  next c behind hskip =>
    rw [hskip] at heq
    rw [← skipWhite, hskip] at hstart
    split at h
    next hquote =>
      split at h
      next body rest hread =>
        simp only [Except.ok.injEq, Prod.mk.injEq] at h
        obtain ⟨rfl, rfl⟩ := h
        obtain ⟨written, rfl, hbody⟩ := exists_quotedForm hread
        obtain ⟨after, hafter, hrest⟩ := exists_blank_append_skipWhite rest
        refine ⟨_, ?_, .quoted hbefore hquote hbody hafter⟩
        rw [heq]
        simp only [List.append_assoc, List.cons_append, ← hrest]
      next => simp at h
    next hquote =>
      dsimp only at h
      split at h
      next => simp at h
      next hne =>
        simp only [Except.ok.injEq, Prod.mk.injEq] at h
        obtain ⟨rfl, rfl⟩ := h
        have hrest := noneNext_dropWhile isBareArgument (c :: behind)
        have hskip' := skipWhite_of_noneNext fun d hd =>
          isWhite_of_not_isBareArgument (hrest d hd)
        have hquote' : isQuote c = false := by simpa using hquote
        have hne' : (c :: behind).takeWhile isBareArgument ≠ [] := by
          intro hnil
          simp [hnil, trimEnd] at hne
        have hfirst : c ∈ ((c :: behind).takeWhile isBareArgument).head? := by
          rw [List.head?_takeWhile]
          cases hc : isBareArgument c with
          | true => simp [hc]
          | false => simp [hc] at hne'
        refine ⟨before ++ (c :: behind).takeWhile isBareArgument, ?_,
          .of_run hbefore hfirst hstart.of_cons hquote' ?_ (by simpa using hne)⟩
        · rw [hskip', List.append_assoc, List.takeWhile_append_dropWhile, heq]
        · exact fun d hd => List.all_eq_true.1 List.all_takeWhile d hd

/-! ### Argument lists -/

theorem readArguments_of_comma {text left behind : List Char} {argument : String}
    (hread : readArgument text = .ok (argument, left)) (hskip : skipWhite left = ',' :: behind) :
    readArguments text =
      (readArguments behind).map fun (more, rest) => (argument :: more, rest) := by
  rw [readArguments]
  split
  next heq => simp [hread] at heq
  next argument' left' heq =>
    obtain ⟨rfl, rfl⟩ : argument = argument' ∧ left = left' := by simpa [hread] using heq
    split <;> simp_all
    split <;> simp_all [Except.map]

theorem readArguments_of_parenthesis {text left behind : List Char} {argument : String}
    (hread : readArgument text = .ok (argument, left)) (hskip : skipWhite left = ')' :: behind) :
    readArguments text = .ok ([argument], behind) := by
  rw [readArguments]
  split
  next heq => simp [hread] at heq
  next argument' left' heq =>
    obtain ⟨rfl, rfl⟩ : argument = argument' ∧ left = left' := by simpa [hread] using heq
    split <;> simp_all

theorem readArguments_of_fault {text left : List Char} {fault : ArgumentFault}
    (hread : readArgument text = .error (fault, left)) :
    readArguments text = .error (fault, left) := by
  rw [readArguments]
  split <;> simp_all

theorem readArguments_of_open {text left : List Char} {argument : String}
    (hread : readArgument text = .ok (argument, left))
    (hcomma : ∀ behind, skipWhite left ≠ ',' :: behind)
    (hclose : ∀ behind, skipWhite left ≠ ')' :: behind) :
    readArguments text = .error (.openList, skipWhite left) := by
  rw [readArguments]
  split
  next heq => simp [hread] at heq
  next argument' left' heq =>
    obtain ⟨rfl, rfl⟩ : argument = argument' ∧ left = left' := by simpa [hread] using heq
    split
    next behind hskip => exact absurd hskip (hcomma behind)
    next behind hskip => exact absurd hskip (hclose behind)
    next => rfl

theorem readArguments_of_form {written : List Char} {args : List String}
    (h : ArgumentsForm written args) (rest : List Char) :
    readArguments (written ++ ')' :: rest) = .ok (args, rest) := by
  induction h with
  | last hargument =>
    obtain ⟨left, hread, hskip⟩ := readArgument_of_form hargument (c := ')') (by decide) rest
    exact readArguments_of_parenthesis hread hskip
  | @more written others argument args hargument _ ih =>
    obtain ⟨left, hread, hskip⟩ :=
      readArgument_of_form hargument (c := ',') (by decide) (others ++ ')' :: rest)
    rw [List.append_assoc, List.cons_append, readArguments_of_comma hread hskip, ih]
    rfl

theorem exists_argumentsForm {text rest : List Char} {args : List String}
    (h : readArguments text = .ok (args, rest)) :
    ∃ written, text = written ++ ')' :: rest ∧ ArgumentsForm written args := by
  fun_induction readArguments text generalizing args rest with
  | case1 => simp at h
  | case2 text argument left hread behind hskip more rest' hmore ih =>
    simp only [Except.ok.injEq, Prod.mk.injEq] at h
    obtain ⟨rfl, rfl⟩ := h
    obtain ⟨written, rfl, hargument⟩ := exists_argumentForm hread
    obtain ⟨others, rfl, hothers⟩ := ih hmore
    exact ⟨written ++ ',' :: others, by simp [hskip], .more hargument hothers⟩
  | case3 => simp at h
  | case4 text argument left hread behind hskip =>
    simp only [Except.ok.injEq, Prod.mk.injEq] at h
    obtain ⟨rfl, rfl⟩ := h
    obtain ⟨written, rfl, hargument⟩ := exists_argumentForm hread
    exact ⟨written, by rw [hskip], .last hargument⟩
  | case5 => simp at h

/-! ### Parameters -/

theorem Blank.append {a b : List Char} (ha : Blank a) (hb : Blank b) : Blank (a ++ b) := by
  intro c hc
  rcases List.mem_append.1 hc with h | h
  · exact ha c h
  · exact hb c h

/-- White space in front of an argument belongs to it. -/
theorem ArgumentForm.blank_append {blank written : List Char} {argument : String}
    (hblank : Blank blank) (h : ArgumentForm written argument) :
    ArgumentForm (blank ++ written) argument := by
  cases h with
  | quoted hbefore hquote hbody hafter =>
    rw [← List.append_assoc]
    exact .quoted (hblank.append hbefore) hquote hbody hafter
  | bare hbefore hne hstart hquote hlast hafter hall =>
    rw [← List.append_assoc]
    exact .bare (hblank.append hbefore) hne hstart hquote hlast hafter hall

theorem ArgumentsForm.blank_append {blank written : List Char} {args : List String}
    (hblank : Blank blank) (h : ArgumentsForm written args) :
    ArgumentsForm (blank ++ written) args := by
  cases h with
  | last hargument => exact .last (hargument.blank_append hblank)
  | more hargument hothers =>
    rw [← List.append_assoc]
    exact .more (hargument.blank_append hblank) hothers

/-- The same argument without the white space in front of it, which cannot be
    mistaken for the end of the list. -/
theorem ArgumentForm.exists_cons {written : List Char} {argument : String}
    (h : ArgumentForm written argument) :
    ∃ blank c more, Blank blank ∧ written = blank ++ c :: more ∧ isWhite c = false ∧ c ≠ ')' ∧
      ArgumentForm (c :: more) argument := by
  cases h with
  | @quoted before after body value quote hbefore hquote hbody hafter =>
    have hform : ArgumentForm ([] ++ quote :: (body ++ quote :: after)) (String.ofList value) :=
      .quoted (by simp [Blank]) hquote hbody hafter
    refine ⟨before, quote, _, hbefore, rfl, isWhite_of_isQuote hquote, ?_, hform⟩
    rintro rfl
    exact absurd hquote (by decide)
  | @bare before value after hbefore hne hstart hquote hlast hafter hall =>
    have hform : ArgumentForm ([] ++ (value ++ after)) (String.ofList value) :=
      .bare (by simp [Blank]) hne hstart hquote hlast hafter hall
    obtain ⟨c, value, rfl⟩ := List.exists_cons_of_ne_nil hne
    refine ⟨before, c, _, hbefore, rfl, hstart.of_cons, ?_, hform⟩
    rintro rfl
    exact absurd (hall ')' (by simp)) (by decide)

theorem ArgumentsForm.exists_cons {written : List Char} {args : List String}
    (h : ArgumentsForm written args) :
    ∃ blank c more, Blank blank ∧ written = blank ++ c :: more ∧ isWhite c = false ∧ c ≠ ')' ∧
      ArgumentsForm (c :: more) args := by
  cases h with
  | last hargument =>
    obtain ⟨blank, c, more, hblank, rfl, hc, hc', hform⟩ := hargument.exists_cons
    exact ⟨blank, c, more, hblank, rfl, hc, hc', .last hform⟩
  | more hargument hothers =>
    obtain ⟨blank, c, more, hblank, rfl, hc, hc', hform⟩ := hargument.exists_cons
    exact ⟨blank, c, _, hblank, by simp, hc, hc', .more hform hothers⟩

theorem noneBehindWhite_openParen_iff {text : List Char} :
    NoneBehindWhite (· == '(') text ↔ NoneNext (· == '(') (skipWhite text) :=
  noneBehindWhite_iff fun _ => isWhite_of_eq_openParen

theorem readParameters_of_form {written rest : List Char} {args : List String}
    (h : ParametersForm written args rest) :
    readParameters (written ++ rest) = .ok (args, rest) := by
  cases h with
  | none next =>
    rw [noneBehindWhite_openParen_iff] at next
    rw [List.nil_append, readParameters]
    split
    next inside hskip =>
      rw [hskip] at next
      exact absurd next.of_cons (by decide)
    next => rfl
  | @empty before inside _ hbefore hinside =>
    have hopen : skipWhite (before ++ '(' :: (inside ++ ')' :: rest)) = _ :=
      skipWhite_append_cons hbefore (by decide) _
    have hclose : skipWhite (inside ++ ')' :: rest) = _ :=
      skipWhite_append_cons hinside (by decide) _
    simp [readParameters, hopen, hclose]
  | @list before written _ _ hbefore hargs =>
    have hopen : skipWhite (before ++ '(' :: (written ++ ')' :: rest)) = _ :=
      skipWhite_append_cons hbefore (by decide) _
    obtain ⟨blank, c, more, hblank, rfl, hc, hne, hform⟩ := hargs.exists_cons
    have hinside : skipWhite (blank ++ c :: (more ++ ')' :: rest)) = _ :=
      skipWhite_append_cons hblank hc _
    have hread := readArguments_of_form hform rest
    simp only [List.append_assoc, List.cons_append, List.nil_append] at hopen hread ⊢
    simp only [readParameters, hopen, hinside]
    split
    next heq => exact absurd (List.cons.inj heq).1 hne
    next => exact hread

theorem exists_parametersForm {text rest : List Char} {args : List String}
    (h : readParameters text = .ok (args, rest)) :
    ∃ written, text = written ++ rest ∧ ParametersForm written args rest := by
  obtain ⟨before, hbefore, heq⟩ := exists_blank_append_skipWhite text
  unfold readParameters at h
  split at h
  next inside hskip =>
    obtain ⟨blank, hblank, heq'⟩ := exists_blank_append_skipWhite inside
    rw [hskip] at heq
    split at h
    next behind hskip' =>
      simp only [Except.ok.injEq, Prod.mk.injEq] at h
      obtain ⟨rfl, rfl⟩ := h
      rw [hskip'] at heq'
      exact ⟨_, by rw [heq, heq']; simp, .empty hbefore hblank⟩
    next =>
      obtain ⟨written, hwritten, hargs⟩ := exists_argumentsForm h
      rw [hwritten] at heq'
      exact ⟨_, by rw [heq, heq']; simp, .list hbefore (hargs.blank_append hblank)⟩
  next hskip =>
    simp only [Except.ok.injEq, Prod.mk.injEq] at h
    obtain ⟨rfl, rfl⟩ := h
    refine ⟨[], rfl, .none (noneBehindWhite_openParen_iff.2 ?_)⟩
    intro c hc
    cases htext : skipWhite text with
    | nil => simp [htext] at hc
    | cons d inside =>
      rw [htext, List.head?_cons, Option.mem_def, Option.some.injEq] at hc
      subst hc
      rw [beq_eq_false_iff_ne]
      rintro rfl
      exact hskip inside htext

/-! ### Names -/

theorem NameForm.isNameSymbol_of_mem {name : List Char} {parts : List (List Char)}
    (h : NameForm name parts) : ∀ c ∈ name, isNameSymbol c = true := by
  intro c hc
  rw [h.written_eq] at hc
  rcases mem_of_mem_intercalate hc with rfl | ⟨part, hpart, hc⟩
  · decide
  · exact (h.symbols part hpart c hc).1

theorem NameForm.segments_eq {name : List Char} {parts : List (List Char)}
    (h : NameForm name parts) : segments name = parts := by
  rw [h.written_eq, segments, splitOnSymbol_eq_splitOn]
  refine List.splitOn_intercalate '.' (fun part hpart hdot => ?_) h.ne_nil
  exact (h.symbols part hpart '.' hdot).2 rfl

theorem NameForm.name_ne_nil {name : List Char} {parts : List (List Char)}
    (h : NameForm name parts) : name ≠ [] := by
  rintro rfl
  have hparts : parts = [[]] := by simpa [segments, splitOnSymbol] using h.segments_eq.symm
  exact h.segment_ne_nil [] (by simp [hparts]) rfl

theorem nameForm_segments {name : List Char} (hall : ∀ c ∈ name, isNameSymbol c = true)
    (hne : [] ∉ segments name) : NameForm name (segments name) where
  ne_nil := splitOnSymbol_ne_nil '.' name
  segment_ne_nil part hpart hnil := hne (hnil ▸ hpart)
  symbols part hpart c hc := by
    have hmem : c ∈ ['.'].intercalate (segments name) := mem_intercalate_of_mem hpart hc
    rw [segments, intercalate_splitOnSymbol] at hmem
    refine ⟨hall c hmem, ?_⟩
    rintro rfl
    exact not_mem_of_mem_splitOnSymbol hpart hc
  written_eq := (intercalate_splitOnSymbol '.' name).symm

/-! ### Phrases -/

namespace Phrase

theorem readNamed_of_form {name params written rest : List Char} {parts : List (List Char)}
    {args : List String} {suffix : Option Char} (hname : NameForm name parts)
    (next : NoneNext isNameSymbol (params ++ (written ++ rest)))
    (hparams : ParametersForm params args (written ++ rest))
    (hsuffix : SuffixForm written suffix rest) :
    readNamed (name ++ (params ++ (written ++ rest))) =
      .ok (⟨parts.map String.ofList, args, suffix, false⟩, rest) := by
  have hrun := takeWhile_append_of_noneNext hname.isNameSymbol_of_mem next
  have hrest := dropWhile_append_of_noneNext hname.isNameSymbol_of_mem next
  have hne : name.isEmpty = false := by simpa using hname.name_ne_nil
  have hparts : parts.any List.isEmpty = false := by
    simpa using hname.segment_ne_nil
  simp [readNamed, hrun, hrest, hne, hname.segments_eq, hparts, readParameters_of_form hparams,
    readSuffix_of_form hsuffix]

theorem read_of_form {marker : Char} {written rest : List Char} {phrase : Phrase}
    (h : PhraseForm marker written phrase rest) :
    read marker (written ++ rest) = .ok (phrase, rest) := by
  cases h with
  | escape hsuffix => simp [read, readEscape, readSuffix_of_form hsuffix]
  | @named name params written parts args suffix _ hname hmarker next hparams hsuffix =>
    have hread := readNamed_of_form hname next hparams hsuffix
    obtain ⟨c, more, rfl⟩ := List.exists_cons_of_ne_nil hname.name_ne_nil
    have hc : c ≠ marker := by
      rintro rfl
      exact hmarker rfl
    simp only [List.append_assoc, List.cons_append] at hread ⊢
    simp [read, hc, hread]

theorem exists_form_of_readNamed {marker : Char} {text rest : List Char} {phrase : Phrase}
    (hmarker : marker ∉ text.head?) (h : readNamed text = .ok (phrase, rest)) :
    ∃ written, text = written ++ rest ∧ PhraseForm marker written phrase rest := by
  have hall : ∀ c ∈ text.takeWhile isNameSymbol, isNameSymbol c = true :=
    fun c hc => List.all_eq_true.1 List.all_takeWhile c hc
  have hnext := noneNext_dropWhile isNameSymbol text
  have htext := List.takeWhile_append_dropWhile (p := isNameSymbol) (l := text)
  unfold readNamed at h
  dsimp only at h
  split at h
  next => simp at h
  next =>
    split at h
    next => simp at h
    next hparts =>
      split at h
      next => simp at h
      next args left hread =>
        simp only [Except.ok.injEq, Prod.mk.injEq] at h
        obtain ⟨rfl, rfl⟩ := h
        have hname := nameForm_segments hall (by simpa using hparts)
        obtain ⟨params, hparams_eq, hparams⟩ := exists_parametersForm hread
        obtain ⟨written, hwritten, hsuffix⟩ := exists_suffixForm left
        rw [hwritten] at hparams hparams_eq
        rw [hparams_eq] at hnext
        refine ⟨_, ?_, .named hname ?_ hnext hparams hsuffix⟩
        · rw [List.append_assoc, List.append_assoc, ← hparams_eq, htext]
        · intro hc
          rw [List.head?_takeWhile] at hc
          exact hmarker (Option.mem_filter_iff.1 hc).1

theorem exists_form_of_read {marker : Char} {text rest : List Char} {phrase : Phrase}
    (h : read marker text = .ok (phrase, rest)) :
    ∃ written, text = written ++ rest ∧ PhraseForm marker written phrase rest := by
  unfold read at h
  split at h
  next => exact exists_form_of_readNamed (by simp) h
  next c text =>
    split at h
    next hc =>
      simp only [readEscape, Except.ok.injEq, Prod.mk.injEq] at h
      obtain ⟨rfl, rfl⟩ := h
      obtain ⟨written, hwritten, hsuffix⟩ := exists_suffixForm text
      rw [beq_iff_eq.1 hc]
      exact ⟨marker :: written, by simp [← hwritten], .escape hsuffix⟩
    next hc => exact exists_form_of_readNamed (by simpa using hc) h

/-- **The reader accepts what begins with a phrase**, and answers what the phrase
    says and the text behind it. -/
theorem read_eq_ok_iff {marker : Char} {text rest : List Char} {phrase : Phrase} :
    read marker text = .ok (phrase, rest) ↔
      ∃ written, text = written ++ rest ∧ PhraseForm marker written phrase rest := by
  constructor
  · exact exists_form_of_read
  · rintro ⟨written, rfl, hform⟩
    exact read_of_form hform

end Phrase

/-! ### At a marker -/

/-- The token of a phrase whose marker stands at `start`; `raw` is its text, the
    marker included. -/
def Token.placed (phrase : Phrase) (start : Position) (raw : List Char) : Token :=
  { phrase with start, stop := start.advanceAll raw, raw := String.ofList raw }

namespace Token

@[simp] theorem placed_toPhrase (phrase : Phrase) (start : Position) (raw : List Char) :
    (placed phrase start raw).toPhrase = phrase := rfl

@[simp] theorem placed_start (phrase : Phrase) (start : Position) (raw : List Char) :
    (placed phrase start raw).start = start := rfl

@[simp] theorem placed_after_stop (phrase : Phrase) (before raw : List Char) :
    (placed phrase (.after before) raw).stop = .after (before ++ raw) :=
  (Position.after_append before raw).symm

@[simp] theorem placed_raw (phrase : Phrase) (start : Position) (raw : List Char) :
    (placed phrase start raw).raw.toList = raw :=
  String.toList_ofList

end Token

theorem consumed_append_right (front behind : List Char) :
    consumed (front ++ behind) behind = front := by
  simp [consumed]

theorem bne_of_not_mem {marker : Char} {text : List Char} (h : marker ∉ text) :
    ∀ c ∈ text, (c != marker) = true := by
  intro c hc
  rw [bne_iff_ne]
  rintro rfl
  exact h hc

/-- Symbols other than the marker are passed over. -/
theorem takeWhile_bne_append {marker : Char} {gap : List Char} (h : marker ∉ gap)
    (body : List Char) : (gap ++ marker :: body).takeWhile (· != marker) = gap :=
  takeWhile_append_of_noneNext (bne_of_not_mem h) (.cons (by simp) body)

theorem dropWhile_bne_append {marker : Char} {gap : List Char} (h : marker ∉ gap)
    (body : List Char) :
    (gap ++ marker :: body).dropWhile (· != marker) = marker :: body :=
  dropWhile_append_of_noneNext (bne_of_not_mem h) (.cons (by simp) body)

/-- Where a symbol stands for the first time is one place. -/
theorem append_cons_inj_of_not_mem {c : Char} {a a' b b' : List Char} (ha : c ∉ a) (ha' : c ∉ a')
    (h : a ++ c :: b = a' ++ c :: b') : a = a' ∧ b = b' := by
  have hfront := congrArg (List.takeWhile (· != c)) h
  have hbehind := congrArg (List.dropWhile (· != c)) h
  rw [takeWhile_bne_append ha, takeWhile_bne_append ha'] at hfront
  rw [dropWhile_bne_append ha, dropWhile_bne_append ha'] at hbehind
  exact ⟨hfront, (List.cons.inj hbehind).2⟩

theorem exists_of_append_eq {c : Char} {front text gap body : List Char} (hfront : c ∉ front)
    (h : front ++ text = gap ++ c :: body) :
    ∃ more, gap = front ++ more ∧ text = more ++ c :: body := by
  rcases List.append_eq_append_iff.1 h with hmore | ⟨more, rfl, hmore⟩
  · exact hmore
  · cases more with
    | nil => exact ⟨[], by simp, by simpa using hmore.symm⟩
    | cons d more =>
      obtain rfl : c = d := (List.cons.inj hmore).1
      simp at hfront

theorem scanStep_of_not_mem {marker : Char} {text : List Char} (h : marker ∉ text)
    (position : Position) : scanStep marker position text = .finished := by
  have hdrop : (text ++ []).dropWhile (· != marker) = [] :=
    dropWhile_append_of_noneNext (bne_of_not_mem h) (by simp [NoneNext])
  rw [List.append_nil] at hdrop
  simp [scanStep, hdrop]

/-- A step goes to the first marker and reads the phrase behind it. -/
theorem scanStep_append {marker : Char} {gap : List Char} (hgap : marker ∉ gap)
    (position : Position) (body : List Char) :
    scanStep marker position (gap ++ marker :: body) =
      match Phrase.read marker body with
      | .ok (phrase, rest) =>
        .token (.placed phrase (position.advanceAll gap) (consumed (marker :: body) rest)) rest
      | .error (fault, rest) =>
        .failed (.ofFault marker (position.advanceAll gap)
          ((position.advanceAll gap).advanceAll (consumed (marker :: body) rest)) rest fault)
          rest := by
  simp only [scanStep, takeWhile_bne_append hgap, dropWhile_bne_append hgap]
  rcases Phrase.read marker body with ⟨fault, rest⟩ | ⟨phrase, rest⟩ <;> rfl

theorem scanStep_of_form {marker : Char} {gap written rest : List Char} {phrase : Phrase}
    (hgap : marker ∉ gap) (h : PhraseForm marker written phrase rest) (position : Position) :
    scanStep marker position (gap ++ marker :: (written ++ rest)) =
      .token (.placed phrase (position.advanceAll gap) (marker :: written)) rest := by
  rw [scanStep_append hgap, Phrase.read_of_form h]
  simp only [← List.cons_append, consumed_append_right]

theorem exists_form_of_scanStep {marker : Char} {position : Position} {text rest : List Char}
    {token : Token} (h : scanStep marker position text = .token token rest) :
    ∃ gap written phrase, marker ∉ gap ∧ text = gap ++ marker :: (written ++ rest) ∧
      PhraseForm marker written phrase rest ∧
      token = .placed phrase (position.advanceAll gap) (marker :: written) := by
  by_cases hmem : marker ∈ text
  · obtain ⟨gap, body, rfl, hgap⟩ := List.eq_append_cons_of_mem hmem
    rw [scanStep_append hgap] at h
    split at h
    next phrase rest' hread =>
      obtain ⟨written, rfl, hform⟩ := Phrase.exists_form_of_read hread
      simp only [ScanStep.token.injEq, ← List.cons_append, consumed_append_right] at h
      obtain ⟨rfl, rfl⟩ := h
      exact ⟨gap, written, phrase, hgap, rfl, hform, rfl⟩
    next => simp at h
  · rw [scanStep_of_not_mem hmem] at h
    simp at h

namespace Scanner

/-- At a marker the scanner reads the phrase behind it. -/
theorem scanToken_at_marker {s : Scanner} {text : List Char}
    (h : s.cursor.rest = s.marker :: text) :
    s.scanToken =
      match Phrase.read s.marker text with
      | .ok (phrase, rest) =>
        (.ok (some (.placed phrase s.cursor.position (consumed (s.marker :: text) rest))),
          s.skipTo rest)
      | .error (fault, rest) =>
        (.error (.ofFault s.marker s.cursor.position
          (s.cursor.position.advanceAll (consumed (s.marker :: text) rest)) rest fault),
          s.skipTo rest) := by
  have hstep : scanStep s.marker s.cursor.position ([] ++ s.marker :: text) = _ :=
    scanStep_append List.not_mem_nil s.cursor.position text
  rw [List.nil_append, Position.advanceAll_nil] at hstep
  rw [scanToken, h, hstep]
  rcases Phrase.read s.marker text with ⟨fault, rest⟩ | ⟨phrase, rest⟩ <;> rfl

theorem scanToken_of_form {s : Scanner} {written rest : List Char} {phrase : Phrase}
    (h : s.cursor.rest = s.marker :: (written ++ rest))
    (hform : PhraseForm s.marker written phrase rest) :
    s.scanToken =
      (.ok (some (.placed phrase s.cursor.position (s.marker :: written))),
        { s with cursor := s.cursor.moveOver (s.marker :: written) }) := by
  simp only [scanToken_at_marker h, Phrase.read_of_form hform, skipTo, h, ← List.cons_append,
    consumed_append_right]

/-- **A scanner at a marker takes a token exactly if a phrase of the grammar
    follows the marker**, and stands behind the phrase then; otherwise it answers
    an error.  The token says what the phrase says. -/
theorem scanToken_at_marker_iff (s : Scanner) {text : List Char}
    (h : s.cursor.rest = s.marker :: text) :
    (∀ token s', s.scanToken = (.ok (some token), s') ↔
      ∃ written phrase rest, text = written ++ rest ∧ PhraseForm s.marker written phrase rest ∧
        token = .placed phrase s.cursor.position (s.marker :: written) ∧
        s' = { s with cursor := s.cursor.restore token.stop } ∧ s'.cursor.rest = rest) ∧
    ((∃ error s', s.scanToken = (.error error, s')) ↔
      ¬ ∃ written phrase rest, text = written ++ rest ∧
        PhraseForm s.marker written phrase rest) := by
  constructor
  · intro token s'
    constructor
    · intro hscan
      cases hread : Phrase.read s.marker text with
      | error fault => simp [scanToken_at_marker h, hread] at hscan
      | ok answer =>
        obtain ⟨phrase, rest⟩ := answer
        obtain ⟨written, rfl, hform⟩ := Phrase.exists_form_of_read hread
        rw [scanToken_of_form h hform] at hscan
        simp only [Prod.mk.injEq, Except.ok.injEq, Option.some.injEq] at hscan
        obtain ⟨rfl, rfl⟩ := hscan
        exact ⟨written, phrase, rest, rfl, hform, rfl, rfl, Cursor.rest_moveOver h⟩
    · rintro ⟨written, phrase, rest, rfl, hform, rfl, rfl, _⟩
      exact scanToken_of_form h hform
  · constructor
    · rintro ⟨error, s', hscan⟩ ⟨written, phrase, rest, rfl, hform⟩
      simp [scanToken_of_form h hform] at hscan
    · intro hnone
      cases hread : Phrase.read s.marker text with
      | error fault => exact ⟨_, _, by rw [scanToken_at_marker h, hread]⟩
      | ok answer =>
        obtain ⟨written, htext, hform⟩ := Phrase.exists_form_of_read hread
        exact absurd ⟨written, _, _, htext, hform⟩ hnone

/-- A dotted name, blanks around the parenthesis, a bare argument with a marker in
    it, and a quoted one that holds its own quote. -/
theorem scanToken_at_marker_dotted :
    let text := ['a', '.', 'b', ' ', '(', 'x', '$', ' ', ',', '"', '\\', '"', '"', ')', ' ', ';',
      'z']
    (ofText '$' ('$' :: text)).cursor.rest = '$' :: text ∧
      ∃ token s', (ofText '$' ('$' :: text)).scanToken = (.ok (some token), s') ∧
        token.toPhrase = ⟨["a", "b"], ["x$", "\""], some ';', false⟩ ∧ s'.cursor.rest = ['z'] := by
  refine ⟨rfl, ?_⟩
  have hx : ArgumentForm ([] ++ (['x', '$'] ++ [' '])) (String.ofList ['x', '$']) :=
    .bare (by decide) (by simp) (by decide) (by decide) (by simp; decide) (by decide)
      (by simp [isBareArgument])
  have hquote : ArgumentForm ([] ++ '"' :: (['\\', '"'] ++ '"' :: [])) (String.ofList ['"']) :=
    .quoted (by decide) rfl (.escaped (.inl rfl) .empty) (by decide)
  have hparams : ParametersForm ([' '] ++ '(' :: (_ ++ [')'])) _ [' ', ';', 'z'] :=
    .list (by decide) (.more hx (.last hquote))
  have hsuffix : SuffixForm ([' '] ++ [';']) (some ';') ['z'] := .terminator (by decide) rfl
  have hname : NameForm ['a', '.', 'b'] [['a'], ['b']] :=
    ⟨by simp, by simp, by simp; decide, rfl⟩
  have hform := PhraseForm.named hname (by simp : '$' ∉ _) (by decide) hparams hsuffix
  exact ⟨_, _, ((scanToken_at_marker_iff _ rfl).1 _ _).2
    ⟨_, _, ['z'], rfl, hform, rfl, rfl, rfl⟩, rfl, rfl⟩

end Scanner

end StyleTemplate
