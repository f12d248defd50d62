/-
  **The forms of malformed placeholders.**

  Where no phrase can be read, something has been read all the same: a name, the start
  of an argument list, arguments up to one that is missing or not closed.  The forms
  here say what that is, and what stands at the place where reading stops, beside the
  grammar of what can be read.  Each fault has its form (`Phrase.exists_brokenForm`).

  Between a marker and the place of a fault there may be any number of whole arguments;
  the last of them decides what may stand there.  A bare argument goes on up to a comma,
  a parenthesis or the end of the text, so only behind a quoted one can anything else be
  found (`BrokenListForm.endsQuoted`).
-/
import StyleTemplate.Proofs.Token.Reading

namespace StyleTemplate

/-! ### The forms -/

/-- A quoted argument with the white space around it. -/
inductive QuotedArgumentForm : List Char → Prop where
  | intro {before after written value : List Char} {quote : Char} :
      Blank before → isQuote quote = true → QuotedForm quote written value → Blank after →
      QuotedArgumentForm (before ++ quote :: (written ++ quote :: after))

/-- One or more arguments, the last of which is quoted. -/
inductive EndsQuoted : List Char → Prop where
  | last {written : List Char} : QuotedArgumentForm written → EndsQuoted written
  | more {written others : List Char} {argument : String} :
      ArgumentForm written argument → EndsQuoted others → EndsQuoted (written ++ ',' :: others)

/-- No argument: white space with nothing behind it that one could start with, or a
    quote that is not closed, be it for a backslash at the end of the text. -/
inductive BrokenArgumentForm : List Char → ArgumentFault → List Char → Prop where
  | missing {before rest : List Char} :
      Blank before → NoneNext isBareArgument rest → BrokenArgumentForm before .missing rest
  | openQuote {before written value final : List Char} {quote : Char} :
      Blank before → isQuote quote = true → QuotedForm quote written value →
      final = [] ∨ final = ['\\'] →
      BrokenArgumentForm (before ++ quote :: (written ++ final)) .openQuote []

/-- Arguments, and then none, or no end of the list. -/
inductive BrokenListForm : List Char → ArgumentFault → List Char → Prop where
  | argument {written rest : List Char} {fault : ArgumentFault} :
      BrokenArgumentForm written fault rest → BrokenListForm written fault rest
  | quotedOpen {written rest : List Char} :
      QuotedArgumentForm written → (∀ c ∈ rest.head?, isWhite c = false ∧ isBareArgument c = true) →
      BrokenListForm written .openList rest
  | bareOpen {written : List Char} {argument : String} :
      ArgumentForm written argument → BrokenListForm written .openList []
  | more {written others rest : List Char} {argument : String} {fault : ArgumentFault} :
      ArgumentForm written argument → BrokenListForm others fault rest →
      BrokenListForm (written ++ ',' :: others) fault rest

/-- No phrase behind a marker: no name, a name with an empty segment, or a name with a
    broken argument list. -/
inductive BrokenForm (marker : Char) : List Char → Fault → List Char → Prop where
  | emptyName {rest : List Char} :
      marker ∉ rest.head? → NoneNext isNameSymbol rest → BrokenForm marker [] .emptyName rest
  | emptySegment {name rest : List Char} :
      (∀ c ∈ name, isNameSymbol c = true) → [] ∈ segments name → NoneNext isNameSymbol rest →
      BrokenForm marker name (.emptySegment (String.ofList name)) rest
  | arguments {name before written rest : List Char} {parts : List (List Char)}
      {fault : ArgumentFault} :
      NameForm name parts → Blank before → BrokenListForm written fault rest →
      BrokenForm marker (name ++ (before ++ '(' :: written))
        (.arguments (String.ofList name) fault) rest

/-! ### Single arguments -/

/-- Without a closing quote, the text is read to its end. -/
theorem exists_openQuote {quote : Char} {text : List Char} (h : readQuoted quote text = none) :
    ∃ written value final, text = written ++ final ∧ QuotedForm quote written value ∧
      (final = [] ∨ final = ['\\']) := by
  fun_induction readQuoted quote text with
  | case1 => exact ⟨[], [], [], rfl, .empty, .inl rfl⟩
  | case2 c text ih =>
    obtain ⟨written, value, final, rfl, hwritten, hfinal⟩ := ih (Option.map_eq_none_iff.1 h)
    by_cases hc : c = quote ∨ c = '\\'
    · exact ⟨'\\' :: c :: written, c :: value, final, rfl, .escaped hc hwritten, hfinal⟩
    · obtain ⟨hquote, hbackslash⟩ := not_or.1 hc
      exact ⟨'\\' :: c :: written, '\\' :: c :: value, final, rfl,
        .kept hquote hbackslash hwritten, hfinal⟩
  | case3 => simp at h
  | case4 c text hpair hc ih =>
    obtain ⟨written, value, final, rfl, hwritten, hfinal⟩ := ih (Option.map_eq_none_iff.1 h)
    by_cases hbackslash : c = '\\'
    · -- a backslash that is no pair is the last symbol
      subst hbackslash
      cases hrest : written ++ final with
      | nil => exact ⟨[], [], ['\\'], by simp, .empty, .inr rfl⟩
      | cons d more => exact absurd hrest (hpair d more rfl)
    · have hquote : c ≠ quote := by simpa using hc
      exact ⟨c :: written, c :: value, final, rfl, .symbol hquote hbackslash hwritten, hfinal⟩

/-- A run of symbols of an argument that is empty once trimmed was empty before, as it
    does not start with white space. -/
theorem isBareArgument_of_trimEnd_eq_nil {c : Char} {behind : List Char} (hwhite : isWhite c = false)
    (h : trimEnd ((c :: behind).takeWhile isBareArgument) = []) : isBareArgument c = false := by
  cases hc : isBareArgument c with
  | false => rfl
  | true =>
    obtain ⟨after, hafter, htrim, -⟩ :=
      exists_trimEnd_append ((c :: behind).takeWhile isBareArgument)
    rw [h, List.nil_append, List.takeWhile_cons_of_pos hc] at htrim
    have hblank := hafter c (htrim ▸ List.mem_cons_self)
    simp [hwhite] at hblank

theorem exists_brokenArgumentForm {text rest : List Char} {fault : ArgumentFault}
    (h : readArgument text = .error (fault, rest)) :
    ∃ written, text = written ++ rest ∧ BrokenArgumentForm written fault rest := by
  obtain ⟨before, hbefore, heq⟩ := exists_blank_append_skipWhite text
  have hstart := noneNext_dropWhile isWhite text
  rw [← skipWhite] at hstart
  unfold readArgument at h
  split at h
  next hskip =>
    simp only [Except.error.injEq, Prod.mk.injEq] at h
    obtain ⟨rfl, rfl⟩ := h
    exact ⟨before, by rw [heq, hskip], .missing hbefore (by simp [NoneNext])⟩
  next c behind hskip =>
    rw [hskip] at heq hstart
    split at h
    next hquote =>
      split at h
      next => simp at h
      next hread =>
        simp only [Except.error.injEq, Prod.mk.injEq] at h
        obtain ⟨rfl, rfl⟩ := h
        obtain ⟨written, value, final, rfl, hwritten, hfinal⟩ := exists_openQuote hread
        exact ⟨_, by rw [heq, List.append_nil], .openQuote hbefore hquote hwritten hfinal⟩
    next =>
      dsimp only at h
      split at h
      next hempty =>
        simp only [Except.error.injEq, Prod.mk.injEq] at h
        obtain ⟨rfl, rfl⟩ := h
        have hc := isBareArgument_of_trimEnd_eq_nil hstart.of_cons (by simpa using hempty)
        rw [List.dropWhile_cons_of_neg (by simp [hc])]
        exact ⟨before, heq, .missing hbefore (.cons hc behind)⟩
      next => simp at h

/-- Behind an argument, and white space, something other than a comma or a closing
    parenthesis is found only if the argument is quoted. -/
theorem quotedArgumentForm_or_noneNext {text left : List Char} {argument : String}
    (h : readArgument text = .ok (argument, left)) :
    (∃ written, text = written ++ skipWhite left ∧ QuotedArgumentForm written) ∨
      NoneNext isBareArgument (skipWhite left) := by
  obtain ⟨before, hbefore, heq⟩ := exists_blank_append_skipWhite text
  unfold readArgument at h
  split at h
  next => simp at h
  next c behind hskip =>
    rw [hskip] at heq
    split at h
    next hquote =>
      split at h
      next body rest hread =>
        simp only [Except.ok.injEq, Prod.mk.injEq] at h
        obtain ⟨rfl, rfl⟩ := h
        obtain ⟨written, rfl, hbody⟩ := exists_quotedForm hread
        obtain ⟨after, hafter, hrest⟩ := exists_blank_append_skipWhite rest
        refine .inl ⟨_, ?_, .intro hbefore hquote hbody hafter⟩
        rw [heq]
        simp only [List.append_assoc, List.cons_append, ← hrest]
      next => simp at h
    next =>
      dsimp only at h
      split at h
      next => simp at h
      next =>
        simp only [Except.ok.injEq, Prod.mk.injEq] at h
        obtain ⟨-, rfl⟩ := h
        have hrest := noneNext_dropWhile isBareArgument (c :: behind)
        have hskip' := skipWhite_of_noneNext fun d hd =>
          isWhite_of_not_isBareArgument (hrest d hd)
        rw [hskip']
        exact .inr hrest

/-! ### Argument lists -/

theorem exists_brokenListForm {text rest : List Char} {fault : ArgumentFault}
    (h : readArguments text = .error (fault, rest)) :
    ∃ written, text = written ++ rest ∧ BrokenListForm written fault rest := by
  fun_induction readArguments text generalizing fault rest with
  | case1 text fault' rest' hread =>
    simp only [Except.error.injEq, Prod.mk.injEq] at h
    obtain ⟨rfl, rfl⟩ := h
    obtain ⟨written, htext, hwritten⟩ := exists_brokenArgumentForm hread
    exact ⟨written, htext, .argument hwritten⟩
  | case2 => simp at h
  | case3 text argument left hread behind hskip e hmore ih =>
    simp only [Except.error.injEq] at h
    subst h
    obtain ⟨others, rfl, hothers⟩ := ih hmore
    obtain ⟨written, rfl, hargument⟩ := exists_argumentForm hread
    exact ⟨written ++ ',' :: others, by simp [hskip], .more hargument hothers⟩
  | case4 => simp at h
  | case5 text argument left hread hcomma hclose =>
    simp only [Except.error.injEq, Prod.mk.injEq] at h
    obtain ⟨rfl, rfl⟩ := h
    have hbare : ∀ c ∈ (skipWhite left).head?, isBareArgument c = true := by
      intro c hc
      cases hleft : skipWhite left with
      | nil => simp [hleft] at hc
      | cons d behind =>
        rw [hleft, List.head?_cons, Option.mem_def, Option.some.injEq] at hc
        subst hc
        have hd : d ≠ ',' := fun heq => hcomma behind (heq ▸ hleft)
        have hd' : d ≠ ')' := fun heq => hclose behind (heq ▸ hleft)
        simp [isBareArgument, hd, hd']
    rcases quotedArgumentForm_or_noneNext hread with ⟨written, rfl, hquoted⟩ | hnone
    · have hwhite := noneNext_dropWhile isWhite left
      exact ⟨written, rfl, .quotedOpen hquoted fun c hc => ⟨hwhite c hc, hbare c hc⟩⟩
    · obtain ⟨written, htext, hargument⟩ := exists_argumentForm hread
      have hend : skipWhite left = [] := by
        cases hleft : skipWhite left with
        | nil => rfl
        | cons d behind =>
          rw [hleft] at hnone hbare
          have hd := hbare d rfl
          simp [hnone.of_cons] at hd
      rw [hend] at htext ⊢
      exact ⟨written, htext, .bareOpen hargument⟩

/-- What stands in the way of the end of a list stands behind a quoted argument. -/
theorem BrokenListForm.endsQuoted {written rest : List Char} {fault : ArgumentFault}
    (h : BrokenListForm written fault rest) (hfault : fault = .openList) :
    ∀ c ∈ rest.head?, isWhite c = false ∧ isBareArgument c = true ∧ EndsQuoted written := by
  induction h with
  | argument hargument => cases hargument <;> simp at hfault
  | quotedOpen hquoted hrest =>
    intro c hc
    exact ⟨(hrest c hc).1, (hrest c hc).2, .last hquoted⟩
  | bareOpen => simp
  | more hargument _ ih =>
    intro c hc
    obtain ⟨hwhite, hbare, hothers⟩ := ih hfault c hc
    exact ⟨hwhite, hbare, .more hargument hothers⟩

theorem BrokenListForm.rest_of_missing {written rest : List Char} {fault : ArgumentFault}
    (h : BrokenListForm written fault rest) (hfault : fault = .missing) :
    NoneNext isBareArgument rest := by
  induction h with
  | argument hargument =>
    cases hargument with
    | missing _ hrest => exact hrest
    | openQuote => simp at hfault
  | quotedOpen | bareOpen => simp at hfault
  | more _ _ ih => exact ih hfault

theorem BrokenListForm.rest_of_openQuote {written rest : List Char} {fault : ArgumentFault}
    (h : BrokenListForm written fault rest) (hfault : fault = .openQuote) : rest = [] := by
  induction h with
  | argument hargument =>
    cases hargument with
    | missing => simp at hfault
    | openQuote => rfl
  | quotedOpen | bareOpen => simp at hfault
  | more _ _ ih => exact ih hfault

theorem BrokenListForm.blank_append {blank written rest : List Char} {fault : ArgumentFault}
    (hblank : Blank blank) (h : BrokenListForm written fault rest) :
    BrokenListForm (blank ++ written) fault rest := by
  cases h with
  | argument hargument =>
    refine .argument ?_
    cases hargument with
    | missing hbefore hrest => exact .missing (hblank.append hbefore) hrest
    | openQuote hbefore hquote hwritten hfinal =>
      rw [← List.append_assoc]
      exact .openQuote (hblank.append hbefore) hquote hwritten hfinal
  | quotedOpen hquoted hrest =>
    refine .quotedOpen ?_ hrest
    obtain ⟨hbefore, hquote, hbody, hafter⟩ := hquoted
    rw [← List.append_assoc]
    exact .intro (hblank.append hbefore) hquote hbody hafter
  | bareOpen hargument => exact .bareOpen (hargument.blank_append hblank)
  | more hargument hothers =>
    rw [← List.append_assoc]
    exact .more (hargument.blank_append hblank) hothers

/-! ### Phrases -/

theorem exists_brokenListForm_of_readParameters {text rest : List Char} {fault : ArgumentFault}
    (h : readParameters text = .error (fault, rest)) :
    ∃ before written, text = before ++ '(' :: (written ++ rest) ∧ Blank before ∧
      BrokenListForm written fault rest := by
  obtain ⟨before, hbefore, heq⟩ := exists_blank_append_skipWhite text
  unfold readParameters at h
  split at h
  next inside hskip =>
    obtain ⟨blank, hblank, heq'⟩ := exists_blank_append_skipWhite inside
    rw [hskip] at heq
    split at h
    next => simp at h
    next =>
      obtain ⟨written, hwritten, hlist⟩ := exists_brokenListForm h
      rw [hwritten] at heq'
      exact ⟨before, blank ++ written, by rw [heq, heq', List.append_assoc], hbefore,
        hlist.blank_append hblank⟩
  next => simp at h

namespace Phrase

theorem exists_brokenForm_of_readNamed {marker : Char} {text rest : List Char} {fault : Fault}
    (hmarker : marker ∉ text.head?) (h : readNamed text = .error (fault, rest)) :
    ∃ written, text = written ++ rest ∧ BrokenForm marker written fault rest := by
  have hall : ∀ c ∈ text.takeWhile isNameSymbol, isNameSymbol c = true :=
    fun c hc => List.all_eq_true.1 List.all_takeWhile c hc
  have hnext := noneNext_dropWhile isNameSymbol text
  have htext := List.takeWhile_append_dropWhile (p := isNameSymbol) (l := text)
  unfold readNamed at h
  dsimp only at h
  split at h
  next hempty =>
    simp only [Except.error.injEq, Prod.mk.injEq] at h
    obtain ⟨rfl, rfl⟩ := h
    have hname : text.takeWhile isNameSymbol = [] := by simpa using hempty
    rw [hname, List.nil_append] at htext
    rw [htext] at hnext ⊢
    exact ⟨[], rfl, .emptyName hmarker hnext⟩
  next =>
    split at h
    next hparts =>
      simp only [Except.error.injEq, Prod.mk.injEq] at h
      obtain ⟨rfl, rfl⟩ := h
      exact ⟨_, htext.symm, .emptySegment hall (by simpa using hparts) hnext⟩
    next hparts =>
      split at h
      next fault' rest' hread =>
        simp only [Except.error.injEq, Prod.mk.injEq] at h
        obtain ⟨rfl, rfl⟩ := h
        have hname := nameForm_segments hall (by simpa using hparts)
        obtain ⟨before, written, hparams, hbefore, hlist⟩ :=
          exists_brokenListForm_of_readParameters hread
        refine ⟨_, ?_, .arguments hname hbefore hlist⟩
        rw [hparams] at htext
        simpa using htext.symm
      next => simp at h

/-- **Where no phrase can be read, the text has the form of the fault** up to where
    reading stops. -/
theorem exists_brokenForm {marker : Char} {text rest : List Char} {fault : Fault}
    (h : read marker text = .error (fault, rest)) :
    ∃ written, text = written ++ rest ∧ BrokenForm marker written fault rest := by
  unfold read at h
  split at h
  next => exact exists_brokenForm_of_readNamed (by simp) h
  next c text =>
    split at h
    next => simp at h
    next hc => exact exists_brokenForm_of_readNamed (by simpa using hc) h

end Phrase

end StyleTemplate
