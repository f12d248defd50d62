/-
  **A phrase with another text behind it.**

  A phrase that ends with a terminator, or has its parameters written down, says
  the same in front of any text.  Otherwise its name must not go on there, and no
  parameter list must be opened.  Then the suffix is all that can change, since it
  may draw in what stands in front of the new text (`PhraseForm.exists_drawn`).
-/
import StyleTemplate.Proofs.Token.Reading

namespace StyleTemplate

/-! ### What a suffix draws in -/

/-- `Drawn rest cut`: what a suffix may draw in from another text, where it ended
    in front of `rest` before. -/
inductive Drawn (rest : List Char) : List Char → Prop where
  | nothing : Drawn rest []
  | terminator {blank : List Char} {c : Char} : NoneBehindWhite isTerminator rest →
      Blank blank → isTerminator c = true → Drawn rest (blank ++ [c])
  | white {c : Char} : NoneNext isWhite rest → isWhite c = true → Drawn rest [c]

theorem SuffixForm.exists_drawn {written rest : List Char} {suffix : Option Char}
    (h : SuffixForm written suffix rest) (other : List Char) :
    ∃ cut behind suffix', other = cut ++ behind ∧ Drawn rest cut ∧
      SuffixForm (written ++ cut) suffix' behind := by
  obtain ⟨cut, heq, hcut⟩ := exists_suffixForm other
  generalize readSuffix other = read at heq hcut
  obtain ⟨suffix', behind⟩ := read
  cases h with
  | terminator hblank hc =>
    exact ⟨[], other, _, rfl, .nothing, by simpa using SuffixForm.terminator hblank hc⟩
  | @white c _ hc next =>
    -- one white space symbol is enough, so that only a terminator is drawn in
    cases hcut with
    | @terminator blank d _ hblank hd =>
      have hblank' : Blank (c :: blank) := List.forall_mem_cons.2 ⟨hc, hblank⟩
      exact ⟨blank ++ [d], behind, some d, heq, .terminator next hblank hd,
        .terminator hblank' hd⟩
    | white hd next' =>
      refine ⟨[], other, some c, rfl, .nothing, .white hc ?_⟩
      rw [heq]
      exact next'.cons_of_white (fun _ => isWhite_of_isTerminator) hd
    | none white terminator =>
      refine ⟨[], other, some c, rfl, .nothing, .white hc ?_⟩
      rw [heq]
      exact noneBehindWhite_of_noneNext white terminator
  | none white terminator =>
    refine ⟨cut, _, _, heq, ?_, hcut⟩
    cases hcut with
    | terminator hblank hc =>
      exact .terminator (noneBehindWhite_of_noneNext white terminator) hblank hc
    | white hc => exact .white white hc
    | none => exact .nothing

/-! ### What ends a phrase -/

/-- Whether a phrase that is written like this, and has this suffix, ends in front of
    the text: nothing there goes on with its name or opens a parameter list. -/
def EndsBefore (written : List Char) (suffix : Option Char) (text : List Char) : Prop :=
  '(' ∈ written ∨ suffix.any isTerminator = true ∨
    NoneBehindWhite (· == '(') text ∧ (suffix = none → NoneNext isNameSymbol text)

instance (text : List Char) : Decidable (NoneBehindWhite (· == '(') text) :=
  decidable_of_iff _ (noneBehindWhite_iff fun _ => isWhite_of_eq_openParen).symm

instance (written : List Char) (suffix : Option Char) (text : List Char) :
    Decidable (EndsBefore written suffix text) :=
  inferInstanceAs (Decidable (_ ∨ _ ∨ _ ∧ (_ → _)))

/-- A name without parameters, and without a terminator behind it. -/
theorem NameForm.ends {name written rest other : List Char} {segments : List (List Char)}
    {suffix : Option Char} (hname : NameForm name segments) (h : SuffixForm written suffix rest)
    (hopen : ¬ suffix.any isTerminator = true) (hends : EndsBefore (name ++ written) suffix other) :
    NoneNext isNameSymbol (written ++ other) ∧ NoneBehindWhite (· == '(') (written ++ other) := by
  obtain ⟨hlist, hsymbol⟩ : NoneBehindWhite (· == '(') other ∧
      (suffix = none → NoneNext isNameSymbol other) := by
    rcases hends with hparen | hclosed | hends
    · rcases List.mem_append.1 hparen with hparen | hparen
      · exact absurd (hname.isNameSymbol_of_mem _ hparen) (by decide)
      · exact absurd hparen (h.not_mem (by decide) (by decide))
    · exact absurd hclosed hopen
    · exact hends
  cases h with
  | terminator _ hc => exact absurd hc (by simpa using hopen)
  | white hc =>
    exact ⟨.cons (isNameSymbol_of_isWhite hc) other,
      hlist.cons_of_white (fun _ => isWhite_of_eq_openParen) hc⟩
  | none => exact ⟨hsymbol rfl, hlist⟩

/-- **A phrase that ends in front of another text is read there, too**, and says the
    same but for its suffix. -/
theorem PhraseForm.exists_drawn {marker : Char} {written rest other : List Char} {phrase : Phrase}
    (h : PhraseForm marker written phrase rest) (hescape : phrase.escape = false)
    (hends : EndsBefore written phrase.suffix other) :
    ∃ cut behind suffix', other = cut ++ behind ∧ Drawn rest cut ∧
      PhraseForm marker (written ++ cut) { phrase with suffix := suffix' } behind := by
  by_cases hclosed : phrase.suffix.any isTerminator = true
  · exact ⟨[], other, phrase.suffix, rfl, .nothing, by simpa using h.of_terminator hclosed other⟩
  · cases h with
    | escape => simp at hescape
    | @named name params written segments args suffix _ hname hmarker next hparams hsuffix =>
      obtain ⟨cut, behind, suffix', rfl, hdrawn, hsuffix'⟩ := hsuffix.exists_drawn other
      obtain ⟨next', hparams'⟩ :
          NoneNext isNameSymbol (params ++ (written ++ cut ++ behind)) ∧
            ParametersForm params args (written ++ cut ++ behind) := by
        rw [List.append_assoc]
        cases hparams with
        | none =>
          obtain ⟨hsymbol, hlist⟩ := hname.ends hsuffix hclosed hends
          exact ⟨hsymbol, .none hlist⟩
        | empty hbefore hinside =>
          exact ⟨next.append_of_ne_nil (by simp) _, .empty hbefore hinside⟩
        | list hbefore hargs =>
          exact ⟨next.append_of_ne_nil (by simp) _, .list hbefore hargs⟩
      refine ⟨cut, behind, suffix', rfl, hdrawn, ?_⟩
      simpa using PhraseForm.named hname hmarker next' hparams' hsuffix'

end StyleTemplate
