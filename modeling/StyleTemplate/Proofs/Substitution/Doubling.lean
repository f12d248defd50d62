/-
  **Doubled markers stand for themselves.**

  A text is kept from being read as placeholders by writing each of its markers
  twice (`doubled`).  Scanned again, every pair is an escape, so no source is
  asked and nothing can fail.  What comes back is the text, but the suffix of an
  escape takes in white space in front of a terminator and does not put it back:
  so the text returns unchanged exactly if no marker of it has white space and
  then a terminator behind it (`tightened_eq_self_iff`).
-/
import Mathlib.Data.Nat.Init
import StyleTemplate.Proofs.Substitution.Splicing
import StyleTemplate.Substitution.Basic

namespace StyleTemplate

/-! ### Doubling and tightening -/

/-- The text with each marker written twice. -/
def doubled (marker : Char) (text : List Char) : List Char :=
  text.flatMap fun c => if c = marker then [marker, marker] else [c]

/-- The text less the white space at its front, if a terminator follows that. -/
def closeUp (text : List Char) : List Char :=
  if (skipWhite text).head?.any isTerminator then skipWhite text else text

/-- The text less the white space between a marker and a terminator. -/
def tightened (marker : Char) : List Char → List Char
  | [] => []
  | c :: text =>
    if c = marker then c :: closeUp (tightened marker text) else c :: tightened marker text

variable {marker : Char}

@[simp] theorem doubled_append (a b : List Char) :
    doubled marker (a ++ b) = doubled marker a ++ doubled marker b :=
  List.flatMap_append

@[simp] theorem doubled_marker_cons (text : List Char) :
    doubled marker (marker :: text) = marker :: marker :: doubled marker text := by
  simp [doubled]

theorem doubled_cons_of_ne {c : Char} (h : c ≠ marker) (text : List Char) :
    doubled marker (c :: text) = c :: doubled marker text := by
  simp [doubled, h]

theorem doubled_of_not_mem {text : List Char} (h : marker ∉ text) : doubled marker text = text := by
  induction text with
  | nil => rfl
  | cons c text ih =>
    rw [List.mem_cons, not_or] at h
    rw [doubled_cons_of_ne (Ne.symm h.1), ih h.2]

@[simp] theorem tightened_marker_cons (text : List Char) :
    tightened marker (marker :: text) = marker :: closeUp (tightened marker text) := by
  simp [tightened]

theorem tightened_cons_of_ne {c : Char} (h : c ≠ marker) (text : List Char) :
    tightened marker (c :: text) = c :: tightened marker text := by
  simp [tightened, h]

theorem tightened_append_of_not_mem {front : List Char} (h : marker ∉ front) (text : List Char) :
    tightened marker (front ++ text) = front ++ tightened marker text := by
  induction front with
  | nil => rfl
  | cons c front ih =>
    rw [List.mem_cons, not_or] at h
    rw [List.cons_append, tightened_cons_of_ne (Ne.symm h.1), ih h.2, List.cons_append]

/-! ### The front of a doubled and of a tightened text

A suffix is decided by the first symbol, and by the first one that is not white
space.  Both functions leave these alone, because the marker is neither. -/

theorem head?_doubled (text : List Char) : (doubled marker text).head? = text.head? := by
  cases text with
  | nil => rfl
  | cons c text =>
    by_cases hc : c = marker
    · rw [hc, doubled_marker_cons, List.head?_cons, List.head?_cons]
    · rw [doubled_cons_of_ne hc, List.head?_cons, List.head?_cons]

theorem head?_tightened (text : List Char) : (tightened marker text).head? = text.head? := by
  cases text with
  | nil => rfl
  | cons c text => by_cases hc : c = marker <;> simp [tightened, hc]

theorem ne_of_isWhite {c : Char} (hwhite : isWhite marker = false) (hc : isWhite c = true) :
    c ≠ marker := by
  rintro rfl
  simp [hwhite] at hc

theorem skipWhite_cons_of_isWhite {c : Char} (h : isWhite c = true) (text : List Char) :
    skipWhite (c :: text) = skipWhite text := by
  simp [skipWhite, h]

theorem head?_skipWhite_congr {f : List Char → List Char}
    (hhead : ∀ text, (f text).head? = text.head?)
    (hwhite : ∀ c text, isWhite c = true → f (c :: text) = c :: f text) (text : List Char) :
    (skipWhite (f text)).head? = (skipWhite text).head? := by
  induction text with
  | nil =>
    have hnil : f [] = [] := by simpa using hhead []
    rw [hnil]
  | cons c text ih =>
    cases hc : isWhite c with
    | true => rw [hwhite c text hc, skipWhite_cons_of_isWhite hc, skipWhite_cons_of_isWhite hc, ih]
    | false =>
      have next : NoneNext isWhite (f (c :: text)) := by
        intro d hd
        rw [hhead] at hd
        exact NoneNext.cons hc text d hd
      rw [skipWhite_of_noneNext next, skipWhite_of_noneNext (.cons hc text), hhead]

theorem head?_skipWhite_doubled (hwhite : isWhite marker = false) (text : List Char) :
    (skipWhite (doubled marker text)).head? = (skipWhite text).head? := by
  apply head?_skipWhite_congr head?_doubled
  intro c text hc
  exact doubled_cons_of_ne (ne_of_isWhite hwhite hc) text

theorem head?_skipWhite_tightened (hwhite : isWhite marker = false) (text : List Char) :
    (skipWhite (tightened marker text)).head? = (skipWhite text).head? := by
  apply head?_skipWhite_congr head?_tightened
  intro c text hc
  exact tightened_cons_of_ne (ne_of_isWhite hwhite hc) text

/-! ### Suffixes of escapes -/

/-- Closing up a text keeps of its suffix what a replacement puts back. -/
theorem closeUp_of_form {written rest : List Char} {suffix : Option Char}
    (h : SuffixForm written suffix rest) : closeUp (written ++ rest) = suffix.toList ++ rest := by
  cases h with
  | @terminator blank c _ hblank hc =>
    have hskip := skipWhite_append_cons hblank (isWhite_of_isTerminator hc) rest
    rw [List.append_assoc, List.singleton_append, closeUp, hskip]
    simp [hc]
  | @white c _ hc next =>
    rw [noneBehindWhite_iff fun _ => isWhite_of_isTerminator] at next
    have hnone : (skipWhite rest).head?.any isTerminator = false :=
      (Option.any_eq_false _ _).2 next
    rw [List.singleton_append, closeUp, skipWhite_cons_of_isWhite hc, hnone]
    rfl
  | none white terminator =>
    have hnone : rest.head?.any isTerminator = false := (Option.any_eq_false _ _).2 terminator
    rw [List.nil_append, closeUp, skipWhite_of_noneNext white, hnone]
    rfl

/-! ### The scan of a doubled text -/

/-- Every token of a doubled text is an escape, and with the escapes collapsed the
    text is the tightened one.  The induction goes from a text to what stands behind
    the suffix of its first escape. -/
theorem exists_scanned_doubled (hwhite : isWhite marker = false)
    (hterminator : isTerminator marker = false) (text : List Char) (position : Position) :
    ∃ gaps tokens, Scanned marker position (doubled marker text) gaps tokens ∧
      (∀ token ∈ tokens, token.escape = true) ∧
      interleave gaps (tokens.map fun token => marker :: token.suffix.toList) =
        tightened marker text := by
  induction hlength : text.length using Nat.strong_induction_on generalizing text position with
  | _ length ih =>
    by_cases hmem : marker ∈ text
    · obtain ⟨gap, body, rfl, hgap⟩ := List.eq_append_cons_of_mem hmem
      obtain ⟨written, hbody, hsuffix⟩ := exists_suffixForm body
      generalize (readSuffix body).1 = suffix at hsuffix
      generalize (readSuffix body).2 = rest at hbody hsuffix
      subst hbody
      have hwritten := hsuffix.not_mem hwhite hterminator
      have hshorter : rest.length < length := by
        rw [← hlength]
        simp only [List.length_append, List.length_cons]
        omega
      obtain ⟨gaps, tokens, hscan, hescape, htext⟩ := ih rest.length hshorter rest
        ((position.advanceAll gap).advanceAll (marker :: marker :: written)) rfl
      have hform : PhraseForm marker (marker :: written) _ (doubled marker rest) :=
        .escape (hsuffix.congr (head?_doubled rest) (head?_skipWhite_doubled hwhite rest))
      have hdoubled : doubled marker (gap ++ marker :: (written ++ rest)) =
          gap ++ marker :: (marker :: written ++ doubled marker rest) := by
        simp [doubled_of_not_mem hgap, doubled_of_not_mem hwritten]
      have htight : SuffixForm written suffix (tightened marker rest) :=
        hsuffix.congr (head?_tightened rest) (head?_skipWhite_tightened hwhite rest)
      rw [hdoubled]
      refine ⟨_, _, .token hgap hform hscan, List.forall_mem_cons.2 ⟨rfl, hescape⟩, ?_⟩
      rw [List.map_cons, interleave, htext, tightened_append_of_not_mem hgap,
        tightened_marker_cons, tightened_append_of_not_mem hwritten, closeUp_of_form htight]
      rfl
    · refine ⟨[text], [], ?_, by simp, ?_⟩
      · rw [doubled_of_not_mem hmem]
        exact .finished hmem
      · have htight := tightened_append_of_not_mem hmem []
        simp only [List.append_nil, tightened] at htight
        simp [interleave, htight]

/-! ### What tightening leaves alone -/

/-- Whether no marker has white space and then a terminator behind it. -/
def Tight (marker : Char) (text : List Char) : Prop :=
  ∀ front blank c behind, text = front ++ marker :: (blank ++ c :: behind) →
    Blank blank → isTerminator c = true → blank = []

theorem closeUp_suffix (text : List Char) : closeUp text <:+ text := by
  unfold closeUp
  split
  · exact skipWhite_suffix text
  · exact List.suffix_refl text

theorem tightened_sublist (text : List Char) : (tightened marker text).Sublist text := by
  induction text with
  | nil => exact List.Sublist.slnil
  | cons c text ih =>
    unfold tightened
    split
    · exact ((closeUp_suffix _).sublist.trans ih).cons_cons c
    · exact ih.cons_cons c

theorem closeUp_eq_self_iff {text : List Char} :
    closeUp text = text ↔
      ∀ blank c behind, text = blank ++ c :: behind → Blank blank → isTerminator c = true →
        blank = [] := by
  constructor
  · rintro h blank c behind rfl hblank hc
    have hform : SuffixForm (blank ++ [c]) (some c) behind := .terminator hblank hc
    have hclose := closeUp_of_form hform
    rw [List.append_assoc, List.singleton_append, h] at hclose
    have hlength := congrArg List.length hclose
    simp only [Option.toList_some, List.length_append, List.length_cons, List.length_nil] at hlength
    exact List.length_eq_zero_iff.1 (by omega)
  · intro h
    obtain ⟨written, htext, hform⟩ := exists_suffixForm text
    rw [htext, closeUp_of_form hform]
    generalize (readSuffix text).1 = suffix at hform
    generalize (readSuffix text).2 = rest at htext hform
    cases hform with
    | @terminator blank c _ hblank hc =>
      rw [List.append_assoc] at htext
      rw [h blank c rest htext hblank hc]
      rfl
    | white => rfl
    | none => rfl

theorem tight_cons_of_ne {c : Char} (h : c ≠ marker) {text : List Char} :
    Tight marker (c :: text) ↔ Tight marker text := by
  constructor
  · intro htight front blank d behind htext
    apply htight (c :: front)
    rw [htext, List.cons_append]
  · intro htight front blank d behind htext
    cases front with
    | nil => exact absurd (List.cons.inj htext).1 h
    | cons e front => exact htight front blank d behind (List.cons.inj htext).2

theorem tight_marker_cons {text : List Char} :
    Tight marker (marker :: text) ↔ closeUp text = text ∧ Tight marker text := by
  rw [closeUp_eq_self_iff]
  constructor
  · intro htight
    refine ⟨fun blank d behind htext => ?_, fun front blank d behind htext => ?_⟩
    · apply htight [] blank d behind
      rw [htext, List.nil_append]
    · apply htight (marker :: front) blank d behind
      rw [htext, List.cons_append]
  · rintro ⟨hfirst, hmore⟩ front blank d behind htext
    cases front with
    | nil => exact hfirst blank d behind (List.cons.inj htext).2
    | cons e front => exact hmore front blank d behind (List.cons.inj htext).2

theorem tightened_eq_self_iff {text : List Char} :
    tightened marker text = text ↔ Tight marker text := by
  induction text with
  | nil => simp [tightened, Tight]
  | cons c text ih =>
    by_cases hc : c = marker
    · subst hc
      rw [tightened_marker_cons, tight_marker_cons, ← ih, List.cons.injEq]
      constructor
      · rintro ⟨-, h⟩
        -- closing up and tightening only take symbols away, so neither took any
        have hclose := (closeUp_suffix (tightened c text)).length_le
        rw [h] at hclose
        have hself := (tightened_sublist text).eq_of_length_le hclose
        exact ⟨by rwa [hself] at h, hself⟩
      · rintro ⟨hclose, hself⟩
        exact ⟨rfl, by rw [hself, hclose]⟩
    · rw [tightened_cons_of_ne hc, tight_cons_of_ne hc, ← ih, List.cons.injEq]
      simp

/-! ### One pass over escapes -/

variable {σ τ : Type} {p : Processor σ τ} {sources : List Source}

/-- Where all tokens are escapes, no function is called and nothing is reported. -/
theorem replaceAll_of_escapes {collapse : Bool} {tokens : List Token}
    (h : ∀ token ∈ tokens, token.escape = true) (text : List Char) (state : RunState σ τ) :
    ∃ out, p.replaceAll sources collapse tokens text state = (.ok out, state) := by
  induction tokens generalizing text with
  | nil => exact ⟨text, rfl⟩
  | cons token tokens ih =>
    obtain ⟨hfirst, hmore⟩ := List.forall_mem_cons.1 h
    cases collapse with
    | false =>
      simp only [Processor.replaceAll, hfirst, Bool.not_false, Bool.and_self, if_true]
      exact ih hmore text
    | true =>
      simp only [Processor.replaceAll, hfirst, Bool.not_true, Bool.and_false, Bool.false_eq_true,
        if_false, replacement?_of_escape hfirst]
      exact ih hmore _

theorem StandIns.eq_map_of_escapes {tokens : List Token} {before after : σ}
    {texts : List (List Char)} (h : StandIns p sources true tokens before texts after)
    (hescape : ∀ token ∈ tokens, token.escape = true) :
    texts = tokens.map fun token => p.options.marker :: token.suffix.toList := by
  induction h with
  | nil => rfl
  | cons _ hstandIn ih =>
    obtain ⟨hfirst, hmore⟩ := List.forall_mem_cons.1 hescape
    have htext := hstandIn.eq_of_escape hfirst
    rw [if_pos rfl] at htext
    rw [List.map_cons, ← ih hmore, htext]

/-- **A text with its markers doubled comes back as the text itself**, up to white
    space between a marker and a terminator, and just as it was if there is none.
    No function is called, and nothing is reported. -/
theorem substitute_doubled (p : Processor σ τ) (sources : List Source) {text : List Char}
    (hwhite : isWhite p.options.marker = false)
    (hterminator : isTerminator p.options.marker = false)
    (hnormal : normalize (doubled p.options.marker text) = doubled p.options.marker text)
    (state : RunState σ τ) :
    p.substitute sources (doubled p.options.marker text) state =
        (.ok (tightened p.options.marker text), state) ∧
      (tightened p.options.marker text = text ↔ Tight p.options.marker text) := by
  obtain ⟨gaps, tokens, hscan, hescape, htext⟩ :=
    exists_scanned_doubled hwhite hterminator text (.after [])
  have htokens : scanAll p.options.marker (normalize (doubled p.options.marker text)) =
      .ok tokens := by
    rw [hnormal]
    exact scanFrom_eq_ok_iff.2 ⟨gaps, hscan⟩
  have hescape' : ∀ token ∈ tokens.reverse, token.escape = true := by
    intro token htoken
    exact hescape token (List.mem_reverse.1 htoken)
  obtain ⟨out, hrun⟩ := @replaceAll_of_escapes _ _ p sources true _ hescape'
    (doubled p.options.marker text) state
  obtain ⟨texts, hstand, rfl⟩ := hscan.replaceAll_ok hrun
  refine ⟨?_, tightened_eq_self_iff⟩
  rw [Processor.substitute, pass_of_ok htokens, hnormal, hrun, hstand.eq_map_of_escapes hescape,
    htext, List.nil_append]

/-- Three markers in a row, one of them in front of a name and a parenthesis, one
    in front of white space alone, and one whose terminator closes up. -/
theorem substitute_doubled_runs :
    let p : Processor Unit (List Diagnostic) := {
      options := {}
      host := ⟨fun _ _ functions => (none, functions)⟩
      sink := .memory }
    let sources : List Source := [⟨none, [("a", .string "x")]⟩]
    let text := ['$', '$', '$', 'a', '(', '$', ' ', 'b', '$', '\t', ' ', ';']
    normalize (doubled '$' text) = doubled '$' text ∧
      p.substitute sources (doubled '$' text) ⟨(), []⟩ =
        (.ok ['$', '$', '$', 'a', '(', '$', ' ', 'b', '$', ';'], ⟨(), []⟩) := by
  intro p sources text
  have hnormal : normalize (doubled '$' text) = doubled '$' text := by
    decide +kernel
  have htight : tightened '$' text = ['$', '$', '$', 'a', '(', '$', ' ', 'b', '$', ';'] := by
    decide +kernel
  refine ⟨hnormal, ?_⟩
  rw [← htight]
  exact (substitute_doubled p sources (by decide) (by decide) hnormal ⟨(), []⟩).1

/-- The blank in front of the semicolon is lost. -/
theorem substitute_doubled_ne_self :
    let p : Processor Unit (List Diagnostic) := {
      options := {}
      host := ⟨fun _ _ functions => (none, functions)⟩
      sink := .memory }
    let text := ['$', ' ', ';']
    isWhite '$' = false ∧ isTerminator '$' = false ∧
      normalize (doubled '$' text) = doubled '$' text ∧
      p.substitute [] (doubled '$' text) ⟨(), []⟩ = (.ok ['$', ';'], ⟨(), []⟩) ∧
      p.substitute [] (doubled '$' text) ⟨(), []⟩ ≠ (.ok text, ⟨(), []⟩) := by
  intro p text
  have hrun : p.substitute [] (doubled '$' text) ⟨(), []⟩ = (.ok ['$', ';'], ⟨(), []⟩) := by
    decide +kernel
  refine ⟨by decide, by decide, by decide +kernel, hrun, ?_⟩
  rw [hrun]
  simp [text]

end StyleTemplate
