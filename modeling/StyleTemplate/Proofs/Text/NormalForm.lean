/-
  **A normal form is its own normal form.**

  Taking the composed text apart and ordering its marks gives back what it was composed
  of (`reorder_decompose_compose`).  A composite is taken apart into its parts again;
  its second part then stands in front of the marks that it has passed over, and moves
  back behind them, since they are of smaller classes (`settle_comm`).  So texts with
  the same decomposition are told apart by nothing that normalizing keeps, and
  normalizing twice is normalizing once (`normalize_idem`).
-/
import Mathlib.Data.List.Chain
import StyleTemplate.Proofs.Text.CompositionTable

namespace StyleTemplate

/-! ### Marks in order -/

/-- Whether two neighbours keep their places when marks are brought into order. -/
def InPlace (c d : Char) : Prop :=
  combiningClass d = 0 ∨ combiningClass c ≤ combiningClass d

/-- Whether the marks of a text are in order. -/
def MarksOrdered (text : List Char) : Prop :=
  text.IsChain InPlace

theorem InPlace.trans {c d e : Char} (h : InPlace c d) (h' : InPlace d e)
    (hd : combiningClass d ≠ 0) : InPlace c e := by
  unfold InPlace at *
  omega

theorem settle_of_inPlace {c : Char} {text : List Char} (h : ∀ d ∈ text.head?, InPlace c d) :
    settle c text = c :: text := by
  cases text with
  | nil => rfl
  | cons d text =>
    have hd := h d rfl
    unfold InPlace at hd
    rw [settle, if_neg (by omega)]

theorem MarksOrdered.reorder_eq {text : List Char} (h : MarksOrdered text) :
    reorder text = text := by
  induction text with
  | nil => rfl
  | cons c text ih =>
    rw [MarksOrdered, List.isChain_cons] at h
    rw [reorder, List.foldr_cons, ← reorder, ih h.2, settle_of_inPlace h.1]

theorem MarksOrdered.settle {text : List Char} (h : MarksOrdered text) (c : Char) :
    MarksOrdered (settle c text) := by
  induction text with
  | nil => simp [MarksOrdered, StyleTemplate.settle]
  | cons d text ih =>
    rw [MarksOrdered, List.isChain_cons] at h
    rw [StyleTemplate.settle]
    split
    next hmoves =>
      rw [MarksOrdered, List.isChain_cons]
      refine ⟨?_, ih h.2⟩
      intro e he
      -- what comes behind `d` now is `c`, or what came behind it before
      cases text with
      | nil =>
        obtain rfl : c = e := by simpa [StyleTemplate.settle] using he
        exact .inr (by omega)
      | cons e' text =>
        rw [StyleTemplate.settle] at he
        split at he
        · obtain rfl : e' = e := by simpa using he
          exact h.1 e' rfl
        · obtain rfl : c = e := by simpa using he
          exact .inr (by omega)
    next hstays =>
      rw [MarksOrdered, List.isChain_cons, List.isChain_cons]
      refine ⟨?_, h⟩
      intro e he
      obtain rfl : d = e := by simpa using he
      unfold InPlace
      omega

theorem marksOrdered_reorder (text : List Char) : MarksOrdered (reorder text) := by
  induction text with
  | nil => simp [MarksOrdered, reorder]
  | cons c text ih => exact ih.settle c

/-! ### Moving over marks -/

/-- A symbol may be put in front before or behind a mark of a smaller class. -/
theorem settle_comm {mark c : Char} (hmark : 0 < combiningClass mark)
    (hlt : combiningClass mark < combiningClass c) (text : List Char) :
    settle c (settle mark text) = settle mark (settle c text) := by
  induction text with
  | nil =>
    have hstays : ¬ (0 < combiningClass c ∧ combiningClass c < combiningClass mark) := by omega
    simp only [settle]
    rw [if_pos ⟨hmark, hlt⟩, if_neg hstays]
  | cons d text ih =>
    by_cases hd : 0 < combiningClass d ∧ combiningClass d < combiningClass mark
    · have hd' : 0 < combiningClass d ∧ combiningClass d < combiningClass c := by omega
      rw [settle, if_pos hd, settle, if_pos hd', ih, settle, if_pos hd', settle, if_pos hd]
    · rw [settle, if_neg hd, settle, if_pos ⟨hmark, hlt⟩]
      by_cases hd' : 0 < combiningClass d ∧ combiningClass d < combiningClass c
      · rw [settle, if_pos hd', settle, if_neg hd]
      · rw [settle, if_neg hd', settle, if_neg (by omega)]

theorem foldr_settle_comm {marks : List Char} {c : Char}
    (h : ∀ mark ∈ marks, 0 < combiningClass mark ∧ combiningClass mark < combiningClass c)
    (text : List Char) :
    settle c (marks.foldr settle text) = marks.foldr settle (settle c text) := by
  induction marks with
  | nil => rfl
  | cons mark marks ih =>
    obtain ⟨⟨hmark, hlt⟩, hmore⟩ := List.forall_mem_cons.1 h
    rw [List.foldr_cons, List.foldr_cons, settle_comm hmark hlt, ih hmore]

theorem reorder_foldr (front text : List Char) :
    reorder (front ++ text) = front.foldr settle (reorder text) :=
  List.foldr_append

/-! ### Taking the composed text apart -/

/-- Whether no symbol of a text can be taken apart. -/
def Decomposed (text : List Char) : Prop :=
  ∀ c ∈ text, decomposeSymbol c = [c]

theorem Decomposed.decompose_eq {text : List Char} (h : Decomposed text) :
    decompose text = text := by
  induction text with
  | nil => rfl
  | cons c text ih =>
    obtain ⟨hc, hmore⟩ := List.forall_mem_cons.1 h
    rw [decompose, List.flatMap_cons, hc, ← decompose, ih hmore]
    rfl

theorem Decomposed.reverse {text : List Char} (h : Decomposed text) : Decomposed text.reverse := by
  intro c hc
  exact h c (List.mem_reverse.1 hc)

theorem decomposed_decompose (text : List Char) : Decomposed (decompose text) := by
  intro d hd
  obtain ⟨c, _, hmem⟩ := List.mem_flatMap.1 hd
  exact decomposeSymbol_of_mem hmem

theorem mem_settle {c d : Char} {text : List Char} : d ∈ settle c text ↔ d = c ∨ d ∈ text := by
  induction text with
  | nil => simp [settle]
  | cons e text ih =>
    rw [settle]
    split
    · simp only [List.mem_cons, ih]
      tauto
    · simp

theorem mem_reorder {d : Char} {text : List Char} : d ∈ reorder text ↔ d ∈ text := by
  induction text with
  | nil => rfl
  | cons c text ih => rw [reorder, List.foldr_cons, ← reorder, mem_settle, ih, List.mem_cons]

theorem decompose_cons (c : Char) (text : List Char) :
    decompose (c :: text) = decomposeSymbol c ++ decompose text :=
  List.flatMap_cons

/-- Whether some marks, the last one first, stand in order in front of a text: each is
    of a class other than zero, the last is of the greatest, and no symbol of the text
    moves over it. -/
structure PassedOver (marks text : List Char) : Prop where
  marked : ∀ mark ∈ marks, 0 < combiningClass mark
  greatest : ∀ last ∈ marks.head?, ∀ mark ∈ marks, combiningClass mark ≤ combiningClass last
  ordered : ∀ last ∈ marks.head?, ∀ c ∈ text.head?, InPlace last c

namespace PassedOver

variable {marks text : List Char} {c : Char}

theorem nil (text : List Char) : PassedOver [] text :=
  ⟨by simp, by simp, by simp⟩

/-- A mark that is not composed is passed over, too. -/
theorem cons (h : PassedOver marks (c :: text)) (hc : combiningClass c ≠ 0)
    (hordered : MarksOrdered (c :: text)) : PassedOver (c :: marks) text := by
  rw [MarksOrdered, List.isChain_cons] at hordered
  have hlast : ∀ mark ∈ marks, combiningClass mark ≤ combiningClass c := by
    intro mark hmark
    obtain ⟨last, hlast⟩ := Option.ne_none_iff_exists'.1 (List.head?_eq_none_iff.not.2
      (List.ne_nil_of_mem hmark))
    have hgreatest := h.greatest last hlast mark hmark
    have hplace := (h.ordered last hlast c rfl).resolve_left hc
    omega
  constructor
  · exact List.forall_mem_cons.2 ⟨Nat.pos_of_ne_zero hc, h.marked⟩
  · intro last hhead
    obtain rfl : c = last := by simpa using hhead
    exact List.forall_mem_cons.2 ⟨Nat.le_refl _, hlast⟩
  · intro last hhead d hd
    obtain rfl : c = last := by simpa using hhead
    exact hordered.1 d hd

/-- What is composed with a starter is of a greater class than the marks between. -/
theorem lt_of_not_cutOff (h : PassedOver marks text)
    (hcut : (marks.head?.any fun mark => combiningClass c ≤ combiningClass mark) = false) :
    ∀ mark ∈ marks, 0 < combiningClass mark ∧ combiningClass mark < combiningClass c := by
  intro mark hmark
  obtain ⟨last, hlast⟩ := Option.ne_none_iff_exists'.1 (List.head?_eq_none_iff.not.2
    (List.ne_nil_of_mem hmark))
  have hgreatest := h.greatest last hlast mark hmark
  have hlt : combiningClass last < combiningClass c := by simpa [hlast] using hcut
  exact ⟨h.marked mark hmark, by omega⟩

/-- The marks stay in order when a symbol behind them goes into the starter. -/
theorem tail (h : PassedOver marks (c :: text)) (hordered : MarksOrdered (c :: text))
    (hlt : ∀ mark ∈ marks, 0 < combiningClass mark ∧ combiningClass mark < combiningClass c) :
    PassedOver marks text := by
  rw [MarksOrdered, List.isChain_cons] at hordered
  refine ⟨h.marked, h.greatest, ?_⟩
  intro last hlast d hd
  have hc : combiningClass c ≠ 0 := by
    have hbelow := (hlt last (List.mem_of_mem_head? hlast)).2
    omega
  exact (h.ordered last hlast c rfl).trans (hordered.1 d hd) hc

end PassedOver

theorem reorder_decompose_composeOnto {starter : Char} {marks text : List Char}
    (hpassed : PassedOver marks text) (hmarks : Decomposed marks) (htext : Decomposed text)
    (hordered : MarksOrdered text) :
    reorder (decompose (composeOnto starter marks text)) =
      reorder (decomposeSymbol starter ++ (marks.reverse ++ text)) := by
  induction text generalizing starter marks with
  | nil => rw [composeOnto, decompose_cons, hmarks.reverse.decompose_eq, List.append_nil]
  | cons c text ih =>
    obtain ⟨hc, hmore⟩ := List.forall_mem_cons.1 htext
    have htail : MarksOrdered text := (List.isChain_cons.1 hordered).2
    rw [composeOnto]
    split
    next whole hwhole =>
      obtain ⟨hcut, hcomposite⟩ : (marks.head?.any fun mark =>
          combiningClass c ≤ combiningClass mark) = false ∧ composite? starter c = some whole := by
        simpa using hwhole
      have hlt := hpassed.lt_of_not_cutOff hcut
      have hreverse : ∀ mark ∈ marks.reverse,
          0 < combiningClass mark ∧ combiningClass mark < combiningClass c := by
        intro mark hmark
        exact hlt mark (List.mem_reverse.1 hmark)
      rw [ih (hpassed.tail hordered hlt) hmarks hmore htail,
        decomposeSymbol_of_composite? hcomposite, List.append_assoc, reorder_foldr,
        reorder_foldr (decomposeSymbol starter)]
      congr 1
      calc
        reorder ([c] ++ (marks.reverse ++ text))
          = settle c (marks.reverse.foldr settle (reorder text)) := by
            rw [reorder_foldr, reorder_foldr]
            rfl
        _ = marks.reverse.foldr settle (settle c (reorder text)) :=
            foldr_settle_comm hreverse (reorder text)
        _ = reorder (marks.reverse ++ c :: text) := (reorder_foldr marks.reverse (c :: text)).symm
    next =>
      split
      next =>
        have hrest : reorder (decompose (composeOnto c [] text)) =
            reorder (decomposeSymbol c ++ text) :=
          ih (.nil text) (by simp [Decomposed]) hmore htail
        rw [decompose_cons, decompose_append, hmarks.reverse.decompose_eq, reorder_foldr,
          reorder_foldr (decomposeSymbol starter)]
        congr 1
        rw [reorder_foldr, reorder_foldr marks.reverse, hrest, hc]
        rfl
      next hclass =>
        have hmarks' : Decomposed (c :: marks) := List.forall_mem_cons.2 ⟨hc, hmarks⟩
        rw [ih (hpassed.cons hclass hordered) hmarks' hmore htail]
        simp

/-- **Composing can be undone**: the composed text comes apart into the symbols that it
    was composed of. -/
theorem reorder_decompose_compose {text : List Char} (hdecomposed : Decomposed text)
    (hordered : MarksOrdered text) : reorder (decompose (compose text)) = text := by
  induction text with
  | nil => rfl
  | cons c text ih =>
    obtain ⟨hc, hmore⟩ := List.forall_mem_cons.1 hdecomposed
    have htail : MarksOrdered text := (List.isChain_cons.1 hordered).2
    rw [compose]
    split
    next =>
      rw [reorder_decompose_composeOnto (.nil text) (by simp [Decomposed]) hmore htail, hc]
      exact hordered.reorder_eq
    next =>
      rw [decompose_cons, hc, reorder_foldr, ih hmore htail]
      have hwhole := hordered.reorder_eq
      rwa [reorder, List.foldr_cons, ← reorder, htail.reorder_eq] at hwhole

/-- **Normalizing twice is normalizing once.** -/
theorem normalize_idem (text : List Char) : normalize (normalize text) = normalize text := by
  by_cases hlow : text.all (·.toNat < 0x300) = true
  · have hsame : normalize text = text := by rw [normalize, if_pos hlow]
    rw [hsame, hsame]
  · have hordered := marksOrdered_reorder (decompose text)
    have hdecomposed : Decomposed (reorder (decompose text)) := by
      intro c hc
      exact decomposed_decompose text c (mem_reorder.1 hc)
    have hnormal : normalize text = compose (reorder (decompose text)) := by
      rw [normalize, if_neg hlow]
    rw [hnormal, normalize, reorder_decompose_compose hdecomposed hordered, ite_self]

end StyleTemplate
