/-
  **Decimals in writing.**

  A decimal is written plainly, as a whole number or with a point (`PlainForm`), or with one
  digit before the point and an exponent (`ScientificForm`).  The forms leave no choice:
  numbers before the point have no zeros in front, places behind it none at their end, and
  an exponent always has its sign.

  `textValue` says what such a text denotes.  It knows nothing of how texts are made, so
  that texts of one form are told apart by it (`textValue_plainForm`,
  `textValue_scientificForm`).
-/
import Mathlib.Data.List.TakeWhile
import StyleTemplate.Number.FloatText
import StyleTemplate.Proofs.Number.Decimal

namespace StyleTemplate

/-! ### Digits -/

theorem digitChar_toNat_sub {c : Char} (h : c.isDigit = true) :
    c.toNat - '0'.toNat < 10 ∧ Nat.digitChar (c.toNat - '0'.toNat) = c := by
  rw [Char.isDigit_iff_toNat] at h
  have hlt : c.toNat - '0'.toNat < 10 := by
    have : '9'.toNat = '0'.toNat + 9 := rfl
    omega
  refine ⟨hlt, Char.toNat_inj.mp ?_⟩
  rw [Nat.toNat_digitChar_of_lt_ten hlt]
  have : '0'.toNat = 48 := rfl
  omega

theorem isDigit_of_mem_toDigits {n : ℕ} {c : Char} (h : c ∈ Nat.toDigits 10 n) :
    c.isDigit = true :=
  Nat.isDigit_of_mem_toDigits (by norm_num) (by norm_num) h

/-- Digits behind those of a number are the digits of a greater one. -/
theorem toDigits_append {n : ℕ} (hn : 0 < n) {digits : List Char}
    (h : ∀ c ∈ digits, c.isDigit = true) :
    Nat.toDigits 10 n ++ digits = Nat.toDigits 10 (Nat.ofDigitChars 10 digits n) := by
  induction digits generalizing n with
  | nil => simp
  | cons c digits ih =>
    obtain ⟨hlt, hc⟩ := digitChar_toNat_sub (h c List.mem_cons_self)
    have hstep := Nat.toDigits_append_toDigits (b := 10) (by norm_num) hn hlt
    rw [Nat.toDigits_of_lt_base hlt, hc] at hstep
    rw [Nat.ofDigitChars_cons, ← ih (by omega) fun d hd => h d (List.mem_cons_of_mem c hd), ← hstep,
      List.append_assoc, List.singleton_append]

/-- Digits without a zero in front are those of the number that they denote. -/
theorem toDigits_ofDigitChars {c : Char} {digits : List Char} (hc : c ≠ '0')
    (h : ∀ d ∈ c :: digits, d.isDigit = true) :
    Nat.toDigits 10 (Nat.ofDigitChars 10 (c :: digits) 0) = c :: digits := by
  obtain ⟨hlt, hchar⟩ := digitChar_toNat_sub (h c List.mem_cons_self)
  have hpos : 0 < c.toNat - '0'.toNat := by
    apply Nat.pos_of_ne_zero
    intro hzero
    rw [hzero] at hchar
    exact hc hchar.symm
  rw [Nat.ofDigitChars_cons, Nat.mul_zero, Nat.zero_add,
    ← toDigits_append hpos fun d hd => h d (List.mem_cons_of_mem c hd), Nat.toDigits_of_lt_base hlt,
    hchar, List.singleton_append]

theorem exists_toDigits_eq_cons {n : ℕ} (hn : 0 < n) :
    ∃ c digits, c ≠ '0' ∧ Nat.toDigits 10 n = c :: digits := by
  induction n using Nat.strong_induction_on with
  | h n ih =>
    rcases Nat.lt_or_ge n 10 with hlt | hge
    · have hc : n.digitChar ≠ '0' := by rw [ne_eq, Nat.digitChar_eq_zero]; omega
      exact ⟨n.digitChar, [], hc, Nat.toDigits_of_lt_base hlt⟩
    · obtain ⟨c, digits, hc, heq⟩ := ih (n / 10) (by omega) (by omega)
      exact ⟨c, digits ++ [(n % 10).digitChar], hc, by
        rw [Nat.toDigits_of_base_le (by norm_num) hge, heq, List.cons_append]⟩

theorem exists_toDigits_eq_append {n : ℕ} (hn : n % 10 ≠ 0) :
    ∃ c digits, c ≠ '0' ∧ Nat.toDigits 10 n = digits ++ [c] := by
  refine ⟨(n % 10).digitChar, ?_⟩
  have hc : (n % 10).digitChar ≠ '0' := by rwa [ne_eq, Nat.digitChar_eq_zero]
  rcases Nat.lt_or_ge n 10 with hlt | hge
  · exact ⟨[], hc, by rw [Nat.toDigits_of_lt_base hlt, Nat.mod_eq_of_lt hlt, List.nil_append]⟩
  · exact ⟨Nat.toDigits 10 (n / 10), hc, Nat.toDigits_of_base_le (by norm_num) hge⟩

theorem length_toDigits (n : ℕ) : (Nat.toDigits 10 n).length = digitCount n := by
  have hlength := Nat.length_toDigits_pos (b := 10) (n := n)
  have hcount := digitCount_pos n
  have hiff : ∀ k, (Nat.toDigits 10 n).length ≤ k + 1 ↔ digitCount n ≤ k + 1 := fun k => by
    rw [Nat.length_toDigits_le_iff (by norm_num) (by omega), digitCount_le_iff]
  obtain ⟨i, hi⟩ := Nat.exists_eq_add_of_lt hlength
  obtain ⟨j, hj⟩ := Nat.exists_eq_add_of_lt hcount
  have := (hiff i).mp (by omega)
  have := (hiff j).mpr (by omega)
  omega

/-! ### Forms -/

/-- A size in digits, with a point if it is not whole. -/
inductive PlainForm (q : ℚ) : List Char → Prop where
  | whole (n : ℕ) (hvalue : q = n) : PlainForm q (Nat.toDigits 10 n)
  | point (n : ℕ) (places : List Char) (last : Char)
      (hdigits : ∀ c ∈ places ++ [last], c.isDigit = true) (hlast : last ≠ '0')
      (hvalue : q = n + Nat.ofDigitChars 10 (places ++ [last]) 0 / 10 ^ (places.length + 1)) :
      PlainForm q (Nat.toDigits 10 n ++ '.' :: (places ++ [last]))

/-- A size with one digit before the point, taken times a power of ten. -/
inductive ScientificForm (q : ℚ) (exponent : ℤ) : List Char → Prop where
  | intro (mantissa : List Char) (hlow : 10 ^ exponent ≤ q) (hhigh : q < 10 ^ (exponent + 1))
      (hmantissa : PlainForm (q / 10 ^ exponent) mantissa) :
      ScientificForm q exponent
        (mantissa ++ 'e' :: (if exponent < 0 then '-' else '+') :: Nat.toDigits 10 exponent.natAbs)

/-- Digits with a point between them are the number of all of them, taken through. -/
theorem plainForm_point {q : ℚ} {n : ℕ} {whole places : List Char} {last : Char}
    (hwhole : whole = Nat.toDigits 10 n)
    (hdigits : ∀ c ∈ places ++ [last], c.isDigit = true) (hlast : last ≠ '0')
    (hvalue : q = Nat.ofDigitChars 10 (whole ++ (places ++ [last])) 0 / 10 ^ (places.length + 1)) :
    PlainForm q (whole ++ '.' :: (places ++ [last])) := by
  subst hwhole
  apply PlainForm.point n places last hdigits hlast
  rw [hvalue, Nat.ofDigitChars_append, Nat.ofDigitChars_ten_toDigits,
    Nat.ofDigitChars_eq_ofDigitChars_zero, List.length_append, List.length_singleton]
  push_cast
  rw [add_div, mul_div_cancel_left₀ _ (by positivity)]

/-- With zeros behind its digits a number is a greater one. -/
theorem plainForm_zeros {n : ℕ} (hn : 0 < n) (zeros : ℕ) :
    PlainForm (n * 10 ^ zeros) (Nat.toDigits 10 n ++ List.replicate zeros '0') := by
  rw [toDigits_append hn (by simp +contextual), Nat.ofDigitChars_replicate_zero]
  apply PlainForm.whole
  push_cast
  ring

section Point

variable {n : ℕ} (hn : n % 10 ≠ 0) {places : ℕ}
include hn

/-- With the point among its digits it is a part of itself. -/
theorem plainForm_among (hpos : 0 < places) (hplaces : places < (Nat.toDigits 10 n).length) :
    PlainForm (n / 10 ^ places)
      ((Nat.toDigits 10 n).take ((Nat.toDigits 10 n).length - places) ++
        '.' :: (Nat.toDigits 10 n).drop ((Nat.toDigits 10 n).length - places)) := by
  obtain ⟨first, more, hfirst, hcons⟩ := exists_toDigits_eq_cons (n := n) (by omega)
  obtain ⟨last, before, hlast, hsnoc⟩ := exists_toDigits_eq_append hn
  have hdigits : ∀ c ∈ Nat.toDigits 10 n, c.isDigit = true := fun _ => isDigit_of_mem_toDigits
  have hvalue := Nat.ofDigitChars_ten_toDigits (n := n)
  generalize Nat.toDigits 10 n = digits at *
  obtain ⟨whole, hwhole⟩ := Nat.exists_eq_add_of_lt hplaces
  have hlength : digits.length = before.length + 1 := by simp [hsnoc]
  have hcut : digits.length - places = whole + 1 := by omega
  have htake : digits.take (whole + 1) = first :: more.take whole := by simp [hcons]
  have hdrop : digits.drop (whole + 1) = before.drop (whole + 1) ++ [last] := by
    rw [hsnoc, List.drop_append_of_le_length (by omega)]
  have hall := List.take_append_drop (whole + 1) digits
  rw [hcut, hdrop]
  rw [hdrop] at hall
  have hnumber : Nat.toDigits 10 (Nat.ofDigitChars 10 (digits.take (whole + 1)) 0) =
      digits.take (whole + 1) := by
    rw [htake]
    exact toDigits_ofDigitChars hfirst fun c hc => hdigits c (List.mem_of_mem_take (htake ▸ hc))
  refine plainForm_point hnumber.symm (fun c hc => hdigits c ?_) hlast ?_
  · rw [← hdrop] at hc
    exact List.mem_of_mem_drop hc
  · rw [hall, hvalue, List.length_drop]
    congr 2
    omega

/-- With the point before its digits there are zeros between. -/
theorem plainForm_before (hplaces : (Nat.toDigits 10 n).length ≤ places) :
    PlainForm (n / 10 ^ places)
      ('0' :: '.' :: List.replicate (places - (Nat.toDigits 10 n).length) '0' ++
        Nat.toDigits 10 n) := by
  obtain ⟨last, before, hlast, hsnoc⟩ := exists_toDigits_eq_append hn
  have hdigits : ∀ c ∈ Nat.toDigits 10 n, c.isDigit = true := fun _ => isDigit_of_mem_toDigits
  have hvalue := Nat.ofDigitChars_ten_toDigits (n := n)
  generalize Nat.toDigits 10 n = digits at *
  subst hsnoc
  rw [List.cons_append, List.cons_append, ← List.append_assoc]
  refine plainForm_point (Nat.toDigits_zero 10).symm ?_ hlast ?_
  · intro c hc
    rw [List.append_assoc, List.mem_append] at hc
    rcases hc with hc | hc
    · rw [List.eq_of_mem_replicate hc]
      rfl
    · exact hdigits c hc
  · have hzero : Nat.ofDigitChars 10 ['0'] 0 = 0 := rfl
    rw [List.append_assoc, Nat.ofDigitChars_append, Nat.ofDigitChars_append, hzero,
      Nat.ofDigitChars_replicate_zero, Nat.mul_zero, hvalue, List.length_append,
      List.length_replicate]
    rw [List.length_append, List.length_singleton] at *
    congr 2
    omega

end Point

theorem plainForm_positional {d : Decimal} (h : d.coefficient % 10 ≠ 0) :
    PlainForm d.value (positional (digitsOf d.coefficient) d.exponent) := by
  rw [positional, digitsOf, Decimal.value]
  split_ifs with hexponent
  · obtain ⟨zeros, hzeros⟩ := Int.eq_ofNat_of_zero_le hexponent
    rw [hzeros, Int.toNat_natCast, zpow_natCast]
    exact plainForm_zeros (by omega) zeros
  · obtain ⟨places, hplaces⟩ := Int.eq_ofNat_of_zero_le (show 0 ≤ -d.exponent by omega)
    rw [hplaces, Int.toNat_natCast, show d.exponent = -(places : ℤ) by omega, zpow_neg,
      zpow_natCast, ← div_eq_mul_inv]
    dsimp only
    split_ifs with hamong
    · exact plainForm_among h (by omega) hamong
    · exact plainForm_before h (not_lt.mp hamong)

/-- The digits before an exponent are those of the same decimal with one leading digit. -/
theorem scientific_eq {digits : List Char} (h : digits ≠ []) (exponent : ℤ) :
    scientific digits exponent = positional digits (1 - digits.length) ++
      'e' :: (if exponent < 0 then '-' else '+') :: digitsOf exponent.natAbs := by
  match digits with
  | [first] => rfl
  | first :: second :: more =>
    have hplaces : (1 - ((first :: second :: more).length : ℤ)) = -(more.length + 1 : ℕ) := by
      rw [List.length_cons, List.length_cons]
      omega
    have hmantissa : positional (first :: second :: more) (-(more.length + 1 : ℕ)) =
        first :: '.' :: second :: more := by
      rw [positional, if_neg (by omega)]
      simp
    rw [hplaces, hmantissa]
    rfl

theorem scientificForm_scientific {d : Decimal} (h : d.coefficient % 10 ≠ 0) :
    ScientificForm d.value d.leadingExponent
      (scientific (digitsOf d.coefficient) d.leadingExponent) := by
  have hzero : d.coefficient ≠ 0 := by omega
  have ⟨hlow, hhigh⟩ := d.value_mem_of_leadingExponent hzero
  rw [scientific_eq (by rw [digitsOf]; exact Nat.toDigits_ne_nil)]
  apply ScientificForm.intro _ hlow hhigh
  have hvalue : d.value / 10 ^ d.leadingExponent =
      Decimal.value ⟨d.coefficient, 1 - (digitsOf d.coefficient).length⟩ := by
    rw [Decimal.value, Decimal.value, mul_div_assoc, ← zpow_sub₀ (by norm_num), digitsOf,
      length_toDigits, Decimal.leadingExponent]
    dsimp only
    congr 2
    omega
  rw [hvalue]
  exact plainForm_positional h

/-! ### Reading -/

/-- What digits denote, with or without a point. -/
def plainValue (text : List Char) : ℚ :=
  let whole := text.takeWhile (· != '.')
  let places := (text.dropWhile (· != '.')).tail
  Nat.ofDigitChars 10 whole 0 + Nat.ofDigitChars 10 places 0 / 10 ^ places.length

/-- What an exponent denotes; none is as good as zero. -/
def exponentValue : List Char → ℤ
  | [] => 0
  | sign :: digits =>
    if sign = '-' then -Nat.ofDigitChars 10 digits 0 else Nat.ofDigitChars 10 digits 0

/-- What a number without a sign denotes. -/
def sizeValue (text : List Char) : ℚ :=
  plainValue (text.takeWhile (· != 'e')) *
    10 ^ exponentValue (text.dropWhile (· != 'e')).tail

/-- What a number denotes. -/
def textValue : List Char → ℚ
  | '-' :: text => -sizeValue text
  | text => sizeValue text

theorem span_separator {front behind : List Char} {separator : Char}
    (h : ∀ c ∈ front, (c != separator) = true) :
    (front ++ separator :: behind).takeWhile (· != separator) = front ∧
      (front ++ separator :: behind).dropWhile (· != separator) = separator :: behind := by
  constructor
  · rw [List.takeWhile_append_of_pos h, List.takeWhile_cons_of_neg (by simp), List.append_nil]
  · rw [List.dropWhile_append_of_pos h, List.dropWhile_cons_of_neg (by simp)]

theorem ne_of_isDigit {c separator : Char} (h : c.isDigit = true)
    (hseparator : separator.isDigit = false) : (c != separator) = true := by
  rw [bne_iff_ne]
  rintro rfl
  exact absurd h (by simp [hseparator])

theorem plainValue_plainForm {q : ℚ} {text : List Char} (h : PlainForm q text) :
    plainValue text = q := by
  cases h with
  | whole n hvalue =>
    have hdigits : ∀ c ∈ Nat.toDigits 10 n, (c != '.') = true := fun c hc =>
      ne_of_isDigit (isDigit_of_mem_toDigits hc) rfl
    rw [plainValue, List.takeWhile_eq_self_iff.mpr hdigits, List.dropWhile_eq_nil_iff.mpr hdigits,
      Nat.ofDigitChars_ten_toDigits, hvalue]
    simp
  | point n places last hdigits hlast hvalue =>
    have hdigits : ∀ c ∈ Nat.toDigits 10 n, (c != '.') = true := fun c hc =>
      ne_of_isDigit (isDigit_of_mem_toDigits hc) rfl
    obtain ⟨htake, hdrop⟩ := span_separator hdigits
    rw [plainValue, htake, hdrop, Nat.ofDigitChars_ten_toDigits, hvalue]
    simp

theorem PlainForm.ne_letter {q : ℚ} {text : List Char} (h : PlainForm q text) :
    ∀ c ∈ text, (c != 'e') = true := by
  cases h with
  | whole n => exact fun c hc => ne_of_isDigit (isDigit_of_mem_toDigits hc) rfl
  | point n places last hdigits =>
    intro c hc
    rw [List.mem_append, List.mem_cons] at hc
    rcases hc with hc | rfl | hc
    · exact ne_of_isDigit (isDigit_of_mem_toDigits hc) rfl
    · rfl
    · exact ne_of_isDigit (hdigits c hc) rfl

/-- The two forms are told apart by the letter. -/
theorem PlainForm.not_scientificForm {q r : ℚ} {exponent : ℤ} {text : List Char}
    (h : PlainForm q text) : ¬ ScientificForm r exponent text := by
  rintro ⟨mantissa⟩
  exact absurd (h.ne_letter 'e' (by simp)) (by decide)

theorem sizeValue_plainForm {q : ℚ} {text : List Char} (h : PlainForm q text) :
    sizeValue text = q := by
  rw [sizeValue, List.takeWhile_eq_self_iff.mpr h.ne_letter,
    List.dropWhile_eq_nil_iff.mpr h.ne_letter, plainValue_plainForm h]
  simp [exponentValue]

theorem exponentValue_sign (exponent : ℤ) :
    exponentValue ((if exponent < 0 then '-' else '+') :: Nat.toDigits 10 exponent.natAbs) =
      exponent := by
  rw [exponentValue, Nat.ofDigitChars_ten_toDigits]
  by_cases hneg : exponent < 0
  · rw [if_pos hneg, if_pos rfl]
    omega
  · rw [if_neg hneg, if_neg (by decide)]
    omega

theorem sizeValue_scientificForm {q : ℚ} {exponent : ℤ} {text : List Char}
    (h : ScientificForm q exponent text) : sizeValue text = q := by
  obtain ⟨mantissa, -, -, hmantissa⟩ := h
  obtain ⟨htake, hdrop⟩ := span_separator hmantissa.ne_letter
  rw [sizeValue, htake, hdrop, List.tail_cons, plainValue_plainForm hmantissa,
    exponentValue_sign, div_mul_cancel₀ _ (zpow_ne_zero _ (by norm_num))]

theorem PlainForm.exists_eq_cons {q : ℚ} {text : List Char} (h : PlainForm q text) :
    ∃ c rest, c.isDigit = true ∧ text = c :: rest := by
  have hfirst : ∀ n, ∃ c rest, c.isDigit = true ∧ Nat.toDigits 10 n = c :: rest := by
    intro n
    obtain ⟨c, rest, heq⟩ := List.exists_cons_of_ne_nil (Nat.toDigits_ne_nil (n := n) (b := 10))
    exact ⟨c, rest, isDigit_of_mem_toDigits (heq ▸ List.mem_cons_self), heq⟩
  cases h with
  | whole n => exact hfirst n
  | point n places last =>
    obtain ⟨c, rest, hc, heq⟩ := hfirst n
    exact ⟨c, rest ++ '.' :: (places ++ [last]), hc, by rw [heq, List.cons_append]⟩

theorem ScientificForm.exists_eq_cons {q : ℚ} {exponent : ℤ} {text : List Char}
    (h : ScientificForm q exponent text) : ∃ c rest, c.isDigit = true ∧ text = c :: rest := by
  obtain ⟨mantissa, -, -, hmantissa⟩ := h
  obtain ⟨c, rest, hc, rfl⟩ := hmantissa.exists_eq_cons
  exact ⟨c, rest ++ _, hc, List.cons_append⟩

/-- A sign in front of digits changes the sign. -/
theorem textValue_sign (negative : Bool) {body : List Char}
    (h : ∃ c rest, c.isDigit = true ∧ body = c :: rest) :
    textValue ((if negative then ['-'] else []) ++ body) =
      if negative then -sizeValue body else sizeValue body := by
  obtain ⟨c, rest, hc, rfl⟩ := h
  cases negative
  · have hminus : c ≠ '-' := bne_iff_ne.mp (ne_of_isDigit hc rfl)
    simp only [Bool.false_eq_true, if_false, List.nil_append]
    rw [textValue]
    rintro text heq
    exact hminus (List.cons.inj heq).1
  · rfl

end StyleTemplate
