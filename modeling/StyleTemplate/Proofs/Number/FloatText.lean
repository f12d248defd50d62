/-
  **The text of a number is its shortest decimal.**

  A number is written as its shortest decimal, plainly if the leading exponent of that
  decimal is from -6 to 20.  The program compares the number with the ones nearest to 10^-6
  and 10^21 instead; that this is the same is not a matter of order alone, since what is
  nearest to a power of ten may have a shortest decimal below it.  It has not, because the
  power itself is read back with one digit, and so no decimal of one digit below it is
  nearer (`Decimal.IsShortest.not_leadingExponent_lt`).
-/
import StyleTemplate.Proofs.Number.Notation
import StyleTemplate.Proofs.Number.Shortest

namespace StyleTemplate

open Binary64

namespace Decimal

variable {d : Decimal} {x : Binary64}

/-! ### The two bounds -/

theorem ten_zpow_eq (p : ℤ) : (10 : ℚ) ^ p = 10 * 10 ^ (p - 1) := by
  rw [← zpow_one_add₀ (by norm_num)]
  congr 1
  omega

/-- One digit below a power of ten leaves a tenth of the power between. -/
theorem value_le_of_leadingExponent_lt {p : ℤ} (hcount : digitCount d.coefficient ≤ 1)
    (h : d.leadingExponent < p) : d.value ≤ 9 * 10 ^ (p - 1) := by
  have hnine : d.coefficient ≤ 9 := by
    have := (digitCount_le_iff (k := 0)).mp hcount
    omega
  have hpos := digitCount_pos d.coefficient
  rw [value]
  gcongr
  · exact_mod_cast hnine
  · norm_num
  · rw [leadingExponent] at h
    omega

/-- If a power of ten is read as a number that is near to it, then no decimal below the
power is the shortest one of the number: it would have one digit, as the power has, and the
power is nearer. -/
theorem IsShortest.not_leadingExponent_lt (h : d.IsShortest x) {p : ℤ} (hpower : x.Rounds (10 ^ p))
    (hnear : 19 * 10 ^ p < 20 * x.size) : ¬ d.leadingExponent < p := by
  intro hless
  have hvalue : value ⟨1, p⟩ = 10 ^ p := by simp [value]
  have hone : digitCount 1 = 1 := by rw [digitCount_eq_log]; rfl
  have hcount := h.fewest ⟨1, p⟩ (hvalue ▸ hpower)
  have hpos := digitCount_pos d.coefficient
  have hnearest := h.nearest ⟨1, p⟩ (hvalue ▸ hpower) (by dsimp only at *; omega)
  have hdigit := value_le_of_leadingExponent_lt (hcount.trans_eq hone) hless
  have hten : (0 : ℚ) < 10 ^ (p - 1) := by positivity
  rw [hvalue, ten_zpow_eq] at hnearest
  rw [ten_zpow_eq] at hnear
  rcases hnearest with hnearest | ⟨-, hnearest⟩
  · rw [abs_of_nonpos (by linarith)] at hnearest
    cases abs_cases (10 * 10 ^ (p - 1) - x.size) <;> linarith
  · linarith

/-- A number is from a bound on if its shortest decimal is from the power of ten on that
is read as the bound. -/
theorem IsShortest.le_leadingExponent_iff (h : d.IsShortest x) (hzero : x.isZero = false)
    {bound : Binary64} {p : ℤ} (hbound : bound.Rounds (10 ^ p))
    (hnear : 19 * 10 ^ p < 20 * bound.size) :
    bound.units ≤ x.units ↔ p ≤ d.leadingExponent := by
  have hd := h.coefficient_ne_zero hzero
  constructor
  · intro hle
    rcases hle.lt_or_eq with hlt | heq
    · rw [Decimal.le_leadingExponent_iff hd]
      exact (hbound.lt h.rounds hlt).le
    · have hsize : bound.size = x.size := by rw [size, size, heq]
      exact not_lt.mp (h.not_leadingExponent_lt (hbound.of_units_eq heq) (hsize ▸ hnear))
  · intro hle
    rw [Decimal.le_leadingExponent_iff hd] at hle
    exact hbound.units_le h.rounds hle

end Decimal

theorem rounds_power (p : ℤ) : (Decimal.toBinary64 false ⟨1, p⟩).Rounds (10 ^ p) := by
  have h := Decimal.rounds_toBinary64 false ⟨1, p⟩
  rwa [Decimal.value, Nat.cast_one, one_mul] at h

/-- What is read as a power of ten is near to it if one number is that the power is read as. -/
theorem near_of_rounds {x : Binary64} {p : ℤ} (hx : x.Rounds ((1 : ℕ) * 10 ^ p))
    (h : 19 * (Nat.pow 2 1074 * (Decimal.tenPower p).1) < 20 * x.units * (Decimal.tenPower p).2) :
    19 * 10 ^ p < 20 * (Decimal.toBinary64 false ⟨1, p⟩).size := by
  rw [Nat.cast_one, one_mul] at hx
  rw [size, (rounds_power p).units_eq hx]
  generalize 1074 = k at *
  rw [← not_le, ← Decimal.div_le_grid_iff, not_le, Nat.cast_mul, mul_div_assoc] at h
  exact_mod_cast h

theorem leastPositional_near : 19 * 10 ^ (-6 : ℤ) < 20 * leastPositional.size :=
  near_of_rounds (x := ⟨0x3EB0C6F7A0B5ED8D⟩)
    ((Decimal.rounds_grid_iff rfl rfl 1 (-6)).mpr (by decide +kernel)) (by decide +kernel)

theorem leastScientific_near : 19 * 10 ^ (21 : ℤ) < 20 * leastScientific.size :=
  near_of_rounds (x := ⟨0x444B1AE4D6E2EF50⟩)
    ((Decimal.rounds_grid_iff rfl rfl 1 21).mpr (by decide +kernel)) (by decide +kernel)

/-- Comparing with the two bounds decides about the exponent. -/
theorem bounds_iff {d : Decimal} {x : Binary64} (h : d.IsShortest x) (hzero : x.isZero = false) :
    leastPositional.units ≤ x.units ∧ x.units < leastScientific.units ↔
      -6 ≤ d.leadingExponent ∧ d.leadingExponent ≤ 20 := by
  have hlow : leastPositional.units ≤ x.units ↔ -6 ≤ d.leadingExponent :=
    h.le_leadingExponent_iff hzero (rounds_power (-6)) leastPositional_near
  have hhigh : leastScientific.units ≤ x.units ↔ 21 ≤ d.leadingExponent :=
    h.le_leadingExponent_iff hzero (rounds_power 21) leastScientific_near
  omega

/-! ### Texts -/

variable {x y : Binary64}

theorem magnitudeText_eq (hfinite : x.isFinite = true) (hzero : x.isZero = false) :
    magnitudeText x =
      if -6 ≤ (Decimal.ofBinary64 x).leadingExponent ∧ (Decimal.ofBinary64 x).leadingExponent ≤ 20
      then positional (digitsOf (Decimal.ofBinary64 x).coefficient) (Decimal.ofBinary64 x).exponent
      else scientific (digitsOf (Decimal.ofBinary64 x).coefficient)
        (Decimal.ofBinary64 x).leadingExponent := by
  rw [magnitudeText]
  simp only [bounds_iff (Decimal.isShortest_ofBinary64 hfinite hzero) hzero]

theorem form_magnitudeText (hfinite : x.isFinite = true) (hzero : x.isZero = false)
    {d : Decimal} (hd : d = Decimal.ofBinary64 x) :
    if -6 ≤ d.leadingExponent ∧ d.leadingExponent ≤ 20 then PlainForm d.value (magnitudeText x)
    else ScientificForm d.value d.leadingExponent (magnitudeText x) := by
  have hmod := (Decimal.isShortest_ofBinary64 hfinite hzero).coefficient_mod_ten hzero
  rw [magnitudeText_eq hfinite hzero, hd]
  split_ifs
  · exact plainForm_positional hmod
  · exact scientificForm_scientific hmod

theorem toList_text (hfinite : x.isFinite = true) (hzero : x.isZero = false) :
    x.text.toList = (if x.isNegative then ['-'] else []) ++ magnitudeText x := by
  have hbits := isFinite_iff.mp hfinite
  have hnumber := isNaN_of_isFinite hfinite
  have hinfinite : x.isInfinite = false := by simpa [isInfinite] using hbits.ne
  rw [Binary64.text, hnumber, hinfinite, hzero]
  cases x.isNegative <;> simp

theorem value_ofBinary64_pos (hfinite : x.isFinite = true) (hzero : x.isZero = false) :
    0 < (Decimal.ofBinary64 x).value :=
  Decimal.value_pos ((Decimal.isShortest_ofBinary64 hfinite hzero).coefficient_ne_zero hzero)

/-- What the text of a number denotes is its shortest decimal, with its sign. -/
theorem textValue_text (hfinite : x.isFinite = true) (hzero : x.isZero = false) :
    textValue x.text.toList = if x.isNegative then -(Decimal.ofBinary64 x).value
      else (Decimal.ofBinary64 x).value := by
  have hform := form_magnitudeText hfinite hzero rfl
  rw [toList_text hfinite hzero]
  split_ifs at hform with hrange
  · rw [textValue_sign _ hform.exists_eq_cons, sizeValue_plainForm hform]
  · rw [textValue_sign _ hform.exists_eq_cons, sizeValue_scientificForm hform]

theorem text_zero (hzero : x.isZero = true) : x.text = "0" := by
  have hbits : x.magnitudeBits = 0 := by simpa [isZero] using hzero
  rw [Binary64.text, hzero]
  simp [isNaN, isInfinite, hbits, infinityBits, fractions_eq]

theorem textValue_text_eq_zero_iff (hfinite : x.isFinite = true) :
    textValue x.text.toList = 0 ↔ x.isZero = true := by
  cases hzero : x.isZero with
  | true =>
    rw [text_zero hzero]
    exact iff_of_true ((sizeValue_plainForm (.whole 0 rfl)).trans Nat.cast_zero) rfl
  | false =>
    have hpos := value_ofBinary64_pos hfinite hzero
    rw [textValue_text hfinite hzero]
    split_ifs <;> simp [hpos.ne']

theorem signed_inj {a b : ℚ} (ha : 0 < a) (hb : 0 < b) {s t : Bool}
    (h : (if s then -a else a) = if t then -b else b) : s = t ∧ a = b := by
  cases s <;> cases t <;> simp only [Bool.false_eq_true, if_true, if_false] at h
  · exact ⟨rfl, h⟩
  · linarith
  · linarith
  · exact ⟨rfl, neg_inj.mp h⟩

/-- Texts are the same just for equal numbers. -/
theorem text_eq_iff (hx : x.isFinite = true) (hy : y.isFinite = true) :
    x.text = y.text ↔ (x == y) = true := by
  rw [beq_iff, isNaN_of_isFinite hx, isNaN_of_isFinite hy]
  simp only [true_and]
  constructor
  · intro htext
    have hzero : x.isZero = true ↔ y.isZero = true := by
      rw [← textValue_text_eq_zero_iff hx, htext, textValue_text_eq_zero_iff hy]
    cases hy0 : y.isZero with
    | true => exact .inr ⟨hzero.mpr hy0, rfl⟩
    | false =>
      have hx0 : x.isZero = false := by simpa [hy0] using hzero
      have hvalue : textValue x.text.toList = textValue y.text.toList := by rw [htext]
      have hxpos := value_ofBinary64_pos hx hx0
      have hypos := value_ofBinary64_pos hy hy0
      rw [textValue_text hx hx0, textValue_text hy hy0] at hvalue
      have hsame : x.isNegative = y.isNegative ∧
          (Decimal.ofBinary64 x).value = (Decimal.ofBinary64 y).value :=
        signed_inj hxpos hypos hvalue
      have hrounds := (Decimal.isShortest_ofBinary64 hy hy0).rounds
      left
      rw [← Decimal.toBinary64_eq_iff.mpr ⟨hsame.1, (Decimal.isShortest_ofBinary64 hx hx0).rounds⟩,
        Decimal.toBinary64_eq_iff, hsame.2]
      exact ⟨rfl, hrounds⟩
  · rintro (rfl | ⟨hx0, hy0⟩)
    · rfl
    · rw [text_zero hx0, text_zero hy0]

/-- **A number is written as its shortest decimal.**  That decimal is the only one of its
kind; it is written plainly if its leading exponent is from -6 to 20 and with an exponent
otherwise, behind a minus sign if the number is negative.  What the text denotes is read
back as the number, and numbers of one text are equal. -/
theorem text_writes_shortest :
    (∀ x : Binary64, x.isFinite = true → x.isZero = false → ∃ d : Decimal,
      (∀ e : Decimal, e.IsShortest x ↔ e = d) ∧
      (∃ body, x.text.toList = (if x.isNegative then ['-'] else []) ++ body ∧
        (PlainForm d.value body ↔ -6 ≤ d.leadingExponent ∧ d.leadingExponent ≤ 20) ∧
        (ScientificForm d.value d.leadingExponent body ↔
          ¬ (-6 ≤ d.leadingExponent ∧ d.leadingExponent ≤ 20))) ∧
      textValue x.text.toList = (if x.isNegative then -d.value else d.value) ∧
      d.toBinary64 x.isNegative = x) ∧
    ∀ x y : Binary64, x.isFinite = true → y.isFinite = true →
      (x.text = y.text ↔ (x == y) = true) := by
  refine ⟨fun x hfinite hzero => ?_, fun x y hx hy => text_eq_iff hx hy⟩
  have hshortest := Decimal.isShortest_ofBinary64 hfinite hzero
  have hform := form_magnitudeText hfinite hzero rfl
  refine ⟨Decimal.ofBinary64 x, fun e => ⟨fun he => he.unique hshortest hzero, ?_⟩,
    ⟨magnitudeText x, toList_text hfinite hzero, ?_⟩, textValue_text hfinite hzero,
    Decimal.toBinary64_eq_iff.mpr ⟨rfl, hshortest.rounds⟩⟩
  · rintro rfl
    exact hshortest
  · split_ifs at hform with hrange
    · exact ⟨iff_of_true hform hrange, iff_of_false hform.not_scientificForm (not_not.mpr hrange)⟩
    · exact ⟨iff_of_false (fun h => h.not_scientificForm hform) hrange, iff_of_true hform hrange⟩

/-- One digit is enough for the least number, which no other has the text of. -/
theorem text_writes_shortest_least :
    (∃ d : Decimal, (∀ e : Decimal, e.IsShortest ⟨1⟩ ↔ e = d) ∧
      textValue "5e-324".toList = d.value ∧ d.toBinary64 false = ⟨1⟩) ∧
    ∀ y : Binary64, y.isFinite = true → y.text = "5e-324" → (y == ⟨1⟩) = true := by
  have htext : Binary64.text ⟨1⟩ = "5e-324" := by decide +kernel
  obtain ⟨d, hd, -, hvalue, hread⟩ := text_writes_shortest.1 ⟨1⟩ (by decide) (by decide)
  have hsign : Binary64.isNegative ⟨1⟩ = false := by decide
  rw [htext, hsign] at hvalue
  rw [hsign] at hread
  exact ⟨⟨d, hd, hvalue, hread⟩, fun y hy hsame =>
    (text_writes_shortest.2 y ⟨1⟩ hy (by decide)).mp (hsame.trans htext.symm)⟩

/-- On both sides of the bounds. -/
example : List.map Binary64.text
    [⟨0x3EB0C6F7A0B5ED8C⟩, ⟨0x3EB0C6F7A0B5ED8D⟩, ⟨0x444B1AE4D6E2EF4F⟩, ⟨0x444B1AE4D6E2EF50⟩] =
    ["9.999999999999997e-7", "0.000001", "999999999999999900000", "1e+21"] := by
  decide +kernel

end StyleTemplate
