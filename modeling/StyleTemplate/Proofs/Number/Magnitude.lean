/-
  **Sizes in the order of their bits.**

  The bits of a number below its sign count the sizes in increasing order: the next
  number of bits is the next size (`unitsAt_succ`), at the distance that
  `Binary64.spacing` gives, and `Binary64.spacingBelow` is the distance to the size before.
  This goes on behind infinity, which stands at 2^1024, so no bound is needed here.

  A size is a significand times a power of two.  The bits are found from these two by a
  sum (`unitsAt_scaled`), also where the significand is one too great and is carried into
  the exponent, which is what makes rounding simple.
-/
import Mathlib.Algebra.Order.Ring.Star
import Mathlib.Tactic.NormNum
import Mathlib.Tactic.Ring
import StyleTemplate.Number.Decimal

namespace StyleTemplate

namespace Binary64

theorem fractions_eq : fractions = 2 ^ 52 := rfl

theorem fractions_pos : 0 < fractions := by simp [fractions_eq]

/-! ### Numbers with given bits -/

section OfMagnitudeBits

variable {negative : Bool} {m : ℕ}

theorem toNat_ofMagnitudeBits (h : m ≤ infinityBits) :
    (ofMagnitudeBits negative m).bits.toNat = (if negative then 2 ^ 63 else 0) + m := by
  have hm : m < 2 ^ 63 := h.trans_lt (by decide)
  rw [ofMagnitudeBits, UInt64.toNat_ofNat']
  apply Nat.mod_eq_of_lt
  cases negative <;> simp only [Nat.pow_eq, if_true, Bool.false_eq_true, if_false] <;> omega

theorem magnitudeBits_ofMagnitudeBits (h : m ≤ infinityBits) :
    (ofMagnitudeBits negative m).magnitudeBits = m := by
  have hm : m < 2 ^ 63 := h.trans_lt (by decide)
  rw [magnitudeBits, toNat_ofMagnitudeBits h, Nat.pow_eq]
  cases negative <;> simp only [if_true, Bool.false_eq_true, if_false] <;> omega

theorem isNegative_ofMagnitudeBits (h : m ≤ infinityBits) :
    (ofMagnitudeBits negative m).isNegative = negative := by
  have hm : m < 2 ^ 63 := h.trans_lt (by decide)
  rw [isNegative, toNat_ofMagnitudeBits h]
  cases negative
  · simpa using hm
  · simp

end OfMagnitudeBits

/-- The sign and the bits below it are all there is to a number. -/
theorem ext_magnitudeBits {x y : Binary64} (hsign : x.isNegative = y.isNegative)
    (hbits : x.magnitudeBits = y.magnitudeBits) : x = y := by
  have hx := x.bits.toNat_lt
  have hy := y.bits.toNat_lt
  have hsign' : 2 ^ 63 ≤ x.bits.toNat ↔ 2 ^ 63 ≤ y.bits.toNat := by
    simpa [isNegative] using hsign
  have hbits' : x.bits.toNat % 2 ^ 63 = y.bits.toNat % 2 ^ 63 := hbits
  have h : x.bits.toNat = y.bits.toNat := by omega
  cases x
  cases y
  exact congrArg mk (UInt64.toNat_inj.mp h)

/-! ### The sizes one after another -/

/-- The size of the number with these bits below the sign, in units of 2^-1074. -/
def unitsAt (m : ℕ) : ℕ :=
  if m / fractions = 0 then m % fractions
  else (fractions + m % fractions) * 2 ^ (m / fractions - 1)

/-- The distance from that size to the next. -/
def spacingAt (m : ℕ) : ℕ :=
  2 ^ (m / fractions - 1)

theorem units_eq_unitsAt (x : Binary64) : x.units = unitsAt x.magnitudeBits := rfl

theorem spacing_eq_spacingAt (x : Binary64) : x.spacing = spacingAt x.magnitudeBits := rfl

@[simp] theorem unitsAt_zero : unitsAt 0 = 0 := by simp [unitsAt]

/-- A significand in its place, which has the leading bit unless the exponent is least. -/
theorem unitsAt_scaled {k s : ℕ} (hs : s ≤ 2 * fractions) (hk : k = 0 ∨ fractions ≤ s) :
    unitsAt (k * fractions + s) = s * 2 ^ k := by
  have hF := fractions_pos
  rcases Nat.lt_or_ge s fractions with hlow | hlow
  · obtain rfl : k = 0 := hk.resolve_right hlow.not_ge
    simp [unitsAt, Nat.div_eq_of_lt hlow, Nat.mod_eq_of_lt hlow]
  · obtain ⟨f, rfl⟩ := Nat.exists_eq_add_of_le hlow
    have hbits : k * fractions + (fractions + f) = f + (k + 1) * fractions := by ring
    rcases Nat.lt_or_ge f fractions with hf | hf
    · simp [unitsAt, hbits, Nat.add_mul_div_right _ _ hF, Nat.div_eq_of_lt hf,
        Nat.mod_eq_of_lt hf]
    · -- the significand is carried into the exponent
      obtain rfl : f = fractions := by omega
      simp [unitsAt, hbits, Nat.add_mul_div_right _ _ hF, Nat.div_self hF]
      ring

theorem spacingAt_scaled {k s : ℕ} (hs : s < 2 * fractions) (hk : k = 0 ∨ fractions ≤ s) :
    spacingAt (k * fractions + s) = 2 ^ k := by
  have hF := fractions_pos
  rcases Nat.lt_or_ge s fractions with hlow | hlow
  · obtain rfl : k = 0 := hk.resolve_right hlow.not_ge
    simp [spacingAt, Nat.div_eq_of_lt hlow]
  · obtain ⟨f, rfl⟩ := Nat.exists_eq_add_of_le hlow
    have hbits : k * fractions + (fractions + f) = f + (k + 1) * fractions := by ring
    have hf : f < fractions := by omega
    simp [spacingAt, hbits, Nat.add_mul_div_right _ _ hF, Nat.div_eq_of_lt hf]

/-- Every number has a significand and an exponent. -/
theorem exists_scaled (m : ℕ) :
    ∃ k s, m = k * fractions + s ∧ s < 2 * fractions ∧ (k = 0 ∨ fractions ≤ s) := by
  have hF := fractions_pos
  have hm := Nat.div_add_mod' m fractions
  have hs := Nat.mod_lt m hF
  rcases h : m / fractions with _ | k
  · exact ⟨0, m, by omega, by rw [h] at hm; omega, .inl rfl⟩
  · refine ⟨k, fractions + m % fractions, ?_, by omega, .inr (by omega)⟩
    rw [h, Nat.succ_mul] at hm
    omega

theorem unitsAt_succ (m : ℕ) : unitsAt (m + 1) = unitsAt m + spacingAt m := by
  obtain ⟨k, s, rfl, hs, hk⟩ := exists_scaled m
  rw [unitsAt_scaled hs.le hk, spacingAt_scaled hs hk, Nat.add_assoc,
    unitsAt_scaled hs (hk.imp_right (by omega)), Nat.succ_mul]

theorem spacingAt_pos (m : ℕ) : 0 < spacingAt m := Nat.two_pow_pos _

theorem unitsAt_strictMono : StrictMono unitsAt :=
  strictMono_nat_of_lt_succ fun m => by
    rw [unitsAt_succ]
    exact Nat.lt_add_of_pos_right (spacingAt_pos m)

theorem spacingAt_le_succ (m : ℕ) : spacingAt m ≤ spacingAt (m + 1) :=
  Nat.pow_le_pow_right (by norm_num)
    (Nat.sub_le_sub_right (Nat.div_le_div_right (Nat.le_add_right m 1)) 1)

/-- A size is at most 2^53 times the distance from the size before. -/
theorem unitsAt_succ_le (m : ℕ) : unitsAt (m + 1) ≤ 2 * fractions * spacingAt m := by
  obtain ⟨k, s, rfl, hs, hk⟩ := exists_scaled m
  rw [unitsAt_succ, unitsAt_scaled hs.le hk, spacingAt_scaled hs hk, ← Nat.succ_mul]
  exact Nat.mul_le_mul_right _ hs

/-! ### A number among its neighbours -/

variable {x y : Binary64} {m : ℕ}

theorem units_lt_iff : x.units < y.units ↔ x.magnitudeBits < y.magnitudeBits := by
  rw [units_eq_unitsAt, units_eq_unitsAt, unitsAt_strictMono.lt_iff_lt]

theorem units_inj : x.units = y.units ↔ x.magnitudeBits = y.magnitudeBits := by
  rw [units_eq_unitsAt, units_eq_unitsAt, unitsAt_strictMono.injective.eq_iff]

theorem spacingBelow_eq_spacingAt (h : x.magnitudeBits = m + 1) :
    x.spacingBelow = spacingAt m := by
  have hfraction : x.fraction = 0 ↔ fractions ∣ m + 1 := by
    rw [fraction, h, Nat.dvd_iff_mod_eq_zero]
  have hexponent : x.exponentField = m / fractions + if fractions ∣ m + 1 then 1 else 0 := by
    rw [exponentField, h, Nat.succ_div]
  simp only [spacingBelow, spacing, Nat.pow_eq, hfraction, hexponent, spacingAt]
  by_cases hdvd : fractions ∣ m + 1
  · -- a power of two: below it the exponent is one less, unless it is least there
    rcases h : m / fractions with _ | e
    · simp [hdvd]
    · simp [hdvd, Nat.pow_succ]
  · simp [hdvd]

theorem exists_magnitudeBits_eq_succ (h : x.isZero = false) : ∃ m, x.magnitudeBits = m + 1 :=
  Nat.exists_eq_succ_of_ne_zero (by simpa [isZero] using h)

/-- The distance downwards is not the greater one, and a number is at most 2^53 of it. -/
theorem spacingBelow_bounds (h : x.isZero = false) : 0 < x.spacingBelow ∧
    x.spacingBelow ≤ x.spacing ∧ x.spacingBelow ≤ x.units ∧
    x.units ≤ 2 * fractions * x.spacingBelow := by
  obtain ⟨m, hm⟩ := exists_magnitudeBits_eq_succ h
  rw [units_eq_unitsAt, spacing_eq_spacingAt, spacingBelow_eq_spacingAt hm, hm]
  refine ⟨spacingAt_pos m, spacingAt_le_succ m, ?_, unitsAt_succ_le m⟩
  rw [unitsAt_succ]
  exact Nat.le_add_left _ _

/-- What is added to a number of fractions is even or odd as the significand is. -/
theorem fraction_mod_two (x : Binary64) : x.fraction % 2 = x.magnitudeBits % 2 := by
  rw [fraction, Nat.mod_mod_of_dvd]
  exact ⟨2 ^ 51, by rw [fractions_eq]; norm_num⟩

theorem isNaN_eq_false_iff : x.isNaN = false ↔ x.magnitudeBits ≤ infinityBits := by
  simp [isNaN]

theorem isFinite_iff : x.isFinite = true ↔ x.magnitudeBits < infinityBits := by
  simp [isFinite]

theorem isNaN_of_isFinite (h : x.isFinite = true) : x.isNaN = false :=
  isNaN_eq_false_iff.mpr (isFinite_iff.mp h).le

theorem isZero_eq_false_iff : x.isZero = false ↔ 0 < x.magnitudeBits := by
  simp [isZero, Nat.pos_iff_ne_zero]

end Binary64

end StyleTemplate
