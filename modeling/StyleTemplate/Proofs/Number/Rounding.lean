/-
  **Rounding to the nearest number.**

  `Binary64.Rounds` says which number a size is rounded to: one that no other is nearer
  to, and of two equally near ones the even one.  Infinity takes part as the number behind
  the greatest, which is how IEEE 754 has it: half a step above the greatest number sizes
  begin to be infinite.

  So every number has an interval of sizes around its own that are rounded to it, up to
  the mid points between it and its neighbours, and with them just if it is even
  (`rounds_iff_interval`).  Intervals of different numbers do not meet and have the order
  of the numbers (`Rounds.units_le`).
-/
import Mathlib.Tactic.Linarith
import StyleTemplate.Proofs.Number.Magnitude

namespace StyleTemplate

namespace Binary64

/-- The size of a number; infinity stands for 2^1024. -/
def size (x : Binary64) : ℚ :=
  x.units / 2 ^ 1074

/-- The number is the nearest one to a size, and of two equally near ones the even one. -/
structure Rounds (x : Binary64) (q : ℚ) : Prop where
  number : x.isNaN = false
  nearest : ∀ y : Binary64, y.isNaN = false → |q - x.size| ≤ |q - y.size|
  even : ∀ y : Binary64, y.isNaN = false → y.size ≠ x.size →
    |q - x.size| = |q - y.size| → x.fraction % 2 = 0

/-! ### Mid points -/

/-- The size of the number with these bits below the sign. -/
def sizeAt (m : ℕ) : ℚ :=
  unitsAt m / 2 ^ 1074

/-- The mid point of two sizes. -/
def mid (i j : ℕ) : ℚ :=
  (sizeAt i + sizeAt j) / 2

/-- Less, or as great when ties go to the number of bits `m`. -/
def Yields (m : ℕ) (a b : ℚ) : Prop :=
  a < b ∨ a = b ∧ m % 2 = 0

section Mid

variable {i j k m : ℕ} {a b c : ℚ}

theorem sizeAt_strictMono : StrictMono sizeAt := by
  intro i j h
  have := unitsAt_strictMono h
  unfold sizeAt
  gcongr

theorem mid_comm (i j : ℕ) : mid i j = mid j i := by
  rw [mid, mid, add_comm]

theorem mid_eq_div (i j : ℕ) : mid i j = (unitsAt i + unitsAt j : ℕ) / 2 ^ 1075 := by
  rw [mid, sizeAt, sizeAt, ← add_div, div_div, ← pow_succ, Nat.cast_add]

theorem mid_lt_mid_right (h : j < k) : mid i j < mid i k := by
  have := sizeAt_strictMono h
  unfold mid
  gcongr

theorem mid_le_mid_right (h : j ≤ k) : mid i j ≤ mid i k := by
  have := sizeAt_strictMono.monotone h
  unfold mid
  gcongr

theorem yields_iff : Yields m a b ↔ if m % 2 = 0 then a ≤ b else a < b := by
  split_ifs with hm <;> simp [Yields, hm, le_iff_lt_or_eq]

theorem Yields.le (h : Yields m a b) : a ≤ b :=
  h.elim le_of_lt fun h => h.1.le

theorem Yields.of_le (hab : a ≤ b) (h : Yields m b c) : Yields m a c := by
  rcases h with h | ⟨rfl, hm⟩
  · exact .inl (hab.trans_lt h)
  · exact hab.lt_or_eq.imp_right (⟨·, hm⟩)

theorem Yields.trans_le (h : Yields m a b) (hbc : b ≤ c) : Yields m a c := by
  rcases h with h | ⟨rfl, hm⟩
  · exact .inl (h.trans_le hbc)
  · exact hbc.lt_or_eq.imp_right (⟨·, hm⟩)

/-- What is nearer to a greater size is at least at the mid point. -/
theorem abs_sub_le_iff_of_gt (h : b < a) : |c - a| ≤ |c - b| ↔ (a + b) / 2 ≤ c := by
  cases abs_cases (c - a) <;> cases abs_cases (c - b) <;> constructor <;> intro <;> linarith

/-- What is nearer to a lesser size is at most at the mid point. -/
theorem abs_sub_le_iff_of_lt (h : a < b) : |c - a| ≤ |c - b| ↔ c ≤ (a + b) / 2 := by
  cases abs_cases (c - a) <;> cases abs_cases (c - b) <;> constructor <;> intro <;> linarith

theorem abs_sub_eq_iff_of_ne (h : a ≠ b) : |c - a| = |c - b| ↔ c = (a + b) / 2 := by
  rcases h.lt_or_gt with h | h
  · rw [le_antisymm_iff, abs_sub_le_iff_of_lt h, abs_sub_le_iff_of_gt h, add_comm b a,
      ← le_antisymm_iff]
  · rw [le_antisymm_iff, abs_sub_le_iff_of_gt h, abs_sub_le_iff_of_lt h, add_comm b a,
      and_comm, ← le_antisymm_iff]

end Mid

/-! ### Intervals -/

variable {x y : Binary64} {q r : ℚ}

/-- The bits of another size are those of a number that `x` is compared with. -/
theorem Rounds.nearest_sizeAt (h : x.Rounds q) {i : ℕ} (hi : i ≤ infinityBits) :
    |q - x.size| ≤ |q - sizeAt i| ∧
      (sizeAt i ≠ x.size → |q - x.size| = |q - sizeAt i| → x.magnitudeBits % 2 = 0) := by
  have hbits : (ofMagnitudeBits false i).magnitudeBits = i := magnitudeBits_ofMagnitudeBits hi
  have hnumber : (ofMagnitudeBits false i).isNaN = false := by
    rwa [isNaN_eq_false_iff, hbits]
  have hsize : (ofMagnitudeBits false i).size = sizeAt i := by
    rw [size, units_eq_unitsAt, hbits, sizeAt]
  rw [← hsize, ← fraction_mod_two]
  exact ⟨h.nearest _ hnumber, h.even _ hnumber⟩

/-- What is rounded to a number is on its side of the mid points to all others. -/
theorem rounds_iff : x.Rounds q ↔ x.magnitudeBits ≤ infinityBits ∧
    (∀ i < x.magnitudeBits, Yields x.magnitudeBits (mid x.magnitudeBits i) q) ∧
    ∀ j > x.magnitudeBits, j ≤ infinityBits →
      Yields x.magnitudeBits q (mid x.magnitudeBits j) := by
  rw [← isNaN_eq_false_iff]
  constructor
  · intro h
    have hx := isNaN_eq_false_iff.mp h.number
    refine ⟨h.number, fun i hi => ?_, fun j hj hj' => ?_⟩
    · obtain ⟨hnearest, heven⟩ := h.nearest_sizeAt (i := i) (by omega)
      have hlt : sizeAt i < x.size := sizeAt_strictMono hi
      exact ((abs_sub_le_iff_of_gt hlt).mp hnearest).lt_or_eq.imp_right fun h =>
        ⟨h, heven hlt.ne ((abs_sub_eq_iff_of_ne hlt.ne').mpr h.symm)⟩
    · obtain ⟨hnearest, heven⟩ := h.nearest_sizeAt hj'
      have hlt : x.size < sizeAt j := sizeAt_strictMono hj
      exact ((abs_sub_le_iff_of_lt hlt).mp hnearest).lt_or_eq.imp_right fun h =>
        ⟨h, heven hlt.ne' ((abs_sub_eq_iff_of_ne hlt.ne).mpr h)⟩
  · rintro ⟨hnumber, hbelow, habove⟩
    refine ⟨hnumber, fun y hy => ?_, fun y hy hne heq => ?_⟩ <;>
      rw [isNaN_eq_false_iff] at hy
    · rcases lt_trichotomy y.magnitudeBits x.magnitudeBits with h | h | h
      · exact (abs_sub_le_iff_of_gt (sizeAt_strictMono h)).mpr (hbelow _ h).le
      · rw [size, size, units_inj.mpr h]
      · exact (abs_sub_le_iff_of_lt (sizeAt_strictMono h)).mpr (habove _ h hy).le
    · have hq := (abs_sub_eq_iff_of_ne hne.symm).mp heq
      rw [fraction_mod_two]
      rcases lt_trichotomy y.magnitudeBits x.magnitudeBits with h | h | h
      · exact ((hbelow _ h).resolve_left fun h => h.ne' hq).2
      · exact absurd (congrArg sizeAt h) hne
      · exact ((habove _ h hy).resolve_left fun h => h.ne hq).2

theorem rounds_size (h : x.isNaN = false) : x.Rounds x.size where
  number := h
  nearest y _ := by simp
  even y _ hne heq := by
    rw [sub_self, abs_zero, eq_comm, abs_eq_zero, sub_eq_zero] at heq
    exact absurd heq.symm hne

/-- Sizes between two that are rounded to a number are rounded to it as well. -/
theorem Rounds.convex {q' : ℚ} (h : x.Rounds q) (h' : x.Rounds q') (hr : q ≤ r) (hr' : r ≤ q') :
    x.Rounds r := by
  rw [rounds_iff] at *
  exact ⟨h.1, fun i hi => (h.2.1 i hi).trans_le hr, fun j hj hj' => .of_le hr' (h'.2.2 j hj hj')⟩

/-- Rounding keeps the order. -/
theorem Rounds.units_le (hx : x.Rounds q) (hy : y.Rounds r) (h : q ≤ r) : x.units ≤ y.units := by
  rw [rounds_iff] at hx hy
  by_contra hlt
  rw [not_le, units_lt_iff] at hlt
  have hqx := hx.2.1 _ hlt
  have hry := hy.2.2 _ hlt hx.1
  rw [mid_comm] at hqx
  -- both are at the mid point, so both numbers are even and another one is between them
  have hqr : q = r := le_antisymm h (hry.le.trans hqx.le)
  subst hqr
  have hxeven := (hqx.resolve_left hry.le.not_gt).2
  have hyeven := (hry.resolve_left hqx.le.not_gt).2
  have hnext := (hy.2.2 (y.magnitudeBits + 1) (by omega) (by omega)).le
  exact absurd (hqx.le.trans hnext) (mid_lt_mid_right (by omega)).not_ge

theorem Rounds.lt (hx : x.Rounds q) (hy : y.Rounds r) (h : x.units < y.units) : q < r := by
  by_contra hle
  exact absurd (hy.units_le hx (not_lt.mp hle)) h.not_ge

/-- A size is rounded to one number only, up to the sign. -/
theorem Rounds.units_eq (hx : x.Rounds q) (hy : y.Rounds q) : x.units = y.units :=
  le_antisymm (hx.units_le hy le_rfl) (hy.units_le hx le_rfl)

theorem Rounds.of_units_eq (h : x.Rounds q) (hunits : x.units = y.units) : y.Rounds q := by
  rwa [rounds_iff, ← units_inj.mp hunits, ← rounds_iff]

theorem yields_fraction {a b : ℚ} :
    Yields x.fraction a b ↔ Yields x.magnitudeBits a b := by
  rw [Yields, Yields, fraction_mod_two]

/-- The sizes that are rounded to a number reach half way to its neighbours. -/
theorem rounds_iff_interval (hfinite : x.isFinite = true) (hzero : x.isZero = false) :
    x.Rounds q ↔ Yields x.fraction ((2 * x.units - x.spacingBelow : ℕ) / 2 ^ 1075) q ∧
      Yields x.fraction q ((2 * x.units + x.spacing : ℕ) / 2 ^ 1075) := by
  obtain ⟨m, hm⟩ := exists_magnitudeBits_eq_succ hzero
  rw [isFinite_iff, hm] at hfinite
  have hunits : x.units = unitsAt m + spacingAt m := by
    rw [units_eq_unitsAt, hm, unitsAt_succ]
  have hbelow : mid (m + 1) m = (2 * x.units - x.spacingBelow : ℕ) / 2 ^ 1075 := by
    rw [mid_eq_div, unitsAt_succ, hunits, spacingBelow_eq_spacingAt hm]
    congr 2
    omega
  have habove : mid (m + 1) (m + 2) = (2 * x.units + x.spacing : ℕ) / 2 ^ 1075 := by
    rw [mid_eq_div, unitsAt_succ (m + 1), spacing_eq_spacingAt, units_eq_unitsAt, hm]
    congr 2
    omega
  rw [rounds_iff, yields_fraction, yields_fraction, ← hbelow, ← habove, hm]
  constructor
  · rintro ⟨-, hless, hmore⟩
    exact ⟨hless m (by omega), hmore (m + 2) (by omega) (by omega)⟩
  · rintro ⟨hless, hmore⟩
    exact ⟨hfinite.le, fun i hi => .of_le (mid_le_mid_right (by omega)) hless,
      fun j hj _ => .trans_le hmore (mid_le_mid_right (by omega))⟩

end Binary64

end StyleTemplate
