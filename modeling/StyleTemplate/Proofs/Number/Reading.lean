/-
  **A decimal is read as the number nearest to it.**

  The reader finds the exponent of the greatest power of two below the decimal, then the
  significand as a whole number rounded to nearest (`roundQuotient_spec`), and adds the two
  up (`roundRatio_spec`).  Each step is right for any exponent; cutting off at infinity
  comes last and is right as well (`rounds_of_scaled`).  So the number is the nearest one
  for every decimal there is (`Decimal.rounds_toBinary64`), and it is the only one of its
  sign (`Decimal.toBinary64_eq_iff`).
-/
import StyleTemplate.Proofs.Number.Decimal
import StyleTemplate.Proofs.Number.Rounding

namespace StyleTemplate

open Binary64

/-! ### Whole numbers -/

namespace Decimal

/-- A quotient is rounded by half at most, and by half only to an even number. -/
theorem roundQuotient_spec (n : ℕ) {m : ℕ} (hm : 0 < m) :
    Yields (roundQuotient n m) (roundQuotient n m - 1 / 2) (n / m) ∧
      Yields (roundQuotient n m) (n / m) (roundQuotient n m + 1 / 2) := by
  have hm' : (0 : ℚ) < m := Nat.cast_pos.mpr hm
  have hdiv : (n / m : ℚ) = (n / m : ℕ) + (n % m : ℕ) / m := by
    rw [eq_comm, ← mul_left_inj' hm'.ne', add_mul, div_mul_cancel₀ _ hm'.ne',
      div_mul_cancel₀ _ hm'.ne']
    exact_mod_cast Nat.div_add_mod' n m
  have hnonneg : (0 : ℚ) ≤ (n % m : ℕ) / m := by positivity
  have hless : ((n % m : ℕ) / m : ℚ) < 1 := by
    rw [div_lt_one hm']
    exact_mod_cast Nat.mod_lt n hm
  have hbelow : 2 * (n % m) < m ↔ ((n % m : ℕ) / m : ℚ) < 1 / 2 := by
    rw [div_lt_div_iff₀ hm' (by norm_num), one_mul, mul_comm]
    exact_mod_cast Iff.rfl
  have habove : m < 2 * (n % m) ↔ 1 / 2 < ((n % m : ℕ) / m : ℚ) := by
    rw [div_lt_div_iff₀ (by norm_num) hm', one_mul, mul_comm (_ : ℚ) 2]
    exact_mod_cast Iff.rfl
  simp only [roundQuotient, hdiv, hbelow, habove]
  generalize n / m = whole at *
  generalize ((n % m : ℕ) / m : ℚ) = part at *
  split_ifs with hlow hhigh
  · exact ⟨.inl (by linarith), .inl (by linarith)⟩
  · push_cast
    exact ⟨.inl (by linarith), .inl (by linarith)⟩
  · -- a tie, which goes to the even one of both
    obtain rfl : part = 1 / 2 := le_antisymm (not_lt.mp hhigh) (not_lt.mp hlow)
    rcases Nat.mod_two_eq_zero_or_one whole with heven | hodd
    · rw [heven, Nat.add_zero]
      exact ⟨.inl (by linarith), .inr ⟨rfl, heven⟩⟩
    · rw [hodd]
      push_cast
      exact ⟨.inr ⟨by ring, by omega⟩, .inl (by linarith)⟩

end Decimal

/-! ### Significands -/

namespace Binary64

theorem Yields.mul_right {m : ℕ} {a b w : ℚ} (h : Yields m a b) (hw : 0 < w) :
    Yields m (a * w) (b * w) :=
  h.imp (mul_lt_mul_of_pos_right · hw) (And.imp_left (congrArg (· * w)))

section Scaled

variable {k s : ℕ} {t : ℚ}

/-- The unit in the last place of a significand. -/
def ulp (k : ℕ) : ℚ :=
  2 ^ k / 2 ^ 1074

theorem ulp_pos (k : ℕ) : 0 < ulp k := by
  unfold ulp
  positivity

theorem sizeAt_scaled (hs : s ≤ 2 * fractions) (hk : k = 0 ∨ fractions ≤ s) :
    sizeAt (k * fractions + s) = s * ulp k := by
  rw [sizeAt, unitsAt_scaled hs hk, ulp, Nat.cast_mul, Nat.cast_pow, Nat.cast_ofNat,
    mul_div_assoc]

theorem scaled_mod_two : (k * fractions + s) % 2 = s % 2 := by
  have hfractions : fractions = 2 * 2 ^ 51 := by rw [fractions_eq]; norm_num
  rw [hfractions, Nat.mul_left_comm, Nat.mul_add_mod]

/-- The size behind is a unit away, or more where the significand was carried. -/
theorem le_mid_scaled (hs : s ≤ 2 * fractions) (hk : k = 0 ∨ fractions ≤ s) :
    (s + 1 / 2 : ℚ) * ulp k ≤
      mid (k * fractions + s) (k * fractions + s + 1) := by
  have hunit : k ≤ (k * fractions + s) / fractions - 1 := by
    rcases hk with rfl | hk
    · exact Nat.zero_le _
    · rw [Nat.le_sub_one_iff_lt (Nat.div_pos (by nlinarith) fractions_pos), Nat.lt_iff_add_one_le,
        Nat.le_div_iff_mul_le fractions_pos]
      nlinarith
  have hspacing : 2 ^ k ≤ spacingAt (k * fractions + s) :=
    Nat.pow_le_pow_right (by norm_num) hunit
  have hnext : sizeAt (k * fractions + s) + ulp k ≤ sizeAt (k * fractions + s + 1) := by
    rw [sizeAt, sizeAt, ulp, unitsAt_succ, ← add_div]
    push_cast
    gcongr
    exact_mod_cast hspacing
  rw [mid]
  rw [sizeAt_scaled hs hk] at hnext ⊢
  linarith

theorem Yields.scaled {a b : ℚ} (h : Yields s a b) :
    Yields (k * fractions + s) (a * ulp k) (b * ulp k) := by
  rw [Yields, scaled_mod_two]
  exact h.mul_right (ulp_pos k)

section Rounded

variable (hs : s ≤ 2 * fractions) (hk : k = 0 ∨ fractions ≤ s)
include hs hk

/-- What is rounded down to a significand, or not far up, is above the sizes before. -/
theorem yields_below_scaled (ht : 0 ≤ t) (ht' : k = 0 ∨ (fractions : ℚ) ≤ t)
    (hbelow : Yields s (s - 1 / 2) t) {i : ℕ} (hi : i < k * fractions + s) :
    Yields (k * fractions + s) (mid (k * fractions + s) i) (t * ulp k) := by
  rcases le_or_gt (s : ℚ) t with hle | hlt
  · -- above the size itself, whatever the distance downwards is
    have hsize : sizeAt (k * fractions + s) ≤ t * ulp k := by
      rw [sizeAt_scaled hs hk]
      exact mul_le_mul_of_nonneg_right hle (ulp_pos k).le
    have := sizeAt_strictMono hi
    exact .inl (by rw [mid]; linarith)
  · -- below it, where the size before has the same exponent
    obtain ⟨r, rfl⟩ : ∃ r, s = r + 1 := Nat.exists_eq_succ_of_ne_zero fun hzero => by
      rw [hzero, Nat.cast_zero] at hlt
      exact hlt.not_ge ht
    have hr : k = 0 ∨ fractions ≤ r := by
      refine ht'.imp_right fun ht' => ?_
      exact Nat.lt_succ_iff.mp (by exact_mod_cast ht'.trans_lt hlt)
    have hmid : mid (k * fractions + (r + 1)) (k * fractions + r) =
        ((r + 1 : ℕ) - 1 / 2) * ulp k := by
      rw [mid, sizeAt_scaled hs hk, sizeAt_scaled (by omega) hr]
      push_cast
      ring
    refine .of_le (mid_le_mid_right (k := k * fractions + r) (by omega)) ?_
    rw [hmid]
    exact hbelow.scaled

theorem yields_above_scaled (habove : Yields s t (s + 1 / 2)) {j : ℕ}
    (hj : k * fractions + s < j) :
    Yields (k * fractions + s) (t * ulp k) (mid (k * fractions + s) j) :=
  habove.scaled.trans_le ((le_mid_scaled hs hk).trans (mid_le_mid_right hj))

end Rounded

/-- A number whose bits are such a sum is the nearest one, cut off at infinity. -/
theorem rounds_of_scaled {x : Binary64} (hs : s ≤ 2 * fractions) (ht : 0 ≤ t)
    (hk : k = 0 ∨ (fractions : ℚ) ≤ t)
    (hbelow : Yields s (s - 1 / 2) t) (habove : Yields s t (s + 1 / 2))
    (hx : x.magnitudeBits = min (k * fractions + s) infinityBits) :
    x.Rounds (t * ulp k) := by
  have hk' : k = 0 ∨ fractions ≤ s := by
    refine hk.imp_right fun hk => ?_
    have : (fractions : ℚ) < s + 1 := by linarith [habove.le]
    exact Nat.lt_succ_iff.mp (by exact_mod_cast this)
  have hless : ∀ i < k * fractions + s, _ := fun i hi =>
    yields_below_scaled hs hk' ht hk hbelow hi
  have hmore : ∀ j > k * fractions + s, _ := fun j hj => yields_above_scaled hs hk' habove hj
  rw [rounds_iff, hx]
  rcases le_or_gt (k * fractions + s) infinityBits with hle | hlt
  · rw [min_eq_left hle]
    exact ⟨hle, hless, fun j hj _ => hmore j hj⟩
  · rw [min_eq_right hlt.le]
    refine ⟨le_rfl, fun i hi => .inl ?_, fun j hj hj' => absurd hj hj'.not_gt⟩
    have hinfinity := (hless infinityBits hlt).le
    rw [mid_comm] at hinfinity
    exact (mid_lt_mid_right (hi.trans hlt)).trans_le hinfinity

end Scaled

end Binary64

/-! ### Decimals -/

namespace Decimal

/-- A quotient lies within a factor of two of the power that the bit lengths suggest. -/
theorem log2_sub_log2_spec {n m : ℕ} (hn : 0 < n) (hm : 0 < m) :
    (2 : ℚ) ^ ((n.log2 : ℤ) - m.log2 - 1) < n / m ∧
      (n / m : ℚ) < 2 ^ ((n.log2 : ℤ) - m.log2 + 1) := by
  have hn' : ((2 ^ n.log2 : ℕ) : ℚ) ≤ n ∧ (n : ℚ) < (2 ^ (n.log2 + 1) : ℕ) :=
    ⟨Nat.cast_le.mpr (Nat.log2_self_le hn.ne'), Nat.cast_lt.mpr Nat.lt_log2_self⟩
  have hm' : ((2 ^ m.log2 : ℕ) : ℚ) ≤ m ∧ (m : ℚ) < (2 ^ (m.log2 + 1) : ℕ) :=
    ⟨Nat.cast_le.mpr (Nat.log2_self_le hm.ne'), Nat.cast_lt.mpr Nat.lt_log2_self⟩
  have hpow : ∀ i j : ℕ, ((2 ^ i : ℕ) / (2 ^ j : ℕ) : ℚ) = 2 ^ ((i : ℤ) - j) := by
    intro i j
    rw [zpow_sub₀ (by norm_num), zpow_natCast, zpow_natCast]
    norm_cast
  constructor
  · calc (2 : ℚ) ^ ((n.log2 : ℤ) - m.log2 - 1) = (2 ^ n.log2 : ℕ) / (2 ^ (m.log2 + 1) : ℕ) := by
          rw [hpow]
          congr 1
          omega
      _ < n / m := div_lt_div₀' hn'.1 hm'.2 (by positivity) (by positivity)
  · calc (n / m : ℚ) < (2 ^ (n.log2 + 1) : ℕ) / (2 ^ m.log2 : ℕ) :=
          div_lt_div₀ hn'.2 hm'.1 (by positivity) (by positivity)
      _ = 2 ^ ((n.log2 : ℤ) - m.log2 + 1) := by
          rw [hpow]
          congr 1
          omega

theorem two_zpow_le_div_iff {n m : ℕ} (hm : 0 < m) (e : ℤ) :
    m * 2 ^ e.toNat ≤ n * 2 ^ (-e).toNat ↔ (2 : ℚ) ^ e ≤ n / m := by
  rw [zpow_eq_pow_div_pow (by norm_num), div_le_div_iff₀ (by positivity) (by positivity),
    mul_comm m]
  exact_mod_cast Iff.rfl

theorem mul_two_pow_div (n m : ℕ) (e : ℤ) :
    ((n * 2 ^ (-e).toNat : ℕ) / (m * 2 ^ e.toNat : ℕ) : ℚ) = n / m / 2 ^ e := by
  rw [zpow_eq_pow_div_pow (by norm_num), div_div, mul_div_assoc', div_div_eq_mul_div]
  push_cast
  rfl

/-- The reader rounds in units that it finds from the greatest power of two below. -/
theorem exists_roundRatio_eq {n m : ℕ} (hn : 0 < n) (hm : 0 < m) :
    ∃ leading unit : ℤ, (2 : ℚ) ^ leading ≤ n / m ∧ (n / m : ℚ) < 2 ^ (leading + 1) ∧
      unit = max (leading - 52) (-1074) ∧
      roundRatio n m = (unit + 1074).toNat * fractions +
        roundQuotient (n * 2 ^ (-unit).toNat) (m * 2 ^ unit.toNat) := by
  obtain ⟨hlow, hhigh⟩ := log2_sub_log2_spec hn hm
  simp only [roundRatio, Nat.pow_eq, decide_eq_true_eq, two_zpow_le_div_iff hm]
  generalize (n.log2 : ℤ) - m.log2 = guess at *
  refine ⟨_, _, ?_, ?_, rfl, rfl⟩
  · split_ifs with hreaches
    · exact hreaches
    · exact hlow.le
  · split_ifs with hreaches
    · exact hhigh
    · simpa using hreaches

/-- In these units a size has 53 bits before the point, or is a multiple of the least unit. -/
theorem div_unit_spec {q : ℚ} {leading unit : ℤ} (hlow : 2 ^ leading ≤ q)
    (hhigh : q < 2 ^ (leading + 1)) (hunit : unit = max (leading - 52) (-1074)) :
    q / 2 ^ unit < 2 * fractions ∧
      ((unit + 1074).toNat = 0 ∨ (fractions : ℚ) ≤ q / 2 ^ unit) := by
  have hpos : (0 : ℚ) < 2 ^ unit := zpow_pos (by norm_num) _
  rw [div_lt_iff₀ hpos, le_div_iff₀ hpos, fractions_eq, Nat.cast_pow, Nat.cast_ofNat,
    ← pow_succ', ← zpow_natCast, ← zpow_natCast, ← zpow_add₀ (by norm_num),
    ← zpow_add₀ (by norm_num)]
  refine ⟨hhigh.trans_le (zpow_le_zpow_right₀ (by norm_num) (by omega)), ?_⟩
  rcases le_or_gt (leading - 52) (-1074) with hle | hlt
  · exact .inl (by omega)
  · exact .inr ((zpow_le_zpow_right₀ (by norm_num) (by omega)).trans hlow)

theorem ulp_toNat {unit : ℤ} (h : -1074 ≤ unit) : ulp (unit + 1074).toNat = 2 ^ unit := by
  rw [ulp, ← zpow_natCast, ← zpow_natCast, ← zpow_sub₀ (by norm_num)]
  congr 1
  omega

theorem roundRatio_spec {n m : ℕ} (hn : 0 < n) (hm : 0 < m) {x : Binary64}
    (hx : x.magnitudeBits = min (roundRatio n m) infinityBits) : x.Rounds (n / m) := by
  obtain ⟨leading, unit, hlow, hhigh, hunit, hround⟩ := exists_roundRatio_eq hn hm
  obtain ⟨hlt, hk⟩ := div_unit_spec hlow hhigh hunit
  obtain ⟨hbelow, habove⟩ :=
    roundQuotient_spec (n * 2 ^ (-unit).toNat) (m := m * 2 ^ unit.toNat) (by positivity)
  rw [hround] at hx
  rw [mul_two_pow_div] at hbelow habove
  generalize roundQuotient (n * 2 ^ (-unit).toNat) (m * 2 ^ unit.toNat) = significand at *
  have hs : significand ≤ 2 * fractions := by
    have : (significand : ℚ) < 2 * fractions + 1 := by linarith [hbelow.le]
    exact Nat.lt_succ_iff.mp (by exact_mod_cast this)
  have hvalue : (n / m : ℚ) = n / m / 2 ^ unit * ulp (unit + 1074).toNat := by
    rw [ulp_toNat (by omega), div_mul_cancel₀ _ (zpow_ne_zero _ (by norm_num))]
  rw [hvalue]
  exact rounds_of_scaled hs (by positivity) hk hbelow habove hx

/-- What is less than half of the least size is zero. -/
theorem rounds_of_lt {x : Binary64} {q : ℚ} (hx : x.magnitudeBits = 0) (hq : q < 1 / 2 ^ 1075) :
    x.Rounds q := by
  rw [rounds_iff, hx]
  refine ⟨Nat.zero_le _, fun i hi => absurd hi i.not_lt_zero, fun j hj _ => .inl ?_⟩
  have hunits : unitsAt 1 = 1 := by decide
  calc q < mid 0 1 := by simpa [mid_eq_div, hunits] using hq
    _ ≤ mid 0 j := mid_le_mid_right hj

theorem sizeAt_infinityBits : sizeAt infinityBits = 2 ^ 1024 := by
  have hbits : infinityBits = 2046 * fractions + fractions := by
    rw [infinityBits]
    ring
  rw [hbits, sizeAt_scaled (by omega) (.inr le_rfl), ulp, fractions_eq, mul_div_assoc',
    div_eq_iff (by positivity), Nat.cast_pow, Nat.cast_ofNat, ← pow_add, ← pow_add]

/-- What is as great as infinity is infinity. -/
theorem rounds_of_le {x : Binary64} {q : ℚ} (hx : x.magnitudeBits = infinityBits)
    (hq : 2 ^ 1024 ≤ q) : x.Rounds q := by
  rw [rounds_iff, hx]
  refine ⟨le_rfl, fun i hi => .inl ?_, fun j hj hj' => absurd hj hj'.not_gt⟩
  have := sizeAt_strictMono hi
  rw [← sizeAt_infinityBits] at hq
  rw [mid]
  linarith

/-- A decimal is read as the number nearest to it. -/
theorem rounds_toBinary64 (negative : Bool) (d : Decimal) :
    (d.toBinary64 negative).Rounds d.value := by
  rw [toBinary64]
  split_ifs with hsmall hgreat
  · apply rounds_of_lt (magnitudeBits_ofMagnitudeBits (Nat.zero_le _))
    by_cases hzero : d.coefficient = 0
    · simp [value, hzero]
    · calc d.value < 10 ^ (-330 : ℤ) :=
            (leadingExponent_lt_iff hzero).mp (hsmall.resolve_left hzero)
        _ ≤ 1 / 2 ^ 1075 := by
            rw [zpow_neg, ← one_div]
            apply one_div_le_one_div_of_le (by positivity)
            exact_mod_cast (by decide +kernel : 2 ^ 1075 ≤ 10 ^ 330)
  · apply rounds_of_le (magnitudeBits_ofMagnitudeBits le_rfl)
    calc (2 : ℚ) ^ 1024 ≤ 10 ^ (311 : ℤ) := by
          exact_mod_cast (by decide +kernel : 2 ^ 1024 ≤ 10 ^ 311)
      _ ≤ d.value := (le_leadingExponent_iff fun h => hsmall (.inl h)).mp (by omega)
  · obtain ⟨ha, hb⟩ := tenPower_pos d.exponent
    have hvalue : d.value =
        (d.coefficient * (tenPower d.exponent).1 : ℕ) / (tenPower d.exponent).2 := by
      rw [value, ← tenPower_div, Nat.cast_mul, mul_div_assoc]
    rw [hvalue]
    exact roundRatio_spec (Nat.mul_pos (Nat.pos_of_ne_zero fun h => hsmall (.inl h)) ha) hb
      (magnitudeBits_ofMagnitudeBits (min_le_right _ _))

theorem isNegative_toBinary64 (negative : Bool) (d : Decimal) :
    (d.toBinary64 negative).isNegative = negative := by
  rw [toBinary64]
  split_ifs
  · exact isNegative_ofMagnitudeBits (Nat.zero_le _)
  · exact isNegative_ofMagnitudeBits le_rfl
  · exact isNegative_ofMagnitudeBits (min_le_right _ _)

/-- The number that a decimal is read as is the one of its sign that it is rounded to. -/
theorem toBinary64_eq_iff {negative : Bool} {d : Decimal} {x : Binary64} :
    d.toBinary64 negative = x ↔ x.isNegative = negative ∧ x.Rounds d.value := by
  constructor
  · rintro rfl
    exact ⟨isNegative_toBinary64 negative d, rounds_toBinary64 negative d⟩
  · rintro ⟨hsign, hrounds⟩
    apply ext_magnitudeBits
    · rw [isNegative_toBinary64, hsign]
    · exact units_inj.mp ((rounds_toBinary64 negative d).units_eq hrounds)

end Decimal

end StyleTemplate
