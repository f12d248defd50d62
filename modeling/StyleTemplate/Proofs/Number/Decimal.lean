/-
  **What decimals denote.**

  The leading exponent of a decimal says between which powers of ten it lies
  (`Decimal.le_leadingExponent_iff`), so it depends on the number alone and not on how many
  zeros its coefficient ends with.  Without such zeros there is one decimal for each number
  (`Decimal.eq_of_value_eq`).
-/
import Mathlib.Algebra.Order.Field.Power
import Mathlib.Data.Nat.Log
import Mathlib.Data.Rat.Floor
import Mathlib.Tactic.FieldSimp
import Mathlib.Tactic.Positivity
import StyleTemplate.Number.Decimal

namespace StyleTemplate

theorem digitCount_eq_log (n : ℕ) : digitCount n = Nat.log 10 n + 1 := by
  fun_induction digitCount n with
  | case1 n h => rw [Nat.log_of_lt h]
  | case2 n h ih => rw [ih, Nat.log_of_one_lt_of_le (by norm_num) (not_lt.mp h)]

theorem digitCount_pos (n : ℕ) : 0 < digitCount n := by
  rw [digitCount_eq_log]
  omega

theorem digitCount_le_iff {n k : ℕ} : digitCount n ≤ k + 1 ↔ n < 10 ^ (k + 1) := by
  rcases Nat.eq_zero_or_pos n with rfl | hn
  · simp [digitCount]
  · rw [digitCount_eq_log, Nat.add_le_add_iff_right, ← Nat.lt_add_one_iff,
      Nat.log_lt_iff_lt_pow (by norm_num) hn.ne']

/-- A power with a sign as a quotient, one side of which is 1. -/
theorem zpow_eq_pow_div_pow {b : ℚ} (hb : b ≠ 0) (e : ℤ) :
    b ^ e = b ^ e.toNat / b ^ (-e).toNat := by
  rw [← zpow_natCast, ← zpow_natCast, ← zpow_sub₀ hb]
  congr 1
  omega

namespace Decimal

/-- What a decimal denotes. -/
def value (d : Decimal) : ℚ :=
  d.coefficient * 10 ^ d.exponent

variable {d e : Decimal}

theorem value_pos (h : d.coefficient ≠ 0) : 0 < d.value := by
  have := Nat.pos_of_ne_zero h
  unfold value
  positivity

theorem tenPower_pos (e : ℤ) : 0 < (tenPower e).1 ∧ 0 < (tenPower e).2 := by
  simp [tenPower]

theorem tenPower_div (e : ℤ) : ((tenPower e).1 / (tenPower e).2 : ℚ) = 10 ^ e := by
  rw [zpow_eq_pow_div_pow (by norm_num)]
  simp [tenPower]

/-! ### Leading exponents -/

theorem value_mem_of_leadingExponent (h : d.coefficient ≠ 0) :
    (10 : ℚ) ^ d.leadingExponent ≤ d.value ∧ d.value < 10 ^ (d.leadingExponent + 1) := by
  have hleading : d.leadingExponent = Nat.log 10 d.coefficient + d.exponent := by
    rw [leadingExponent, digitCount_eq_log]
    omega
  have hlow := Nat.pow_log_le_self 10 h
  have hhigh := Nat.lt_pow_succ_log_self (b := 10) (by norm_num) d.coefficient
  rw [hleading, add_right_comm, zpow_add₀ (by norm_num), zpow_add₀ (by norm_num), value,
    zpow_natCast, ← Nat.cast_succ, zpow_natCast]
  constructor
  · gcongr
    exact_mod_cast hlow
  · gcongr
    exact_mod_cast hhigh

theorem le_leadingExponent_iff (h : d.coefficient ≠ 0) {p : ℤ} :
    p ≤ d.leadingExponent ↔ (10 : ℚ) ^ p ≤ d.value := by
  have ⟨hlow, hhigh⟩ := value_mem_of_leadingExponent h
  constructor
  · intro hp
    exact (zpow_le_zpow_right₀ (by norm_num) hp).trans hlow
  · intro hp
    have := (zpow_lt_zpow_iff_right₀ (by norm_num)).mp (hp.trans_lt hhigh)
    omega

theorem leadingExponent_lt_iff (h : d.coefficient ≠ 0) {p : ℤ} :
    d.leadingExponent < p ↔ d.value < (10 : ℚ) ^ p := by
  rw [← not_le, le_leadingExponent_iff h, not_le]

/-- A decimal of few digits lies on the grid of as many digits. -/
theorem exists_value_eq_of_digitCount_le {k : ℕ} (h : digitCount d.coefficient ≤ k + 1) :
    ∃ c : ℕ, d.value = c * (10 : ℚ) ^ (d.leadingExponent - k) := by
  obtain ⟨zeros, hzeros⟩ := Nat.exists_eq_add_of_le h
  refine ⟨d.coefficient * 10 ^ zeros, ?_⟩
  have hexponent : d.exponent = zeros + (d.leadingExponent - k) := by
    rw [leadingExponent]
    omega
  rw [value, hexponent, zpow_add₀ (by norm_num), zpow_natCast]
  push_cast
  ring

/-! ### Zeros at the end -/

theorem value_trim (d : Decimal) : d.trim.value = d.value := by
  fun_induction trim d with
  | case1 d h ih =>
    have hcoefficient : d.coefficient = 10 * (d.coefficient / 10) := by omega
    rw [ih, value, value, zpow_add₀ (by norm_num), zpow_one]
    conv_rhs => rw [hcoefficient]
    push_cast
    ring
  | case2 d h => rfl

theorem coefficient_trim_le (d : Decimal) : d.trim.coefficient ≤ d.coefficient := by
  fun_induction trim d with
  | case1 d h ih => exact ih.trans (Nat.div_le_self _ _)
  | case2 d h => exact le_rfl

/-- A power of ten has a single digit. -/
theorem digitCount_trim_le {k : ℕ} (h : d.coefficient ≤ 10 ^ (k + 1)) :
    digitCount d.trim.coefficient ≤ k + 1 := by
  rw [digitCount_le_iff]
  rcases h.lt_or_eq with h | h
  · exact (coefficient_trim_le d).trans_lt h
  · have hdiv : d.coefficient / 10 = 10 ^ k := by
      rw [h, pow_succ, Nat.mul_div_cancel _ (by norm_num)]
    have hmod : d.coefficient % 10 = 0 := by
      rw [h, pow_succ, Nat.mul_mod_left]
    rw [trim, dif_pos ⟨by rw [h]; positivity, hmod⟩]
    refine (coefficient_trim_le _).trans_lt ?_
    rw [hdiv]
    exact Nat.pow_lt_pow_right (by norm_num) (by omega)

theorem exponent_le_of_value_eq (hd : d.coefficient % 10 ≠ 0) (h : d.value = e.value) :
    e.exponent ≤ d.exponent := by
  by_contra hlt
  obtain ⟨zeros, hzeros⟩ := Int.exists_add_of_le (not_le.mp hlt).le
  have hpos : zeros ≠ 0 := by omega
  have hcoefficient : (d.coefficient : ℚ) = (e.coefficient * 10 ^ zeros : ℕ) := by
    rw [value, value, hzeros, zpow_add₀ (by norm_num), zpow_natCast] at h
    have := zpow_pos (show (0 : ℚ) < 10 by norm_num) d.exponent
    push_cast
    apply mul_right_cancel₀ this.ne'
    rw [h]
    ring
  apply hd
  rw [Nat.cast_inj.mp hcoefficient]
  exact Nat.mod_eq_zero_of_dvd (dvd_mul_of_dvd_right (dvd_pow_self 10 hpos) _)

/-- One decimal without a zero at the end for each number. -/
theorem eq_of_value_eq (hd : d.coefficient % 10 ≠ 0) (he : e.coefficient % 10 ≠ 0)
    (h : d.value = e.value) : d = e := by
  have hexponent : d.exponent = e.exponent :=
    le_antisymm (exponent_le_of_value_eq he h.symm) (exponent_le_of_value_eq hd h)
  have hcoefficient : d.coefficient = e.coefficient := by
    rw [value, value, hexponent] at h
    exact_mod_cast mul_right_cancel₀ (zpow_ne_zero _ (by norm_num)) h
  cases d
  cases e
  simp_all

/-! ### The exponent of a quotient -/

theorem exponentOfRatio_spec {n m : ℕ} (hn : 0 < n) (hm : 0 < m) :
    (10 : ℚ) ^ exponentOfRatio n m ≤ n / m ∧ (n / m : ℚ) < 10 ^ (exponentOfRatio n m + 1) := by
  have hm' : (0 : ℚ) < m := Nat.cast_pos.mpr hm
  unfold exponentOfRatio
  split
  case isTrue hle =>
    have hquotient : n / m ≠ 0 := (Nat.div_pos hle hm).ne'
    have hlow := Nat.pow_log_le_self 10 hquotient
    have hhigh := Nat.lt_pow_succ_log_self (b := 10) (by norm_num) (n / m)
    rw [Nat.le_div_iff_mul_le hm] at hlow
    rw [Nat.div_lt_iff_lt_mul hm] at hhigh
    rw [digitCount_eq_log, Nat.cast_succ, add_sub_cancel_right, ← Nat.cast_succ, zpow_natCast,
      zpow_natCast, le_div_iff₀ hm', div_lt_iff₀ hm']
    exact ⟨by exact_mod_cast hlow, by exact_mod_cast hhigh⟩
  case isFalse hlt =>
    have hquotient : (m - 1) / n ≠ 0 := (Nat.div_pos (by omega) hn).ne'
    have hlow := Nat.pow_log_le_self 10 hquotient
    have hhigh := Nat.lt_pow_succ_log_self (b := 10) (by norm_num) ((m - 1) / n)
    rw [Nat.le_div_iff_mul_le hn] at hlow
    rw [Nat.div_lt_iff_lt_mul hn] at hhigh
    set k := Nat.log 10 ((m - 1) / n)
    have hexponent : -((k + 1 : ℕ) : ℤ) + 1 = -(k : ℤ) := by omega
    rw [digitCount_eq_log, hexponent, zpow_neg, zpow_neg, zpow_natCast, zpow_natCast,
      le_div_iff₀ hm', div_lt_iff₀ hm', inv_mul_le_iff₀ (by positivity),
      lt_inv_mul_iff₀ (by positivity)]
    have hlow' : 10 ^ k * n < m := by omega
    have hhigh' : m ≤ 10 ^ (k + 1) * n := by
      rw [Nat.succ_eq_add_one] at hhigh
      omega
    exact ⟨by exact_mod_cast hhigh', by exact_mod_cast hlow'⟩

end Decimal

end StyleTemplate
