/-
  **The shortest decimal that reads back.**

  Of all decimals that are rounded to a number some have fewest digits, and of these one is
  nearest to the number; of two it is the greater one.  That is all there is to the
  shortest decimal, and it leaves no choice (`Decimal.IsShortest.unique`).

  The search for it goes through the grids of one, two, … digits below the leading digit
  and looks at two neighbours only.  Nothing is missed: sizes between a decimal that reads
  back and the number read back too, so there is a hit on a grid if and only if one of the
  neighbours is one (`Decimal.ofGrid?_spec`), and a decimal with another leading exponent
  can be replaced by the power of ten between (`Decimal.exists_on_grid`).  Seventeen digits
  are always enough, since 10^16 is more than 2^53 (`Decimal.exists_rounds_of_seventeen`).
-/
import StyleTemplate.Proofs.Number.Reading

namespace StyleTemplate

open Binary64

/-! ### Approximations -/

/-- The first of two approximations is nearer, or it is as near and not less. -/
def Nearer (s p q : ℚ) : Prop :=
  |p - s| < |q - s| ∨ |p - s| = |q - s| ∧ q ≤ p

section Nearer

variable {s p q r : ℚ}

theorem Nearer.refl (s p : ℚ) : Nearer s p p := .inr ⟨rfl, le_rfl⟩

theorem Nearer.trans (hpq : Nearer s p q) (hqr : Nearer s q r) : Nearer s p r := by
  rcases hpq with h | ⟨h, hle⟩ <;> rcases hqr with h' | ⟨h', hle'⟩
  · exact .inl (h.trans h')
  · exact .inl (h.trans_eq h')
  · exact .inl (h.trans_lt h')
  · exact .inr ⟨h.trans h', hle'.trans hle⟩

theorem Nearer.antisymm (hpq : Nearer s p q) (hqp : Nearer s q p) : p = q := by
  rcases hpq with h | ⟨h, hle⟩ <;> rcases hqp with h' | ⟨h', hle'⟩
  · exact absurd h h'.not_gt
  · exact absurd h'.symm h.ne
  · exact absurd h.symm h'.ne
  · exact le_antisymm hle' hle

theorem nearer_of_le_of_le (hq : q ≤ p) (hp : p ≤ s) : Nearer s p q := by
  rcases hq.eq_or_lt with rfl | hq
  · exact .refl s q
  · left
    rw [abs_of_nonpos (by linarith), abs_of_nonpos (by linarith)]
    linarith

theorem nearer_of_ge_of_ge (hp : s ≤ p) (hq : p ≤ q) : Nearer s p q := by
  rcases eq_or_lt_of_le hq with rfl | hq
  · exact .refl s p
  · left
    rw [abs_of_nonneg (by linarith), abs_of_nonneg (by linarith)]
    linarith

/-- Of two sizes around a third the lesser is nearer if its distance is less. -/
theorem nearer_of_sub_lt_sub (hp : p ≤ s) (h : s - p < q - s) : Nearer s p q := by
  left
  rw [abs_of_nonpos (by linarith), abs_of_nonneg (by linarith)]
  linarith

theorem nearer_of_sub_le_sub (hp : p ≤ s) (hq : s ≤ q) (h : q - s ≤ s - p) : Nearer s q p := by
  rw [Nearer, abs_of_nonpos (by linarith : p - s ≤ 0), abs_of_nonneg (by linarith : 0 ≤ q - s)]
  rcases h.lt_or_eq with h | h
  · exact .inl (by linarith)
  · exact .inr ⟨by linarith, hp.trans hq⟩

end Nearer

theorem exists_least_of_findSome? {α : Type} {f : ℕ → Option α} {n : ℕ} {a : α}
    (h : (List.range n).findSome? f = some a) :
    ∃ k < n, f k = some a ∧ ∀ j < k, f j = none := by
  induction n with
  | zero => simp at h
  | succ n ih =>
    rw [List.range_succ, List.findSome?_append] at h
    cases hfront : (List.range n).findSome? f with
    | some b =>
      simp only [hfront] at h
      obtain ⟨k, hk, hfound⟩ := ih (hfront.trans h)
      exact ⟨k, by omega, hfound⟩
    | none => exact ⟨n, by omega, by simpa [hfront] using h, by simpa using hfront⟩

namespace Decimal

/-- The shortest decimal that reads back as a number, the nearest one of those. -/
structure IsShortest (d : Decimal) (x : Binary64) : Prop where
  rounds : x.Rounds d.value
  fewest : ∀ e : Decimal, x.Rounds e.value →
    digitCount d.coefficient ≤ digitCount e.coefficient
  nearest : ∀ e : Decimal, x.Rounds e.value →
    digitCount e.coefficient = digitCount d.coefficient → Nearer x.size d.value e.value

variable {d e : Decimal} {x : Binary64}

theorem IsShortest.coefficient_ne_zero (h : d.IsShortest x) (hzero : x.isZero = false) :
    d.coefficient ≠ 0 := by
  intro hd
  have hbits : (ofMagnitudeBits false 0).magnitudeBits = 0 :=
    magnitudeBits_ofMagnitudeBits (Nat.zero_le _)
  have hread : (ofMagnitudeBits false 0).Rounds d.value := by
    apply rounds_of_lt hbits
    rw [value, hd, Nat.cast_zero, zero_mul]
    positivity
  have hunits := h.rounds.units_eq hread
  rw [units_inj, hbits] at hunits
  exact (isZero_eq_false_iff.mp hzero).ne' hunits

/-- The shortest decimal has no zero at its end. -/
theorem IsShortest.coefficient_mod_ten (h : d.IsShortest x) (hzero : x.isZero = false) :
    d.coefficient % 10 ≠ 0 := by
  intro hmod
  have hd := h.coefficient_ne_zero hzero
  have hcount : digitCount d.coefficient = digitCount (d.coefficient / 10) + 1 := by
    rw [digitCount, if_neg (by omega)]
  have hvalue : value ⟨d.coefficient / 10, d.exponent + 1⟩ = d.value := by
    rw [← value_trim d, trim, dif_pos ⟨hd, hmod⟩, value_trim]
  have := h.fewest ⟨d.coefficient / 10, d.exponent + 1⟩ (hvalue ▸ h.rounds)
  dsimp only at this
  omega

theorem IsShortest.unique (hd : d.IsShortest x) (he : e.IsShortest x) (hzero : x.isZero = false) :
    d = e := by
  have hcount : digitCount d.coefficient = digitCount e.coefficient :=
    le_antisymm (hd.fewest e he.rounds) (he.fewest d hd.rounds)
  exact eq_of_value_eq (hd.coefficient_mod_ten hzero) (he.coefficient_mod_ten hzero)
    ((hd.nearest e he.rounds hcount.symm).antisymm (he.nearest d hd.rounds hcount))

/-! ### Grids -/

theorem div_le_grid_iff (n c k : ℕ) (g : ℤ) : (n / 2 ^ k : ℚ) ≤ c * 10 ^ g ↔
    n * (tenPower g).2 ≤ c * (Nat.pow 2 k * (tenPower g).1) := by
  have hb : (0 : ℚ) < (tenPower g).2 := Nat.cast_pos.mpr (tenPower_pos g).2
  rw [Nat.pow_eq, ← tenPower_div, mul_div_assoc', div_le_div_iff₀ (by positivity) hb,
    mul_comm (2 ^ k), ← mul_assoc]
  exact_mod_cast Iff.rfl

theorem grid_le_div_iff (n c k : ℕ) (g : ℤ) : (c * 10 ^ g : ℚ) ≤ n / 2 ^ k ↔
    c * (Nat.pow 2 k * (tenPower g).1) ≤ n * (tenPower g).2 := by
  have hb : (0 : ℚ) < (tenPower g).2 := Nat.cast_pos.mpr (tenPower_pos g).2
  rw [Nat.pow_eq, ← tenPower_div, mul_div_assoc', div_le_div_iff₀ hb (by positivity),
    mul_comm (2 ^ k), ← mul_assoc]
  exact_mod_cast Iff.rfl

theorem mul_size_eq_div (n : ℕ) : n * x.size = (n * (2 * x.units) : ℕ) / 2 ^ 1075 := by
  rw [size, pow_succ (2 : ℚ) 1074, Nat.cast_mul, Nat.cast_mul, Nat.cast_ofNat, mul_comm (2 : ℚ),
    ← mul_assoc, mul_div_mul_right _ _ (by norm_num), mul_div_assoc']

/-- The two points that the search looks at are the neighbours of the number. -/
theorem neighbours_spec (x : Binary64) {g : ℤ} {value step lower : ℕ}
    (hvalue : value = 2 * x.units * (tenPower g).2)
    (hstep : step = Nat.pow 2 1075 * (tenPower g).1) (hlower : lower = value / step) :
    (lower * 10 ^ g : ℚ) ≤ x.size ∧ x.size ≤ (lower + 1 : ℕ) * 10 ^ g ∧
      (value - lower * step < (lower + 1) * step - value ↔
        x.size - lower * 10 ^ g < (lower + 1 : ℕ) * 10 ^ g - x.size) := by
  have hsize := fun n c => grid_le_div_iff (n * (2 * x.units)) c 1075 g
  simp only [← mul_size_eq_div] at hsize
  generalize 1075 = k at *
  simp only [← hstep, Nat.mul_assoc _ (2 * x.units), ← hvalue] at hsize
  have hpos : 0 < step := hstep ▸ Nat.mul_pos (Nat.two_pow_pos k) (tenPower_pos g).1
  have hbelow : lower * step ≤ value := hlower ▸ Nat.div_mul_le_self value step
  have habove : value < (lower + 1) * step := by
    rw [hlower, Nat.mul_comm]
    exact Nat.lt_mul_div_succ value hpos
  refine ⟨?_, ?_, ?_⟩
  · have := (hsize 1 lower).mpr (by rwa [Nat.one_mul])
    rwa [Nat.cast_one, one_mul] at this
  · have := (hsize 1 (lower + 1)).not.mpr (by rw [Nat.one_mul]; exact habove.not_ge)
    rw [Nat.cast_one, one_mul, not_le] at this
    exact this.le
  · have htwice := hsize 2 (lower + (lower + 1))
    rw [Nat.add_mul, Nat.cast_add, add_mul, Nat.cast_ofNat] at htwice
    constructor
    · intro h
      have := htwice.not.mpr (by omega)
      linarith
    · intro h
      have := htwice.not.mp (by linarith)
      omega

/-- Below a number the grid point next to it is the best one, and reads back if one does. -/
theorem rounds_grid_below {c lower : ℕ} {g : ℤ} (hlower : (lower * 10 ^ g : ℚ) ≤ x.size)
    (hc : c ≤ lower) (h : x.Rounds (c * 10 ^ g)) :
    x.Rounds (lower * 10 ^ g) ∧ Nearer x.size (lower * 10 ^ g) (c * 10 ^ g) := by
  have hle : (c * 10 ^ g : ℚ) ≤ lower * 10 ^ g := by gcongr
  exact ⟨h.convex (rounds_size h.number) hle hlower, nearer_of_le_of_le hle hlower⟩

/-- Above a number it is the same. -/
theorem rounds_grid_above {c upper : ℕ} {g : ℤ} (hupper : x.size ≤ (upper * 10 ^ g : ℚ))
    (hc : upper ≤ c) (h : x.Rounds (c * 10 ^ g)) :
    x.Rounds (upper * 10 ^ g) ∧ Nearer x.size (upper * 10 ^ g) (c * 10 ^ g) := by
  have hle : (upper * 10 ^ g : ℚ) ≤ c * 10 ^ g := by gcongr
  exact ⟨(rounds_size h.number).convex h hupper hle, nearer_of_ge_of_ge hupper hle⟩

section Grid

variable (hfinite : x.isFinite = true) (hzero : x.isZero = false)
include hfinite hzero

/-- What the search tests in whole numbers is whether a point is read as `x`. -/
theorem rounds_grid_iff (c : ℕ) (g : ℤ) : x.Rounds (c * 10 ^ g) ↔
    if x.fraction % 2 = 0 then
      (2 * x.units - x.spacingBelow) * (tenPower g).2 ≤ c * (Nat.pow 2 1075 * (tenPower g).1) ∧
        c * (Nat.pow 2 1075 * (tenPower g).1) ≤ (2 * x.units + x.spacing) * (tenPower g).2
    else
      (2 * x.units - x.spacingBelow) * (tenPower g).2 < c * (Nat.pow 2 1075 * (tenPower g).1) ∧
        c * (Nat.pow 2 1075 * (tenPower g).1) < (2 * x.units + x.spacing) * (tenPower g).2 := by
  rw [rounds_iff_interval hfinite hzero, yields_iff, yields_iff]
  generalize 1075 = k
  split_ifs
  · rw [div_le_grid_iff, grid_le_div_iff]
  · rw [← not_le, ← not_le, div_le_grid_iff, grid_le_div_iff, not_le, not_le]

/-- What the search gives is one of the two neighbours, the nearer one if both read back. -/
theorem exists_ofGrid?_eq (g : ℤ) : ∃ lower : ℕ,
    (lower * 10 ^ g : ℚ) ≤ x.size ∧ x.size ≤ (lower + 1 : ℕ) * 10 ^ g ∧
    (ofGrid? x g = none ∧ ¬ x.Rounds (lower * 10 ^ g) ∧ ¬ x.Rounds ((lower + 1 : ℕ) * 10 ^ g) ∨
      ofGrid? x g = some ⟨lower, g⟩ ∧ x.Rounds (lower * 10 ^ g) ∧
        (x.Rounds ((lower + 1 : ℕ) * 10 ^ g) →
          x.size - lower * 10 ^ g < (lower + 1 : ℕ) * 10 ^ g - x.size) ∨
      ofGrid? x g = some ⟨lower + 1, g⟩ ∧ x.Rounds ((lower + 1 : ℕ) * 10 ^ g) ∧
        (x.Rounds (lower * 10 ^ g) →
          (lower + 1 : ℕ) * 10 ^ g - x.size ≤ x.size - lower * 10 ^ g)) := by
  have hreads := fun c => rounds_grid_iff hfinite hzero c g
  have hneighbours := fun value step lower => @neighbours_spec x g value step lower
  rw [ofGrid?]
  rcases hpow : tenPower g with ⟨a, b⟩
  simp only [hpow] at hreads hneighbours
  simp -zeta only
  generalize 1075 = k at * -- a power that nothing evaluates
  extract_lets value step low high closed readsBack lower upper point
  have hreadsBack : ∀ c, readsBack c = true ↔ x.Rounds (c * 10 ^ g) := by
    intro c
    rw [hreads]
    simp only [readsBack, closed, beq_iff_eq]
    split_ifs <;> simp only [Bool.and_eq_true, decide_eq_true_eq, low, high, step]
  obtain ⟨hlower, hupper, hcloser⟩ := hneighbours value step lower rfl rfl rfl
  refine ⟨lower, hlower, hupper, ?_⟩
  rw [← hreadsBack, ← hreadsBack, ← hcloser, ← not_lt, ← hcloser]
  change _ ∧ _ ∧ ¬ readsBack upper = true ∨ _ ∧ _ ∧ (readsBack upper = true → _) ∨
    _ ∧ readsBack upper = true ∧ _
  cases readsBack lower <;> cases readsBack upper
  · exact .inl ⟨rfl, Bool.false_ne_true, Bool.false_ne_true⟩
  · exact .inr (.inr ⟨rfl, rfl, fun h => absurd h Bool.false_ne_true⟩)
  · exact .inr (.inl ⟨rfl, rfl, fun h => absurd h Bool.false_ne_true⟩)
  · by_cases hless : value - lower * step < upper * step - value
    · exact .inr (.inl ⟨by simp only [if_pos hless, point], rfl, fun _ => hless⟩)
    · exact .inr (.inr ⟨by simp only [if_neg hless, point, upper], rfl, fun _ => hless⟩)

theorem ofGrid?_spec (g : ℤ) : match ofGrid? x g with
    | none => ∀ c : ℕ, ¬ x.Rounds (c * 10 ^ g)
    | some d => x.Rounds d.value ∧ d.value ≤ x.size + 10 ^ g ∧ d.exponent = g ∧
        ∀ c : ℕ, x.Rounds (c * 10 ^ g) → Nearer x.size d.value (c * 10 ^ g) := by
  obtain ⟨lower, hlower, hupper, hcases⟩ := exists_ofGrid?_eq hfinite hzero g
  -- a point that reads back leads to the neighbour on its side
  have hside : ∀ c : ℕ, x.Rounds (c * 10 ^ g) →
      (x.Rounds (lower * 10 ^ g) ∧ Nearer x.size (lower * 10 ^ g) (c * 10 ^ g)) ∨
      (x.Rounds ((lower + 1 : ℕ) * 10 ^ g) ∧
        Nearer x.size ((lower + 1 : ℕ) * 10 ^ g) (c * 10 ^ g)) := by
    intro c hc
    rcases Nat.lt_or_ge lower c with h | h
    · exact .inr (rounds_grid_above hupper h hc)
    · exact .inl (rounds_grid_below hlower h hc)
  have hg : (0 : ℚ) < 10 ^ g := by positivity
  have hnext : ((lower + 1 : ℕ) * 10 ^ g : ℚ) = lower * 10 ^ g + 10 ^ g := by
    rw [Nat.cast_succ, add_mul, one_mul]
  rcases hcases with ⟨hnone, hl, hu⟩ | ⟨hsome, hl, hless⟩ | ⟨hsome, hu, hless⟩
  · rw [hnone]
    intro c hc
    exact (hside c hc).elim (fun h => hl h.1) fun h => hu h.1
  · rw [hsome]
    refine ⟨hl, by rw [value]; linarith, rfl, fun c hc => ?_⟩
    rcases hside c hc with ⟨-, h⟩ | ⟨hu, h⟩
    · exact h
    · exact (nearer_of_sub_lt_sub hlower (hless hu)).trans h
  · rw [hsome]
    refine ⟨hu, by rw [value]; linarith, rfl, fun c hc => ?_⟩
    rcases hside c hc with ⟨hl, h⟩ | ⟨-, h⟩
    · exact (nearer_of_sub_le_sub hlower hupper (hless hl)).trans h
    · exact h

/-- Points that are closer to each other than the ends of an interval do not miss it. -/
theorem exists_rounds_of_lt {p : ℚ} (hp : 0 < p)
    (h : p < (x.spacingBelow + x.spacing : ℕ) / 2 ^ 1075) : ∃ c : ℕ, x.Rounds (c * p) := by
  have hsize := mul_size_eq_div (x := x) 1
  obtain ⟨hpos, hspacing, hunits, -⟩ := spacingBelow_bounds hzero
  rw [Nat.cast_one, one_mul, Nat.one_mul] at hsize
  have hwidth : (x.spacingBelow + x.spacing : ℕ) / 2 ^ 1075 =
      ((2 * x.units + x.spacing : ℕ) - (2 * x.units - x.spacingBelow : ℕ) : ℚ) / 2 ^ 1075 := by
    rw [← Nat.cast_sub (by omega)]
    congr 2
    omega
  have hlow : ((2 * x.units - x.spacingBelow : ℕ) / 2 ^ 1075 : ℚ) < x.size := by
    rw [hsize]
    gcongr
    omega
  have hhigh : x.size < ((2 * x.units + x.spacing : ℕ) / 2 ^ 1075 : ℚ) := by
    rw [hsize]
    gcongr
    omega
  have hpoint : (⌊x.size / p⌋₊ * p : ℚ) ≤ x.size := by
    rw [← le_div_iff₀ hp]
    exact Nat.floor_le (div_nonneg (hsize ▸ by positivity) hp.le)
  have hnext : x.size < (⌊x.size / p⌋₊ + 1 : ℕ) * p := by
    rw [← div_lt_iff₀ hp, Nat.cast_succ]
    exact Nat.lt_floor_add_one _
  simp only [rounds_iff_interval hfinite hzero]
  rw [hwidth, sub_div] at h
  generalize ((2 * x.units - x.spacingBelow : ℕ) / 2 ^ 1075 : ℚ) = low at *
  generalize ((2 * x.units + x.spacing : ℕ) / 2 ^ 1075 : ℚ) = high at *
  rcases lt_or_ge low (⌊x.size / p⌋₊ * p) with hinside | houtside
  · exact ⟨_, .inl hinside, .inl (hpoint.trans_lt hhigh)⟩
  · refine ⟨_, .inl (hlow.trans hnext), .inl ?_⟩
    rw [Nat.cast_succ, add_mul, one_mul]
    linarith

end Grid

/-! ### The search -/

/-- A decimal that reads back leads to a point that does on the grid of as many digits. -/
theorem exists_on_grid {leading : ℤ} (hlow : (10 : ℚ) ^ leading ≤ x.size)
    (hhigh : x.size < 10 ^ (leading + 1)) {k : ℕ} (h : x.Rounds e.value)
    (hcount : digitCount e.coefficient ≤ k + 1) :
    ∃ c : ℕ, x.Rounds (c * 10 ^ (leading - k)) ∧
      Nearer x.size (c * 10 ^ (leading - k)) e.value := by
  have hrounds := rounds_size h.number
  -- the powers of ten around the number are on all grids
  have hpower : ∀ more : ℕ,
      ((10 ^ (k + more) : ℕ) * 10 ^ (leading - k) : ℚ) = 10 ^ (leading + more) := by
    intro more
    rw [Nat.cast_pow, Nat.cast_ofNat, ← zpow_natCast, ← zpow_add₀ (by norm_num)]
    congr 1
    omega
  rcases lt_or_ge e.value (10 ^ leading) with hless | hless
  · refine ⟨10 ^ (k + 0), ?_⟩
    rw [hpower, Nat.cast_zero, add_zero]
    exact ⟨h.convex hrounds hless.le hlow, nearer_of_le_of_le hless.le hlow⟩
  rcases le_or_gt (10 ^ (leading + 1)) e.value with hmore | hmore
  · refine ⟨10 ^ (k + 1), ?_⟩
    rw [hpower, Nat.cast_one]
    exact ⟨hrounds.convex h hhigh.le hmore, nearer_of_ge_of_ge hhigh.le hmore⟩
  · have he : e.coefficient ≠ 0 := by
      intro hzero
      rw [value, hzero, Nat.cast_zero, zero_mul] at hless
      exact absurd (zpow_pos (by norm_num : (0 : ℚ) < 10) leading) hless.not_gt
    have hleading : e.leadingExponent = leading := by
      have := (le_leadingExponent_iff he).mpr hless
      have := (leadingExponent_lt_iff he).mpr hmore
      omega
    obtain ⟨c, hc⟩ := exists_value_eq_of_digitCount_le hcount
    rw [hleading] at hc
    exact ⟨c, hc ▸ h, hc ▸ .refl x.size e.value⟩

/-- Seventeen digits are always enough. -/
theorem exists_rounds_of_seventeen (hfinite : x.isFinite = true) (hzero : x.isZero = false)
    {leading : ℤ} (hlow : (10 : ℚ) ^ leading ≤ x.size) :
    ∃ c : ℕ, x.Rounds (c * 10 ^ (leading - 16)) := by
  apply exists_rounds_of_lt hfinite hzero (by positivity)
  obtain ⟨hpos, hspacing, -, hunits⟩ := spacingBelow_bounds hzero
  have hsize := mul_size_eq_div (x := x) 1
  rw [Nat.cast_one, one_mul, Nat.one_mul] at hsize
  have hgreater : 2 * x.units < 10 ^ 16 * (x.spacingBelow + x.spacing) := by
    rw [fractions_eq] at hunits
    omega
  have hpower : (10 : ℚ) ^ (leading - 16) * 10 ^ 16 = 10 ^ leading := by
    rw [← zpow_natCast, ← zpow_add₀ (by norm_num)]
    congr 1
    omega
  refine lt_of_mul_lt_mul_right ?_ (by positivity : (0 : ℚ) ≤ 10 ^ 16)
  calc (10 ^ (leading - 16) * 10 ^ 16 : ℚ) ≤ (2 * x.units : ℕ) / 2 ^ 1075 := by
        rwa [hpower, ← hsize]
    _ < (10 ^ 16 * (x.spacingBelow + x.spacing) : ℕ) / 2 ^ 1075 := by gcongr
    _ = ((x.spacingBelow + x.spacing : ℕ) / 2 ^ 1075 : ℚ) * 10 ^ 16 := by
        rw [Nat.cast_mul, Nat.cast_pow, Nat.cast_ofNat, mul_div_assoc, mul_comm]

/-- The search gives the first hit without the zeros at its end. -/
theorem exists_ofBinary64_eq (hfinite : x.isFinite = true) (hzero : x.isZero = false) :
    ∃ leading : ℤ, (10 : ℚ) ^ leading ≤ x.size ∧ x.size < 10 ^ (leading + 1) ∧
      ∃ k : ℕ, ∃ d, ofGrid? x (leading - k) = some d ∧
        (∀ j < k, ofGrid? x (leading - j) = none) ∧ ofBinary64 x = d.trim := by
  obtain ⟨hpos, -, hunits, -⟩ := spacingBelow_bounds hzero
  have hleading : (10 : ℚ) ^ exponentOfRatio x.units (Nat.pow 2 1074) ≤ x.size ∧
      x.size < 10 ^ (exponentOfRatio x.units (Nat.pow 2 1074) + 1) := by
    rw [size]
    generalize 1074 = k
    have := exponentOfRatio_spec (hpos.trans_le hunits) (Nat.two_pow_pos k)
    rwa [Nat.cast_pow, Nat.cast_ofNat] at this
  rw [ofBinary64]
  generalize exponentOfRatio x.units (Nat.pow 2 1074) = leading at *
  obtain ⟨c, hc⟩ := exists_rounds_of_seventeen hfinite hzero hleading.1
  refine ⟨leading, hleading.1, hleading.2, ?_⟩
  cases hfound : (List.range 17).findSome? fun more : ℕ => ofGrid? x (leading - more) with
  | none =>
    have hnone : ofGrid? x (leading - 16) = none :=
      List.findSome?_eq_none_iff.mp hfound 16 (by simp)
    have hspec := ofGrid?_spec hfinite hzero (leading - 16)
    simp only [hnone] at hspec
    exact absurd hc (hspec c)
  | some d =>
    obtain ⟨k, -, hk, hbefore⟩ := exists_least_of_findSome? hfound
    exact ⟨k, d, hk, hbefore, rfl⟩

theorem isShortest_ofBinary64 (hfinite : x.isFinite = true) (hzero : x.isZero = false) :
    (ofBinary64 x).IsShortest x := by
  obtain ⟨leading, hlow, hhigh, k, d, hfound, hnone, heq⟩ := exists_ofBinary64_eq hfinite hzero
  have hspec := ofGrid?_spec hfinite hzero (leading - k)
  simp only [hfound] at hspec
  obtain ⟨hrounds, hroom, hexponent, hbest⟩ := hspec
  have hcount : digitCount d.trim.coefficient ≤ k + 1 := by
    apply digitCount_trim_le
    rw [value, hexponent] at hroom
    have hpos : (0 : ℚ) < 10 ^ (leading - k) := by positivity
    have hpower : (10 : ℚ) ^ (leading + 1) = (10 ^ (k + 1) : ℕ) * 10 ^ (leading - k) := by
      rw [Nat.cast_pow, Nat.cast_ofNat, ← zpow_natCast, ← zpow_add₀ (by norm_num)]
      congr 1
      omega
    have : (d.coefficient : ℚ) < (10 ^ (k + 1) : ℕ) + 1 := by
      rw [← mul_lt_mul_iff_of_pos_right hpos, add_mul, one_mul, ← hpower]
      linarith
    exact Nat.lt_succ_iff.mp (by exact_mod_cast this)
  have hleast : ∀ {e : Decimal}, x.Rounds e.value → k + 1 ≤ digitCount e.coefficient := by
    intro e he
    by_contra hlt
    obtain ⟨j, hj⟩ := Nat.exists_eq_add_of_le' (digitCount_pos e.coefficient)
    obtain ⟨c, hc, -⟩ := exists_on_grid hlow hhigh he hj.le
    have hspec := ofGrid?_spec hfinite hzero (leading - j)
    simp only [hnone j (by omega)] at hspec
    exact hspec c hc
  rw [heq]
  refine ⟨by rwa [value_trim], fun e he => hcount.trans (hleast he), fun e he hsame => ?_⟩
  obtain ⟨c, hc, hnearer⟩ := exists_on_grid hlow hhigh he (hsame.trans_le hcount)
  rw [value_trim]
  exact (hbest c hc).trans hnearer

end Decimal

end StyleTemplate
