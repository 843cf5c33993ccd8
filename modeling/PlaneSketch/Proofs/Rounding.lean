import Mathlib.Algebra.Order.Field.Power
import Mathlib.Algebra.Order.Field.Rat
import Mathlib.Data.Int.Log
import Mathlib.Data.Rat.Floor
import Mathlib.Tactic.Linarith
import Mathlib.Tactic.Positivity
import Mathlib.Tactic.Ring

namespace PlaneSketch.Number

/-- The nearest whole number; of two equally near ones, the even one. -/
def roundEven (x : ℚ) : ℤ :=
  if x - ⌊x⌋ < 1 / 2 ∨ (x - ⌊x⌋ = 1 / 2 ∧ Even ⌊x⌋) then ⌊x⌋ else ⌊x⌋ + 1

section

variable {x : ℚ} {n : ℤ}

theorem roundEven_eq_iff :
    roundEven x = n ↔ |x - n| ≤ 1 / 2 ∧ (|x - n| = 1 / 2 → Even n) := by
  have hlow := Int.floor_le x
  have hhigh := Int.lt_floor_add_one x
  have hbelow : |x - ⌊x⌋| = x - ⌊x⌋ := abs_of_nonneg (by linarith)
  have habove : |x - (⌊x⌋ + 1 : ℤ)| = 1 - (x - ⌊x⌋) := by
    rw [abs_of_nonpos (by push_cast; linarith)]
    push_cast
    ring
  constructor
  · rintro rfl
    unfold roundEven
    split
    · rename_i h
      rw [hbelow]
      exact ⟨h.elim (·.le) (·.1.le), fun heq => h.elim (absurd heq ·.ne) And.right⟩
    · rename_i h
      rw [not_or, not_lt, not_and] at h
      rw [habove]
      exact ⟨by linarith, fun heq => Int.even_add_one.mpr (h.2 (by linarith))⟩
  · rintro ⟨hnear, htie⟩
    obtain ⟨hlow', hhigh'⟩ := abs_le.mp hnear
    have hcases : n = ⌊x⌋ ∨ n = ⌊x⌋ + 1 := by
      have hge : ⌊x⌋ < n + 1 := by
        have : (⌊x⌋ : ℚ) < (n + 1 : ℤ) := by push_cast; linarith
        exact_mod_cast this
      have hle : n < ⌊x⌋ + 2 := by
        have : (n : ℚ) < (⌊x⌋ + 2 : ℤ) := by push_cast; linarith
        exact_mod_cast this
      omega
    unfold roundEven
    rcases hcases with rfl | rfl
    · rw [hbelow] at hnear htie
      rw [if_pos]
      exact hnear.lt_or_eq.imp_right fun heq => ⟨heq, htie heq⟩
    · rw [habove] at hnear htie
      rw [if_neg]
      rintro (h | ⟨heq, heven⟩)
      · linarith
      · exact Int.even_add_one.mp (htie (by linarith)) heven

theorem abs_sub_roundEven_le (x : ℚ) : |x - roundEven x| ≤ 1 / 2 := (roundEven_eq_iff.mp rfl).1

theorem roundEven_intCast (n : ℤ) : roundEven n = n :=
  roundEven_eq_iff.mpr ⟨by norm_num, by norm_num⟩

theorem roundEven_neg (x : ℚ) : roundEven (-x) = -roundEven x := by
  obtain ⟨hnear, htie⟩ := roundEven_eq_iff.mp (rfl : roundEven x = _)
  have habs : |-x - (-roundEven x : ℤ)| = |x - roundEven x| := by
    rw [← abs_neg]
    push_cast
    congr 1
    ring
  rw [roundEven_eq_iff, habs]
  exact ⟨hnear, fun h => (htie h).neg⟩

theorem roundEven_add_even (x : ℚ) (h : Even n) : roundEven (x + n) = roundEven x + n := by
  obtain ⟨hnear, htie⟩ := roundEven_eq_iff.mp (rfl : roundEven x = _)
  have habs : |x + n - (roundEven x + n : ℤ)| = |x - roundEven x| := by
    push_cast
    congr 1
    ring
  rw [roundEven_eq_iff, habs]
  exact ⟨hnear, fun hhalf => (htie hhalf).add h⟩

theorem le_roundEven (h : (n : ℚ) ≤ x) : n ≤ roundEven x := by
  have hnear := (abs_le.mp (abs_sub_roundEven_le x)).2
  have : (n : ℚ) < (roundEven x + 1 : ℤ) := by push_cast; linarith
  exact Int.lt_add_one_iff.mp (mod_cast this)

theorem roundEven_le (h : x ≤ n) : roundEven x ≤ n := by
  have hnear := (abs_le.mp (abs_sub_roundEven_le x)).1
  have : (roundEven x : ℚ) < (n + 1 : ℤ) := by push_cast; linarith
  exact Int.lt_add_one_iff.mp (mod_cast this)

end

def grainExponent (x : ℚ) : ℤ := max (Int.log 2 |x| - 52) (-1074)

/-- The gap between the doubles of a number's size. -/
def grain (x : ℚ) : ℚ := 2 ^ grainExponent x

/-- The double nearest to a number, as if there were no largest double. The doubles of one size are
the multiples of their gap, which is as small as 53 bits allow. -/
def nearest (x : ℚ) : ℚ := roundEven (x / grain x) * grain x

theorem log_two_eq_iff {x : ℚ} {k : ℤ} (h : 0 < x) :
    Int.log 2 x = k ↔ 2 ^ k ≤ x ∧ x < 2 ^ (k + 1) := by
  have hle := Int.zpow_le_iff_le_log one_lt_two h (x := k)
  have hlt := Int.lt_zpow_iff_log_lt one_lt_two h (x := k + 1)
  rw [Nat.cast_ofNat] at hle hlt
  rw [hle, hlt]
  omega

theorem grainExponent_eq {x : ℚ} {k : ℤ} (hlow : 2 ^ (52 + k) ≤ x) (hhigh : x < 2 ^ (53 + k))
    (hk : -1074 ≤ k) : grainExponent x = k := by
  have hpos : 0 < x := (zpow_pos two_pos _).trans_le hlow
  have hlog : Int.log 2 x = 52 + k :=
    (log_two_eq_iff hpos).mpr ⟨hlow, by rwa [add_right_comm]⟩
  rw [grainExponent, abs_of_pos hpos, hlog]
  omega

theorem grain_pos (x : ℚ) : 0 < grain x := zpow_pos two_pos _

theorem grainExponent_ge (x : ℚ) : -1074 ≤ grainExponent x := le_max_right _ _

theorem div_grain_lt {x : ℚ} (h : 0 < x) : x / grain x < 2 ^ 53 := by
  obtain ⟨-, hhigh⟩ := (log_two_eq_iff h).mp rfl
  have hexp : Int.log 2 x + 1 ≤ 53 + grainExponent x := by
    rw [grainExponent, abs_of_pos h]
    omega
  rw [div_lt_iff₀ (grain_pos x)]
  calc x < 2 ^ (Int.log 2 x + 1) := hhigh
    _ ≤ 2 ^ (53 + grainExponent x) := zpow_le_zpow_right₀ one_le_two hexp
    _ = 2 ^ 53 * grain x := zpow_add₀ two_ne_zero ..

theorem le_div_grain {x : ℚ} (h : 0 < x) (hg : grainExponent x ≠ -1074) :
    2 ^ 52 ≤ x / grain x := by
  obtain ⟨hlow, -⟩ := (log_two_eq_iff h).mp rfl
  have hexp : 52 + grainExponent x ≤ Int.log 2 x := by
    rw [grainExponent, abs_of_pos h] at hg ⊢
    omega
  rw [le_div_iff₀ (grain_pos x)]
  calc 2 ^ 52 * grain x = 2 ^ (52 + grainExponent x) := (zpow_add₀ two_ne_zero ..).symm
    _ ≤ 2 ^ Int.log 2 x := zpow_le_zpow_right₀ one_le_two hexp
    _ ≤ x := hlow

/-- Rounding may take one bit more than there is room for. -/
theorem roundEven_div_grain_le {x : ℚ} (h : 0 < x) : roundEven (x / grain x) ≤ 2 ^ 53 :=
  roundEven_le (mod_cast (div_grain_lt h).le)

theorem roundEven_div_grain_nonneg {x : ℚ} (h : 0 < x) : 0 ≤ roundEven (x / grain x) :=
  le_roundEven (mod_cast (div_pos h (grain_pos x)).le)

theorem le_roundEven_div_grain {x : ℚ} (h : 0 < x) :
    2 ^ 52 ≤ roundEven (x / grain x) ∨ grainExponent x = -1074 :=
  or_iff_not_imp_right.mpr fun hg => le_roundEven (mod_cast le_div_grain h hg)

theorem grainExponent_le {x : ℚ} {k : ℤ} (h : x ≠ 0) (hx : |x| < 2 ^ (k + 53))
    (hk : -1074 ≤ k) : grainExponent x ≤ k := by
  have hlog := (Int.lt_zpow_iff_log_lt one_lt_two (abs_pos.mpr h)).mp (by exact_mod_cast hx)
  rw [grainExponent]
  omega

theorem le_grainExponent {x : ℚ} {k : ℤ} (hx : 2 ^ (52 + k) ≤ |x|) : k ≤ grainExponent x := by
  have hpos : 0 < |x| := (zpow_pos two_pos _).trans_le hx
  have hlog := (Int.zpow_le_iff_le_log one_lt_two hpos).mp (by exact_mod_cast hx)
  rw [grainExponent]
  omega

theorem grain_neg (x : ℚ) : grain (-x) = grain x := by
  rw [grain, grain, grainExponent, abs_neg, grainExponent]

theorem nearest_neg (x : ℚ) : nearest (-x) = -nearest x := by
  rw [nearest, grain_neg, neg_div, roundEven_neg, Int.cast_neg, neg_mul, nearest]

theorem nearest_zero : nearest 0 = 0 := by
  rw [nearest, zero_div, ← Int.cast_zero, roundEven_intCast, Int.cast_zero, zero_mul]

theorem nearest_of_multiple {n k : ℤ} (h : |(n * 2 ^ k : ℚ)| < 2 ^ (k + 53)) (hk : -1074 ≤ k) :
    nearest (n * 2 ^ k) = n * 2 ^ k := by
  rcases eq_or_ne n 0 with rfl | hzero
  · simp [nearest_zero]
  · have hx : (n * 2 ^ k : ℚ) ≠ 0 := by positivity
    obtain ⟨d, hd⟩ := Int.le.dest (grainExponent_le hx h hk)
    have hdiv : (n * 2 ^ k / grain (n * 2 ^ k) : ℚ) = (n * 2 ^ d : ℤ) := by
      rw [grain, div_eq_iff (by positivity)]
      conv_lhs => rw [← hd, zpow_add₀ two_ne_zero, zpow_natCast]
      push_cast
      ring
    rw [nearest, hdiv, roundEven_intCast, ← hdiv, div_mul_cancel₀ _ (grain_pos _).ne']

theorem exists_multiple {x : ℚ} {k : ℤ} (h : nearest x = x) (hk : k ≤ grainExponent x) :
    ∃ n : ℤ, x = n * 2 ^ k := by
  obtain ⟨d, hd⟩ := Int.le.dest hk
  have hgrain : grain x = 2 ^ k * 2 ^ d := by
    rw [grain, ← hd, zpow_add₀ two_ne_zero, zpow_natCast]
  refine ⟨roundEven (x / grain x) * 2 ^ d, ?_⟩
  calc x = roundEven (x / grain x) * grain x := h.symm
    _ = roundEven (x / grain x) * (2 ^ k * 2 ^ d) := congrArg _ hgrain
    _ = (roundEven (x / grain x) * 2 ^ d : ℤ) * 2 ^ k := by push_cast; ring

end PlaneSketch.Number
