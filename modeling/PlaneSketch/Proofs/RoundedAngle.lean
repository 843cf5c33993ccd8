import Mathlib.Tactic.LinearCombination
import Mathlib.Tactic.NormNum
import PlaneSketch.Proofs.RemainderValue
import PlaneSketch.Proofs.RoundedSum
import PlaneSketch.Proofs.Warnings

namespace PlaneSketch.Angle

open Number

variable {x : ℚ} {k : ℤ}

def coarseExponent (x : ℚ) : ℤ := if 76 ≤ x then -44 else if -52 ≤ x then -45 else -46

/-- The gap between the doubles half a turn above an angle. -/
def coarseGrain (x : ℚ) : ℚ := 2 ^ coarseExponent x

/-- What the way up leaves of an angle. -/
def coarse (x : ℚ) : ℚ := roundEven (x / coarseGrain x) * coarseGrain x

/-- Half a turn is an even number of grains, so moving an angle by it does not change how it is
rounded. -/
theorem nearest_add_180_of_grain (hk : -1074 ≤ k) (hk' : k ≤ 0) (hlow : 2 ^ (52 + k) ≤ x + 180)
    (hhigh : x + 180 < 2 ^ (53 + k)) :
    nearest (x + 180) = roundEven (x / 2 ^ k) * 2 ^ k + 180 := by
  obtain ⟨n, hn⟩ := Int.eq_ofNat_of_zero_le (show 0 ≤ -k by omega)
  have hpow : (2 : ℚ) ^ k * 2 ^ n = 1 := by
    rw [← zpow_natCast, ← hn, ← zpow_add₀ two_ne_zero, add_neg_cancel, zpow_zero]
  have hpos : (0 : ℚ) < 2 ^ k := zpow_pos two_pos k
  have hshift : (x + 180) / 2 ^ k = x / 2 ^ k + (180 * 2 ^ n : ℤ) := by
    rw [div_eq_iff hpos.ne', add_mul, div_mul_cancel₀ _ hpos.ne']
    push_cast
    linear_combination -180 * hpow
  have heven : Even (180 * 2 ^ n : ℤ) := (by decide : Even (180 : ℤ)).mul_right _
  rw [nearest, grain, grainExponent_eq hlow hhigh hk, hshift, roundEven_add_even _ heven]
  push_cast
  linear_combination 180 * hpow

theorem coarseGrain_pos (x : ℚ) : 0 < coarseGrain x := zpow_pos two_pos _

theorem coarse_eq_self_iff : coarse x = x ↔ ∃ n : ℤ, x = n * coarseGrain x := by
  refine ⟨fun h => ⟨_, h.symm⟩, ?_⟩
  rintro ⟨n, hn⟩
  have hdiv : x / coarseGrain x = n := (div_eq_iff (coarseGrain_pos x).ne').mpr hn
  rw [coarse, hdiv, roundEven_intCast, ← hn]

/-- Around zero the gap is `2 ^ (-45)`, and a tie goes to zero. -/
theorem coarse_eq_zero_iff : coarse x = 0 ↔ |x| ≤ 2 ^ (-46 : ℤ) := by
  have hpos := coarseGrain_pos x
  have hround : coarse x = 0 ↔ |x| ≤ 1 / 2 * coarseGrain x := by
    rw [coarse, mul_eq_zero_iff_right hpos.ne', Int.cast_eq_zero, roundEven_eq_iff, Int.cast_zero,
      sub_zero, abs_div, abs_of_pos hpos, div_le_iff₀ hpos, and_iff_left fun _ => Even.zero]
  rw [hround, abs_le, abs_le, coarseGrain, coarseExponent]
  split
  · constructor <;> rintro ⟨-, h⟩ <;> norm_num at h <;> linarith
  · split
    · norm_num
    · constructor <;> rintro ⟨h, -⟩ <;> norm_num at h <;> linarith

theorem coarseExponent_mem (x : ℚ) : -46 ≤ coarseExponent x ∧ coarseExponent x ≤ -44 := by
  unfold coarseExponent
  split
  · decide
  · split <;> decide

/-- Every whole number of degrees is a multiple of the gap. -/
theorem intCast_div_coarseGrain (c : ℤ) (x : ℚ) : ∃ n : ℤ, c / coarseGrain x = n := by
  obtain ⟨n, hn⟩ := Int.eq_ofNat_of_zero_le (show 0 ≤ -coarseExponent x by
    have := (coarseExponent_mem x).2
    omega)
  refine ⟨c * 2 ^ n, ?_⟩
  rw [coarseGrain, div_eq_mul_inv, ← zpow_neg, hn]
  push_cast
  rfl

theorem le_coarse {c : ℤ} (h : c ≤ x) : c ≤ coarse x := by
  obtain ⟨n, hn⟩ := intCast_div_coarseGrain c x
  have hle : n ≤ roundEven (x / coarseGrain x) :=
    le_roundEven (hn ▸ div_le_div_of_nonneg_right h (coarseGrain_pos x).le)
  rw [coarse, ← div_le_iff₀ (coarseGrain_pos x), hn]
  exact_mod_cast hle

theorem coarse_le {c : ℤ} (h : x ≤ c) : coarse x ≤ c := by
  obtain ⟨n, hn⟩ := intCast_div_coarseGrain c x
  have hle : roundEven (x / coarseGrain x) ≤ n :=
    roundEven_le (hn ▸ div_le_div_of_nonneg_right h (coarseGrain_pos x).le)
  rw [coarse, ← le_div_iff₀ (coarseGrain_pos x), hn]
  exact_mod_cast hle

/-- An angle below -116 is a multiple of the gap half a turn above it. -/
theorem coarse_of_lt (h : nearest x = x) (hlow : -180 < x) (hhigh : x < -116) :
    coarse x = x ∧ nearest (x + 180) = x + 180 := by
  have hexponent : coarseExponent x = -46 := by
    rw [coarseExponent, if_neg (by linarith), if_neg (by linarith)]
  have hgrain : -46 ≤ grainExponent x := by
    refine le_grainExponent ?_
    rw [abs_of_neg (by linarith)]
    norm_num
    linarith
  obtain ⟨n, hn⟩ := exists_multiple h hgrain
  refine ⟨coarse_eq_self_iff.mpr ⟨n, by rwa [coarseGrain, hexponent]⟩, ?_⟩
  have hsum : x + 180 = (n + 180 * 2 ^ 46 : ℤ) * 2 ^ (-46 : ℤ) := by
    push_cast
    rw [add_mul, ← hn]
    norm_num
  rw [hsum]
  refine nearest_of_multiple ?_ (by norm_num)
  rw [← hsum, abs_lt]
  norm_num
  constructor <;> linarith

/-- From -116 on, the gap is the one that rounding half a turn above sees, and what is left of the
angle is a double again. -/
theorem coarseExponent_spec (hlow : -116 ≤ x) (hhigh : x ≤ 180) :
    2 ^ (52 + coarseExponent x) ≤ x + 180 ∧ x + 180 < 2 ^ (53 + coarseExponent x) ∧
    |coarse x| < 2 ^ (coarseExponent x + 53) := by
  rw [abs_lt]
  unfold coarseExponent
  split
  · rename_i hge
    have hlow' : 76 ≤ coarse x := mod_cast @le_coarse x 76 (mod_cast hge)
    have hhigh' : coarse x ≤ 180 := mod_cast @coarse_le x 180 (mod_cast hhigh)
    refine ⟨?_, ?_, ?_, ?_⟩ <;> norm_num <;> linarith
  · rename_i hlt
    rw [not_le] at hlt
    have hhigh' : coarse x ≤ 76 := mod_cast @coarse_le x 76 (mod_cast hlt.le)
    split
    · rename_i hge
      have hlow' : -52 ≤ coarse x := mod_cast @le_coarse x (-52) (mod_cast hge)
      refine ⟨?_, ?_, ?_, ?_⟩ <;> norm_num <;> linarith
    · rename_i hlt
      rw [not_le] at hlt
      have hlow' : -116 ≤ coarse x := mod_cast @le_coarse x (-116) (mod_cast hlow)
      refine ⟨?_, ?_, ?_, ?_⟩ <;> norm_num <;> linarith

theorem nearest_add_180 (h : nearest x = x) (hlow : -180 < x) (hhigh : x ≤ 180) :
    nearest (x + 180) = coarse x + 180 ∧ nearest (coarse x) = coarse x := by
  by_cases hsmall : x < -116
  · obtain ⟨hcoarse, hnearest⟩ := coarse_of_lt h hlow hsmall
    rw [hcoarse]
    exact ⟨hnearest, h⟩
  · obtain ⟨hge, hlt, habs⟩ := coarseExponent_spec (not_lt.mp hsmall) hhigh
    obtain ⟨hk, hk'⟩ := coarseExponent_mem x
    exact ⟨nearest_add_180_of_grain (by omega) (by omega) hge hlt,
      nearest_of_multiple habs (by omega)⟩

theorem coarse_mem (h : nearest x = x) (hlow : -180 < x) (hhigh : x ≤ 180) :
    -180 < coarse x ∧ coarse x ≤ 180 := by
  refine ⟨?_, mod_cast @coarse_le x 180 (mod_cast hhigh)⟩
  by_cases hsmall : x < -116
  · rwa [(coarse_of_lt h hlow hsmall).1]
  · have hge : -116 ≤ coarse x := mod_cast @le_coarse x (-116) (mod_cast not_lt.mp hsmall)
    linarith

theorem toRat_180 : toRat 180 = 180 := by decide +kernel

theorem toRat_neg_180 : toRat (-180) = -180 := by decide +kernel

theorem toRat_zero : toRat 0 = 0 := rfl

theorem toRat_360 : toRat 360 = 360 := by decide +kernel

theorem nearest_neg_180 : nearest (-180) = -180 := by
  rw [← toRat_neg_180]
  exact nearest_toRat (by decide +kernel)

theorem abs_lt_two_pow_1023 (hlow : -360 ≤ x) (hhigh : x ≤ 360) : |x| < 2 ^ 1023 :=
  calc |x| ≤ 360 := abs_le.mpr ⟨hlow, hhigh⟩
    _ < 2 ^ 9 := by norm_num
    _ ≤ 2 ^ 1023 := pow_le_pow_right₀ one_le_two (by norm_num)

/-- The remainder of an angle in range is the angle half a turn up, or zero for a whole turn. -/
theorem exactRemainder_add_180 (hlow : -180 < x) (hhigh : x ≤ 180) :
    exactRemainder (x + 180) 360 = if x = 180 then 0 else x + 180 := by
  rw [exactRemainder_eq_iff fullTurn_pos]
  split
  · rename_i h
    exact ⟨by norm_num, 1, by rw [h]; norm_num⟩
  · rename_i h
    have hlt := lt_of_le_of_ne hhigh h
    exact ⟨⟨by linarith, by linarith⟩, 0, by simp⟩

section

variable {d : Float}

theorem toRat_sub_180 (hd : d.isFinite = true) (h : toRat d = x + 180) (hx : nearest x = x)
    (hlow : -180 ≤ x) (hhigh : x ≤ 180) : (d - 180).isFinite = true ∧ toRat (d - 180) = x := by
  have hsub := @toRat_sub d 180 hd rfl
  rw [toRat_180, h, add_sub_cancel_right, hx] at hsub
  exact hsub (abs_lt_two_pow_1023 (by linarith) (by linarith))

/-- The way up rounds, and the remainder of what comes out is exact. -/
theorem toRat_remainder_add_180 (hfinite : d.isFinite = true) (hlow : -180 < toRat d)
    (hhigh : toRat d ≤ 180) :
    (remainderFromZero (d + 180) 360).isFinite = true ∧
    toRat (remainderFromZero (d + 180) 360) =
      if coarse (toRat d) = 180 then 0 else coarse (toRat d) + 180 := by
  have hd := nearest_toRat hfinite
  obtain ⟨hmem, hmem'⟩ := coarse_mem hd hlow hhigh
  have hup := @toRat_add d 180 hfinite rfl
  rw [toRat_180, (nearest_add_180 hd hlow hhigh).1] at hup
  obtain ⟨hup, hupValue⟩ := hup (abs_lt_two_pow_1023 (by linarith) (by linarith))
  have hremainder := @toRat_remainderFromZero (d + 180) 360 hup rfl
    (by rw [hupValue]; linarith) (by rw [toRat_360]; norm_num)
  rwa [hupValue, toRat_360, exactRemainder_add_180 hmem hmem'] at hremainder

/-- An angle in range is moved up by half a turn and down again, and only the way up is rounded. -/
theorem toRat_normalize (hfinite : d.isFinite = true) (hlow : -180 < d) (hhigh : d ≤ 180) :
    (normalize d).isFinite = true ∧ toRat (normalize d) = coarse (toRat d) := by
  rw [lt_iff_toRat (by decide +kernel) hfinite, toRat_neg_180] at hlow
  rw [le_iff_toRat hfinite rfl, toRat_180] at hhigh
  have hd := nearest_toRat hfinite
  obtain ⟨hr, hremainder⟩ := toRat_remainder_add_180 hfinite hlow hhigh
  obtain ⟨hmem, hmem'⟩ := coarse_mem hd hlow hhigh
  have hkept := (nearest_add_180 hd hlow hhigh).2
  unfold normalize normalizeBy
  generalize coarse (toRat d) = x, remainderFromZero (d + 180) 360 = r at *
  dsimp only
  by_cases hend : x = 180
  · -- A whole turn has come out as none, and is put back at the end.
    subst hend
    rw [if_pos rfl] at hremainder
    obtain ⟨hdown, hdownValue⟩ := toRat_sub_180 hr (hremainder.trans (by norm_num))
      nearest_neg_180 le_rfl (by norm_num)
    have hle : r - 180 ≤ -180 := by
      rw [le_iff_toRat hdown (by decide +kernel), toRat_neg_180, hdownValue]
    have hturn := @toRat_add (r - 180) 360 hdown rfl
    rw [hdownValue, toRat_360, show (-180 + 360 : ℚ) = 180 by norm_num, hkept] at hturn
    rw [if_pos hle]
    exact hturn (abs_lt_two_pow_1023 (by norm_num) (by norm_num))
  · rw [if_neg hend] at hremainder
    obtain ⟨hdown, hdownValue⟩ := toRat_sub_180 hr hremainder hkept hmem.le hmem'
    have hgt : ¬ r - 180 ≤ -180 := by
      rw [le_iff_toRat hdown (by decide +kernel), toRat_neg_180, hdownValue]
      exact not_le.mpr hmem
    rw [if_neg hgt]
    exact ⟨hdown, hdownValue⟩

/-- An angle in range is kept just if it is a multiple of the gap between the doubles half a turn
above it; otherwise it is rounded to one. So a request for an angle of at most `2 ^ (-46)` degrees
becomes one for zero, whose error is never finite and which is warned about. -/
theorem request_in_range_is_rounded (hfinite : d.isFinite = true) (hlow : -180 < d)
    (hhigh : d ≤ 180) (a b : Line) :
    toRat (normalize d) = coarse (toRat d) ∧
    ((normalize d == d) = true ↔ ∃ n : ℤ, toRat d = n * coarseGrain (toRat d)) ∧
    ∃ c, Constraint.newLineAngle a b d = .ok c ∧
      (c.asksZeroAngle = true ↔ |toRat d| ≤ 2 ^ (-46 : ℤ)) ∧
      (c.asksZeroAngle = true → ∀ value, (c.deviation value).isFinite = false) ∧
      ∀ cs i, cs[i]? = some c →
        (.zeroAngleTarget i ∈ Constraint.lint cs ↔ |toRat d| ≤ 2 ^ (-46 : ℤ)) := by
  obtain ⟨hnormal, hvalue⟩ := toRat_normalize hfinite hlow hhigh
  have hkept : (normalize d == d) = true ↔ ∃ n : ℤ, toRat d = n * coarseGrain (toRat d) := by
    rw [beq_iff_toRat hnormal hfinite, hvalue, coarse_eq_self_iff]
  have hzero : (Constraint.lineAngle a b (normalize d)).asksZeroAngle = true ↔
      |toRat d| ≤ 2 ^ (-46 : ℤ) := by
    change (normalize d == 0) = true ↔ _
    rw [beq_iff_toRat hnormal rfl, hvalue, toRat_zero, coarse_eq_zero_iff]
  refine ⟨hvalue, hkept, .lineAngle a b (normalize d), if_pos hfinite, hzero,
    Constraint.deviation_of_asksZeroAngle, fun cs i hi => ?_⟩
  rw [Constraint.mem_lint, hi, ← hzero]
  simp

end

theorem tiny_request_is_rounded_to_zero :
    (1e-15 : Float).isFinite = true ∧ -180 < (1e-15 : Float) ∧ (1e-15 : Float) ≤ 180 ∧
    ∃ c, Constraint.newLineAngle ⟨⟨0⟩, ⟨1⟩⟩ ⟨⟨1⟩, ⟨2⟩⟩ 1e-15 = .ok c ∧ c.asksZeroAngle = true ∧
      (∀ value, (c.deviation value).isFinite = false) ∧
      .zeroAngleTarget 0 ∈ Constraint.lint [c] := by
  have hfinite : (1e-15 : Float).isFinite = true := by decide +kernel
  have hlow : -180 < (1e-15 : Float) := by decide +kernel
  have hhigh : (1e-15 : Float) ≤ 180 := by decide +kernel
  have htiny : |toRat 1e-15| ≤ 2 ^ (-46 : ℤ) := by decide +kernel
  obtain ⟨-, -, c, hc, hzero, hdeviation, hlint⟩ :=
    request_in_range_is_rounded hfinite hlow hhigh ⟨⟨0⟩, ⟨1⟩⟩ ⟨⟨1⟩, ⟨2⟩⟩
  exact ⟨hfinite, hlow, hhigh, c, hc, hzero.mpr htiny, hdeviation (hzero.mpr htiny),
    (hlint [c] 0 rfl).mpr htiny⟩

/-- The least angle above zero is not kept, and asking for it is asking for zero. -/
theorem least_angle_is_not_kept :
    (5e-324 : Float).isFinite = true ∧ -180 < (5e-324 : Float) ∧ (5e-324 : Float) ≤ 180 ∧
    ((5e-324 : Float) == 0) = false ∧ (normalize 5e-324 == 5e-324) = false ∧
    Constraint.newLineAngle ⟨⟨0⟩, ⟨1⟩⟩ ⟨⟨1⟩, ⟨2⟩⟩ 5e-324 =
      .ok (.lineAngle ⟨⟨0⟩, ⟨1⟩⟩ ⟨⟨1⟩, ⟨2⟩⟩ 0) ∧
    Constraint.lint [.lineAngle ⟨⟨0⟩, ⟨1⟩⟩ ⟨⟨1⟩, ⟨2⟩⟩ 0] = [.zeroAngleTarget 0] := by
  have hfinite : (5e-324 : Float).isFinite = true := by decide +kernel
  have hzero : normalize 5e-324 = 0 := by decide +kernel
  refine ⟨hfinite, by decide +kernel, by decide +kernel, by decide +kernel, by decide +kernel,
    (if_pos hfinite).trans ?_, by decide +kernel⟩
  rw [hzero]

end PlaneSketch.Angle
