import Mathlib.Algebra.Order.Field.Rat
import Mathlib.Algebra.Order.ToIntervalMod
import Mathlib.Data.Rat.Floor
import Mathlib.Tactic.Linarith
import Mathlib.Tactic.NormNum
import Mathlib.Tactic.Ring
import PlaneSketch.Angle

namespace PlaneSketch.Angle

variable {a b r : ℚ}

/-- The remainder that lies in `[0, b)` for a positive `b`. -/
def exactRemainder (a b : ℚ) : ℚ := a - b * ⌊a / b⌋

def normalizeExactly (angle : ℚ) : ℚ := normalizeBy exactRemainder angle

theorem exactRemainder_eq_iff (hb : 0 < b) :
    exactRemainder a b = r ↔ (0 ≤ r ∧ r < b) ∧ ∃ turns : ℤ, a = r + turns * b := by
  constructor
  · rintro rfl
    have hlow : b * ⌊a / b⌋ ≤ a := (le_div_iff₀' hb).mp (Int.floor_le (a / b))
    have hhigh : a < b * (⌊a / b⌋ + 1) := (div_lt_iff₀' hb).mp (Int.lt_floor_add_one (a / b))
    unfold exactRemainder
    exact ⟨⟨by linarith, by linarith⟩, ⌊a / b⌋, by ring⟩
  · rintro ⟨⟨hlow, hhigh⟩, turns, rfl⟩
    have hfloor : ⌊(r + turns * b) / b⌋ = turns := by
      rw [add_div, mul_div_cancel_right₀ _ hb.ne', Int.floor_add_intCast, Int.floor_eq_zero_iff.mpr,
        zero_add]
      exact ⟨div_nonneg hlow hb.le, (div_lt_one hb).mpr hhigh⟩
    rw [exactRemainder, hfloor]
    ring

theorem fullTurn_pos : (0 : ℚ) < 360 := by norm_num

/-- Where the remainder leaves an angle at `-180`, it is moved on by a turn to the other end. -/
theorem normalizeExactly_eq_toIocMod (a : ℚ) :
    normalizeExactly a = toIocMod fullTurn_pos (-180) a := by
  obtain ⟨⟨hlow, hhigh⟩, turns, hturns⟩ :=
    (exactRemainder_eq_iff (a := a + 180) fullTurn_pos).mp rfl
  symm
  rw [toIocMod_eq_iff, normalizeExactly, normalizeBy]
  split
  · rename_i hend
    exact ⟨⟨by linarith, by linarith⟩, turns - 1, by push_cast [zsmul_eq_mul]; linarith⟩
  · rename_i hend
    exact ⟨⟨by linarith, by linarith⟩, turns, by push_cast [zsmul_eq_mul]; linarith⟩

theorem normalizeExactly_eq_iff :
    normalizeExactly a = r ↔ (-180 < r ∧ r ≤ 180) ∧ ∃ turns : ℤ, a = r + turns * 360 := by
  rw [normalizeExactly_eq_toIocMod, toIocMod_eq_iff, Set.mem_Ioc]
  norm_num

theorem normalizeExactly_mem (a : ℚ) : -180 < normalizeExactly a ∧ normalizeExactly a ≤ 180 :=
  (normalizeExactly_eq_iff.mp rfl).1

theorem normalizeExactly_turns (a : ℚ) : ∃ turns : ℤ, a = normalizeExactly a + turns * 360 :=
  (normalizeExactly_eq_iff.mp rfl).2

theorem normalizeExactly_eq_normalizeExactly :
    normalizeExactly a = normalizeExactly b ↔ ∃ turns : ℤ, a - b = turns * 360 := by
  rw [eq_comm, normalizeExactly_eq_toIocMod, normalizeExactly_eq_toIocMod, toIocMod_eq_toIocMod]
  simp only [zsmul_eq_mul]

theorem normalizeExactly_of_mem (hlow : -180 < a) (hhigh : a ≤ 180) : normalizeExactly a = a :=
  normalizeExactly_eq_iff.mpr ⟨⟨hlow, hhigh⟩, 0, by simp⟩

theorem normalizeExactly_add (a b : ℚ) :
    normalizeExactly (a + b) = normalizeExactly (normalizeExactly a + normalizeExactly b) := by
  obtain ⟨m, hm⟩ := normalizeExactly_turns a
  obtain ⟨n, hn⟩ := normalizeExactly_turns b
  refine normalizeExactly_eq_normalizeExactly.mpr ⟨m + n, ?_⟩
  push_cast
  linarith

/-- The odd multiples of 180 are the angles that come out at the closed end. -/
theorem normalizeExactly_eq_half :
    normalizeExactly a = 180 ↔ ∃ k : ℤ, a = (2 * k + 1) * 180 := by
  rw [normalizeExactly_eq_iff]
  constructor
  · rintro ⟨-, turns, rfl⟩
    exact ⟨turns, by ring⟩
  · rintro ⟨k, rfl⟩
    exact ⟨⟨by norm_num, le_rfl⟩, k, by ring⟩

theorem normalizeExactly_neg_of_lt (h : normalizeExactly a < 180) :
    normalizeExactly (-a) = -normalizeExactly a := by
  obtain ⟨hlow, -⟩ := normalizeExactly_mem a
  obtain ⟨turns, hturns⟩ := normalizeExactly_turns a
  refine normalizeExactly_eq_iff.mpr ⟨⟨by linarith, by linarith⟩, -turns, ?_⟩
  push_cast
  linarith

theorem normalizeExactly_neg_of_half (h : normalizeExactly a = 180) :
    normalizeExactly (-a) = 180 := by
  obtain ⟨k, rfl⟩ := normalizeExactly_eq_half.mp h
  refine normalizeExactly_eq_half.mpr ⟨-k - 1, ?_⟩
  push_cast
  ring

/-- Without rounding, where the remainder of an angle is the one number in `[0, 360)` that is whole
turns away, normalizing picks the one angle in `(-180, 180]` that is. So it tells exactly the
angles apart that are not whole turns apart, it changes nothing the second time, and summands may
be normalized first. So may an angle before it is negated, but for the odd multiples of 180, which
all come out at 180. -/
theorem normalizing_is_canonical (a b : ℚ) :
    (∀ r, exactRemainder a 360 = r ↔ (0 ≤ r ∧ r < 360) ∧ ∃ turns : ℤ, a = r + turns * 360) ∧
    (-180 < normalizeExactly a ∧ normalizeExactly a ≤ 180) ∧
    (∃ turns : ℤ, normalizeExactly a - a = turns * 360) ∧
    (normalizeExactly a = normalizeExactly b ↔ ∃ turns : ℤ, a - b = turns * 360) ∧
    normalizeExactly (normalizeExactly a) = normalizeExactly a ∧
    normalizeExactly (a + b) = normalizeExactly (normalizeExactly a + normalizeExactly b) ∧
    ((¬ ∃ k : ℤ, a = (2 * k + 1) * 180) → normalizeExactly (-a) = -normalizeExactly a) ∧
    ((∃ k : ℤ, a = (2 * k + 1) * 180) →
      normalizeExactly a = 180 ∧ normalizeExactly (-a) = 180) := by
  have hmem := normalizeExactly_mem a
  refine ⟨fun r => exactRemainder_eq_iff fullTurn_pos, hmem, ?_,
    normalizeExactly_eq_normalizeExactly, normalizeExactly_of_mem hmem.1 hmem.2,
    normalizeExactly_add a b, fun hodd => ?_, fun hodd => ?_⟩
  · obtain ⟨turns, hturns⟩ := normalizeExactly_turns a
    exact ⟨-turns, by push_cast; linarith⟩
  · rw [← normalizeExactly_eq_half] at hodd
    exact normalizeExactly_neg_of_lt (lt_of_le_of_ne hmem.2 hodd)
  · rw [← normalizeExactly_eq_half] at hodd
    exact ⟨hodd, normalizeExactly_neg_of_half hodd⟩

end PlaneSketch.Angle
