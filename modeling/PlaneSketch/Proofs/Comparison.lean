import Mathlib.Data.Int.Order.Basic
import Mathlib.Data.Prod.Lex

namespace PlaneSketch.Number

open Float.Model

/-- Every double but NaN has a place in one linear order: by sign and kind first, then by exponent,
then by mantissa. The two zeros share theirs. -/
def place : UnpackedFloat → Int ×ₗ Int ×ₗ Int
  | .infinity .negative => toLex (-2, toLex (0, 0))
  | .finite .negative m e _ => toLex (-1, toLex (-e, -m))
  | .zero _ => toLex (0, toLex (0, 0))
  | .notANumber => toLex (0, toLex (0, 0))
  | .finite .positive m e _ => toLex (1, toLex (e, m))
  | .infinity .positive => toLex (2, toLex (0, 0))

theorem place_zero (s : UnpackedFloat.Sign) : place (.zero s) = toLex (0, toLex (0, 0)) := rfl

theorem place_positive (m : Nat) (e : Int) (h : 0 < m) :
    place (.finite .positive m e h) = toLex (1, toLex (e, (m : Int))) := rfl

theorem place_negative (m : Nat) (e : Int) (h : 0 < m) :
    place (.finite .negative m e h) = toLex (-1, toLex (-e, -(m : Int))) := rfl

def rank (a : Float) : Int ×ₗ Int ×ₗ Int := place a.toModel.unpack

theorem compare_toLex {α β : Type} [Ord α] [Ord β] (a c : α) (b d : β) :
    compare (toLex (a, b)) (toLex (c, d)) = (compare a c).then (compare b d) := rfl

theorem compare_natCast (m n : Nat) : compare (m : Int) n = compare m n := by
  rcases Nat.lt_trichotomy m n with h | h | h
  · rw [compare_lt_iff_lt.mpr h, compare_lt_iff_lt.mpr (Int.ofNat_lt.mpr h)]
  · subst h
    simp
  · rw [compare_gt_iff_gt.mpr h, compare_gt_iff_gt.mpr (Int.ofNat_lt.mpr h)]

theorem compare_neg (a b : Int) : compare (-a) (-b) = (compare a b).swap := by
  rcases Int.lt_trichotomy a b with h | h | h
  · rw [compare_lt_iff_lt.mpr h, compare_gt_iff_gt.mpr (by omega)]
    rfl
  · subst h
    simp
  · rw [compare_gt_iff_gt.mpr h, compare_lt_iff_lt.mpr (by omega)]
    rfl

theorem compare_isNaN {a b : UnpackedFloat} (h : a.isNaN = true ∨ b.isNaN = true) :
    a.compare b = none := by
  rcases h with h | h
  · cases a <;> cases h
    rfl
  · cases b <;> cases h
    cases a <;> rfl

/-- A comparison compares places, and NaN is comparable to nothing. -/
theorem compare_eq_place {a b : UnpackedFloat} (ha : a.isNaN = false) (hb : b.isNaN = false) :
    a.compare b = some (compare (place a) (place b)) := by
  -- Both tables go by the signs, and only for two finite numbers of one sign by anything else.
  cases a with
  | notANumber => cases ha
  | infinity s => cases b with
    | notANumber => cases hb
    | infinity t => cases s <;> cases t <;> rfl
    | zero t => cases s <;> rfl
    | finite t n f hn => cases s <;> cases t <;> rfl
  | zero s => cases b with
    | notANumber => cases hb
    | infinity t => cases t <;> rfl
    | zero t => rfl
    | finite t n f hn => cases t <;> rfl
  | finite s m e hm => cases b with
    | notANumber => cases hb
    | infinity t => cases s <;> cases t <;> rfl
    | zero t => cases s <;> rfl
    | finite t n f hn =>
      cases s <;> cases t <;> dsimp only [UnpackedFloat.compare, place] <;>
        simp only [compare_toLex, compare_natCast, compare_neg, Ordering.swap_then] <;> rfl

section

variable {a b c : Float}

theorem compare_unpack : a.toModel.unpack.compare b.toModel.unpack =
    if a.isNaN = false ∧ b.isNaN = false then some (compare (rank a) (rank b)) else none := by
  split
  · rename_i h
    exact compare_eq_place h.1 h.2
  · rename_i h
    apply compare_isNaN
    rw [Classical.not_and_iff_not_or_not, Bool.not_eq_false, Bool.not_eq_false] at h
    exact h

theorem le_iff : a ≤ b ↔ a.isNaN = false ∧ b.isNaN = false ∧ rank a ≤ rank b := by
  have h : a ≤ b ↔ (a.toModel.unpack.compare b.toModel.unpack).any (·.isLE) = true := by
    change decide _ = true ↔ _
    rw [decide_eq_true_eq]
    rfl
  rw [h, compare_unpack, ← and_assoc]
  split
  · rename_i hn
    simp only [Option.any_some, Ordering.isLE_iff_ne_gt, hn, true_and]
    exact compare_le_iff_le
  · rename_i hn
    exact iff_of_false nofun fun h => hn h.1

theorem lt_iff : a < b ↔ a.isNaN = false ∧ b.isNaN = false ∧ rank a < rank b := by
  have h : a < b ↔ a.toModel.unpack.compare b.toModel.unpack = some .lt := by
    change decide _ = true ↔ _
    rw [decide_eq_true_eq]
    exact beq_iff_eq
  rw [h, compare_unpack, ← and_assoc]
  split
  · rename_i hn
    rw [Option.some_inj, compare_lt_iff_lt, and_iff_right hn]
  · rename_i hn
    exact iff_of_false nofun fun h => hn h.1

theorem beq_iff : (a == b) = true ↔ a.isNaN = false ∧ b.isNaN = false ∧ rank a = rank b := by
  have h : (a == b) = true ↔ a.toModel.unpack.compare b.toModel.unpack = some .eq := by
    change (a.toModel.unpack.compare b.toModel.unpack == some .eq) = true ↔ _
    exact beq_iff_eq
  rw [h, compare_unpack, ← and_assoc]
  split
  · rename_i hn
    rw [Option.some_inj, compare_eq_iff_eq, and_iff_right hn]
  · rename_i hn
    exact iff_of_false nofun fun h => hn h.1

theorem le_refl (h : a.isNaN = false) : a ≤ a := le_iff.mpr ⟨h, h, le_rfl⟩

theorem le_trans (hab : a ≤ b) (hbc : b ≤ c) : a ≤ c := by
  obtain ⟨ha, -, hab⟩ := le_iff.mp hab
  obtain ⟨-, hc, hbc⟩ := le_iff.mp hbc
  exact le_iff.mpr ⟨ha, hc, hab.trans hbc⟩

theorem le_of_not_le (ha : a.isNaN = false) (hb : b.isNaN = false) (h : ¬ a ≤ b) : b ≤ a := by
  refine le_iff.mpr ⟨hb, ha, ?_⟩
  by_contra hn
  exact h (le_iff.mpr ⟨ha, hb, (not_le.mp hn).le⟩)

theorem le_of_lt (h : a < b) : a ≤ b := by
  obtain ⟨ha, hb, h⟩ := lt_iff.mp h
  exact le_iff.mpr ⟨ha, hb, h.le⟩

theorem lt_of_not_le (ha : a.isNaN = false) (hb : b.isNaN = false) (h : ¬ a ≤ b) : b < a := by
  refine lt_iff.mpr ⟨hb, ha, not_le.mp fun hle => ?_⟩
  exact h (le_iff.mpr ⟨ha, hb, hle⟩)

theorem not_le_of_lt (h : a < b) : ¬ b ≤ a := by
  obtain ⟨-, -, h⟩ := lt_iff.mp h
  exact fun hle => h.not_ge (le_iff.mp hle).2.2

theorem lt_of_lt_of_le (hab : a < b) (hbc : b ≤ c) : a < c := by
  obtain ⟨ha, -, hab⟩ := lt_iff.mp hab
  obtain ⟨-, hc, hbc⟩ := le_iff.mp hbc
  exact lt_iff.mpr ⟨ha, hc, hab.trans_le hbc⟩

theorem le_of_beq (h : (a == b) = true) : a ≤ b := by
  obtain ⟨ha, hb, h⟩ := beq_iff.mp h
  exact le_iff.mpr ⟨ha, hb, h.le⟩

theorem unpack_infinity : (1 / 0 : Float).toModel.unpack = .infinity .positive := rfl

theorem isFinite_iff : a.isFinite = true ↔ a.isNaN = false ∧ a.isInf = false := by
  change a.toModel.unpack.isFinite = true ↔
    a.toModel.unpack.isNaN = false ∧ a.toModel.unpack.isInf = false
  cases a.toModel.unpack with
  | notANumber => exact iff_of_false nofun nofun
  | infinity s => exact iff_of_false nofun nofun
  | zero s => exact iff_of_true rfl ⟨rfl, rfl⟩
  | finite s m e hm => exact iff_of_true rfl ⟨rfl, rfl⟩

theorem isNaN_of_isFinite (h : a.isFinite = true) : a.isNaN = false := (isFinite_iff.mp h).1

theorem place_lt_infinity {u : UnpackedFloat} (h : u.isFinite = true) :
    place u < place (.infinity .positive) := by
  cases u with
  | notANumber => cases h
  | infinity s => cases h
  | zero s => exact .left _ _ (by omega)
  | finite s m e hm => cases s <;> exact .left _ _ (by omega)

theorem place_le_infinity (u : UnpackedFloat) : place u ≤ place (.infinity .positive) := by
  cases u with
  | notANumber => exact .left _ _ (by omega)
  | infinity s => cases s with
    | positive => exact le_rfl
    | negative => exact .left _ _ (by omega)
  | zero s => exact (place_lt_infinity rfl).le
  | finite s m e hm => exact (place_lt_infinity rfl).le

theorem le_infinity (h : a.isNaN = false) : a ≤ 1 / 0 := by
  refine le_iff.mpr ⟨h, rfl, ?_⟩
  unfold rank
  rw [unpack_infinity]
  exact place_le_infinity _

theorem not_infinity_le (h : a.isFinite = true) : ¬ (1 / 0 : Float) ≤ a := by
  intro hle
  have hrank := (le_iff.mp hle).2.2
  unfold rank at hrank
  rw [unpack_infinity] at hrank
  exact hrank.not_gt (place_lt_infinity h)

theorem eq_zero_of_place {u : UnpackedFloat} (hn : u.isNaN = false)
    (h : (ofLex (place u)).1 = 0) : ∃ s, u = .zero s := by
  cases u with
  | notANumber => cases hn
  | infinity s => cases s <;> cases h
  | zero s => exact ⟨s, rfl⟩
  | finite s m e hm => cases s <;> cases h

theorem unpack_of_beq_zero (h : (a == 0) = true) : ∃ s, a.toModel.unpack = .zero s := by
  obtain ⟨hnan, -, hrank⟩ := beq_iff.mp h
  exact eq_zero_of_place hnan (congrArg (fun p => (ofLex p).1) hrank)

theorem isFinite_pack {u : UnpackedFloat} (h : u.isFinite = false) :
    (Float.ofModel (Float.Model.pack u)).isFinite = false := by
  cases u with
  | notANumber => rfl
  | infinity s => cases s <;> rfl
  | zero s => cases h
  | finite s m e hm => cases h

theorem isFinite_div_zero (h : (b == 0) = true) : (a / b).isFinite = false := by
  obtain ⟨s, hb⟩ := unpack_of_beq_zero h
  refine @isFinite_pack (UnpackedFloat.div Format.binary64 a.toModel.unpack _) ?_
  rw [hb]
  cases a.toModel.unpack <;> rfl

theorem isFinite_mul_self (h : a.isFinite = false) : (a * a).isFinite = false := by
  change a.toModel.unpack.isFinite = false at h
  refine @isFinite_pack (UnpackedFloat.mul Format.binary64 a.toModel.unpack _) ?_
  cases ha : a.toModel.unpack with
  | notANumber => rfl
  | infinity t => rfl
  | zero t => rw [ha] at h; cases h
  | finite t m e hm => rw [ha] at h; cases h

end

end PlaneSketch.Number
