import Mathlib.Algebra.Order.Field.Power
import Mathlib.Algebra.Order.Field.Rat
import Mathlib.Tactic.Linarith
import Mathlib.Tactic.Positivity
import Mathlib.Tactic.Ring
import PlaneSketch.Proofs.Comparison
import PlaneSketch.Proofs.DoubleBits

namespace PlaneSketch.Number

open Float.Model Float.Model.UnpackedFloat

/-- The number that is meant; none is by an infinity or NaN. -/
def valueOf : UnpackedFloat → ℚ
  | .finite s m e _ => s.apply m * 2 ^ e
  | .zero _ => 0
  | .infinity _ => 0
  | .notANumber => 0

/-- The number that a finite double stands for. -/
def toRat (x : Float) : ℚ := valueOf x.toModel.unpack

theorem valueOf_zero (s : Sign) : valueOf (.zero s) = 0 := rfl

theorem valueOf_positive (m : Nat) (e : Int) (h : 0 < m) :
    valueOf (.finite .positive m e h) = m * 2 ^ e := by
  change ((m : Int) : ℚ) * 2 ^ e = _
  rw [Int.cast_natCast]

theorem valueOf_negative (m : Nat) (e : Int) (h : 0 < m) :
    valueOf (.finite .negative m e h) = -(m * 2 ^ e) := by
  change ((-(m : Int) : Int) : ℚ) * 2 ^ e = _
  rw [Int.cast_neg, Int.cast_natCast, neg_mul]

def Binary.value (b : Binary) : ℚ := (signOf b.negative).apply b.mantissa * 2 ^ b.exponent

theorem apply_zero (s : Sign) : s.apply 0 = 0 := by
  cases s <;> rfl

theorem valueOf_unpackedOf (s : Sign) (m : Nat) (e : Int) :
    valueOf (unpackedOf s m e) = s.apply m * 2 ^ e := by
  by_cases h : m = 0
  · rw [unpackedOf, dif_pos h, h, Nat.cast_zero, apply_zero, Int.cast_zero, zero_mul,
      valueOf_zero]
  · rw [unpackedOf_of_pos s e (Nat.pos_of_ne_zero h)]
    rfl

theorem magnitude_pos {m : Nat} (e : Int) (h : 0 < m) : (0 : ℚ) < m * 2 ^ e := by positivity

/-- A longer exponent outweighs every mantissa, since a short mantissa has the least exponent. -/
theorem magnitude_lt {m n : Nat} {e f : Int} (hm : Canonical m e) (hn : Canonical n f)
    (h : toLex (e, (m : Int)) < toLex (f, (n : Int))) : (m : ℚ) * 2 ^ e < n * 2 ^ f := by
  rcases Prod.Lex.toLex_lt_toLex.mp h with hexponent | ⟨rfl, hmantissa⟩
  · have hlt : (m : ℚ) < 2 ^ 53 := mod_cast hm.mantissa_lt
    have hleading : 2 ^ 52 ≤ n := hn.leading.resolve_right (by have := hm.exponent_ge; omega)
    have hle : (2 : ℚ) ^ 52 ≤ n := mod_cast hleading
    calc (m : ℚ) * 2 ^ e < 2 ^ 53 * 2 ^ e := by gcongr
      _ = 2 ^ 52 * 2 ^ (e + 1) := by rw [zpow_add_one₀ two_ne_zero]; ring
      _ ≤ n * 2 ^ f := by gcongr; exacts [one_le_two, hexponent]
  · have hlt : (m : ℚ) < n := Nat.cast_lt.mpr (Int.ofNat_lt.mp hmantissa)
    gcongr

theorem valueOf_lt {u v : UnpackedFloat} (hu : IsCanonical u) (hv : IsCanonical v)
    (h : place u < place v) : valueOf u < valueOf v := by
  -- The signs decide, and for two numbers of one sign their exponents and mantissas.
  cases u with
  | notANumber => cases hu
  | infinity s => cases hu
  | zero s => cases v with
    | notANumber => cases hv
    | infinity t => cases hv
    | zero t => exact absurd h (lt_irrefl _)
    | finite t n f hn => cases t with
      | negative =>
        rw [place_zero, place_negative] at h
        simp [Prod.Lex.toLex_lt_toLex] at h
      | positive => exact (magnitude_pos f hn).trans_eq (valueOf_positive n f hn).symm
  | finite s m e hm =>
    have hpos := magnitude_pos e hm
    cases v with
    | notANumber => cases hv
    | infinity t => cases hv
    | zero t => cases s with
      | negative => exact (valueOf_negative m e hm).trans_lt (neg_neg_of_pos hpos)
      | positive =>
        rw [place_positive, place_zero] at h
        simp [Prod.Lex.toLex_lt_toLex] at h
    | finite t n f hn =>
      have hpos' := magnitude_pos f hn
      cases s with
      | negative => cases t with
        | negative =>
          rw [place_negative, place_negative] at h
          have hflipped : -e < -f ∨ -e = -f ∧ -(m : Int) < -n := by
            simpa [Prod.Lex.toLex_lt_toLex] using h
          rw [valueOf_negative, valueOf_negative, neg_lt_neg_iff]
          refine magnitude_lt hv hu (Prod.Lex.toLex_lt_toLex.mpr ?_)
          dsimp only
          omega
        | positive =>
          rw [valueOf_negative, valueOf_positive]
          exact (neg_neg_of_pos hpos).trans hpos'
      | positive => cases t with
        | negative =>
          rw [place_positive, place_negative] at h
          simp [Prod.Lex.toLex_lt_toLex] at h
        | positive =>
          rw [place_positive, place_positive] at h
          rw [valueOf_positive, valueOf_positive]
          refine magnitude_lt hu hv ?_
          simpa [Prod.Lex.toLex_lt_toLex] using h

theorem isFinite_of_isCanonical {u : UnpackedFloat} (h : IsCanonical u) : u.isFinite = true := by
  cases u with
  | notANumber => cases h
  | infinity s => cases h
  | zero s => rfl
  | finite s m e hm => rfl

/-- Of all finite numbers, only zeros share a place. -/
theorem valueOf_eq {u v : UnpackedFloat} (hu : IsCanonical u) (hv : IsCanonical v)
    (h : place u = place v) : valueOf u = valueOf v := by
  have hkind : (ofLex (place u)).1 = (ofLex (place v)).1 := by rw [h]
  cases u with
  | notANumber => cases hu
  | infinity s => cases hu
  | zero s => cases v with
    | notANumber => cases hv
    | infinity t => cases hv
    | zero t => rfl
    | finite t n f hn => cases t <;> cases hkind
  | finite s m e hm => cases v with
    | notANumber => cases hv
    | infinity t => cases hv
    | zero t => cases s <;> cases hkind
    | finite t n f hn => cases s with
      | negative => cases t with
        | negative =>
          rw [place_negative, place_negative] at h
          obtain ⟨rfl, rfl⟩ : e = f ∧ m = n := by simpa using h
          rfl
        | positive => cases hkind
      | positive => cases t with
        | negative => cases hkind
        | positive =>
          rw [place_positive, place_positive] at h
          obtain ⟨rfl, rfl⟩ : e = f ∧ m = n := by simpa using h
          rfl

theorem unpack_ofModel_pack {u : UnpackedFloat} (h : IsCanonical u) :
    (Float.ofModel (Float.Model.pack u)).toModel.unpack = u := unpack_pack h

section

variable {x y : Float}

theorem unpack_eq_ofFloat (h : x.isFinite = true) :
    x.toModel.unpack = (Binary.ofFloat x).unpacked :=
  unpack_bits (field_ne_of_isFinite h)

theorem isCanonical_unpack (h : x.isFinite = true) : IsCanonical x.toModel.unpack := by
  rw [unpack_eq_ofFloat h]
  exact isCanonical_ofBits (field_ne_of_isFinite h)

theorem canonical_ofFloat (h : x.isFinite = true) :
    Canonical (Binary.ofFloat x).mantissa (Binary.ofFloat x).exponent :=
  canonical_ofBits (field_ne_of_isFinite h)

theorem toRat_eq_value (h : x.isFinite = true) : toRat x = (Binary.ofFloat x).value := by
  rw [toRat, unpack_eq_ofFloat h, Binary.unpacked, valueOf_unpackedOf, Binary.value]

theorem isFinite_of_unpack {u : UnpackedFloat} (h : x.toModel.unpack = u) (hu : IsCanonical u) :
    x.isFinite = true := by
  subst h
  exact isFinite_of_isCanonical hu

/-- To compare doubles is to compare the numbers that they stand for. -/
theorem rank_lt_rank (hx : x.isFinite = true) (hy : y.isFinite = true) :
    rank x < rank y ↔ toRat x < toRat y := by
  have hx := isCanonical_unpack hx
  have hy := isCanonical_unpack hy
  refine ⟨valueOf_lt hx hy, fun h => ?_⟩
  by_contra hle
  rcases (not_lt.mp hle).lt_or_eq with hlt | heq
  · exact h.not_gt (valueOf_lt hy hx hlt)
  · exact h.ne' (valueOf_eq hy hx heq)

theorem le_iff_toRat (hx : x.isFinite = true) (hy : y.isFinite = true) :
    x ≤ y ↔ toRat x ≤ toRat y := by
  rw [le_iff, ← not_lt, rank_lt_rank hy hx, not_lt]
  simp only [isNaN_of_isFinite hx, isNaN_of_isFinite hy, true_and]

theorem lt_iff_toRat (hx : x.isFinite = true) (hy : y.isFinite = true) :
    x < y ↔ toRat x < toRat y := by
  rw [lt_iff, rank_lt_rank hx hy]
  simp only [isNaN_of_isFinite hx, isNaN_of_isFinite hy, true_and]

theorem beq_iff_toRat (hx : x.isFinite = true) (hy : y.isFinite = true) :
    (x == y) = true ↔ toRat x = toRat y := by
  have hrank : rank x = rank y ↔ toRat x = toRat y := by
    rw [le_antisymm_iff, le_antisymm_iff, ← not_lt, ← not_lt, rank_lt_rank hy hx,
      rank_lt_rank hx hy, not_lt, not_lt]
  simp only [beq_iff, hrank, isNaN_of_isFinite hx, isNaN_of_isFinite hy, true_and]

end

end PlaneSketch.Number
