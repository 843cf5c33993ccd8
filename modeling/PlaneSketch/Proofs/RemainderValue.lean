import PlaneSketch.Number.Binary
import PlaneSketch.Proofs.CanonicalAngle
import PlaneSketch.Proofs.ExactValue

namespace PlaneSketch.Number

open Float.Model Float.Model.UnpackedFloat

theorem unpack_ofBits_assembled {negative : Bool} {field fraction : Nat} (hfield : field < 2047)
    (hfraction : fraction < leadingBit) :
    (Float.ofBits (UInt64.ofNat (assembled negative field fraction))).isFinite = true ∧
    (Float.ofBits (UInt64.ofNat (assembled negative field fraction))).toModel.unpack =
      if field = 0 then unpackedOf (signOf negative) fraction (-1074)
      else unpackedOf (signOf negative) (leadingBit + fraction) (field - 1075) := by
  have hbits : (UInt64.ofNat (assembled negative field fraction)).toBitVec.toNat =
      assembled negative field fraction :=
    Nat.mod_eq_of_lt (ofBits_assembled hfield hfraction).1
  obtain ⟨hcanonical, hunpack⟩ := unpack_assembled hfield hfraction hbits
  have hsame := unpack_ofModel_pack hcanonical
  exact ⟨isFinite_of_unpack hsame hcanonical, hsame.trans hunpack⟩

/-- A mantissa is shifted until it is as long as fits, or as far as the exponent allows. -/
theorem shiftLeft_full {m room : Nat} (hm : m < 2 ^ 53) :
    m <<< min (52 - m.log2) room < 2 ^ 53 ∧
    (2 ^ 52 ≤ m <<< min (52 - m.log2) room ∨ m = 0 ∨ min (52 - m.log2) room = room) := by
  rcases Nat.eq_zero_or_pos m with rfl | hpos
  · exact ⟨by simp, .inr (.inl rfl)⟩
  · have hlog : m.log2 < 53 := (Nat.log2_lt hpos.ne').mpr hm
    obtain ⟨hlow, hhigh⟩ := (Nat.log2_eq_iff hpos.ne').mp rfl
    rw [Nat.shiftLeft_eq]
    constructor
    · calc m * 2 ^ min (52 - m.log2) room < 2 ^ (m.log2 + 1) * 2 ^ min (52 - m.log2) room :=
            Nat.mul_lt_mul_of_pos_right hhigh (by positivity)
        _ = 2 ^ (m.log2 + 1 + min (52 - m.log2) room) := (Nat.pow_add ..).symm
        _ ≤ 2 ^ 53 := Nat.pow_le_pow_right (by norm_num) (by omega)
    · rcases le_total (52 - m.log2) room with hle | hle
      · rw [min_eq_left hle]
        left
        calc 2 ^ 52 = 2 ^ m.log2 * 2 ^ (52 - m.log2) := by rw [← Nat.pow_add]; congr 1; omega
          _ ≤ m * 2 ^ (52 - m.log2) := Nat.mul_le_mul_right _ hlow
      · exact .inr (.inr (min_eq_right hle))

theorem apply_shiftLeft (s : Sign) (m shift : Nat) (e : Int) :
    (s.apply (m <<< shift : Nat) : ℚ) * 2 ^ (e - shift) = s.apply m * 2 ^ e := by
  have hscale : (2 : ℚ) ^ e = 2 ^ shift * 2 ^ (e - shift) := by
    rw [← zpow_natCast, ← zpow_add₀ two_ne_zero, add_sub_cancel]
  rw [hscale, Nat.shiftLeft_eq]
  cases s <;> simp only [Sign.apply] <;> push_cast <;> ring

/-- The parts of a double give the double back. -/
theorem toRat_ofParts (negative : Bool) {m : Nat} {e : Int} (hm : m < 2 ^ 53) (hlow : -1074 ≤ e)
    (hhigh : e ≤ 971) :
    (ofParts negative m e).isFinite = true ∧
    toRat (ofParts negative m e) = (signOf negative).apply m * 2 ^ e := by
  obtain ⟨hlt, hfull⟩ := @shiftLeft_full m (e + 1074).toNat hm
  have hroom := min_le_right (52 - m.log2) (e + 1074).toNat
  rw [← apply_shiftLeft _ m (min (52 - m.log2) (e + 1074).toNat)]
  unfold ofParts
  generalize min (52 - m.log2) (e + 1074).toNat = shift at *
  have hlead : leadingBit = 2 ^ 52 := rfl
  have hfraction : m <<< shift % leadingBit < leadingBit := Nat.mod_lt _ (by decide)
  have hfield : (if m <<< shift < leadingBit then 0 else (e - shift + 1075).toNat) < 2047 := by
    split <;> omega
  obtain ⟨hfinite, hunpack⟩ := @unpack_ofBits_assembled negative _ _ hfield hfraction
  refine ⟨hfinite, ?_⟩
  change valueOf (Float.ofBits (UInt64.ofNat (assembled ..))).toModel.unpack = _
  rw [hunpack]
  by_cases hsmall : m <<< shift < leadingBit
  · rw [if_pos hsmall, if_pos rfl, valueOf_unpackedOf, Nat.mod_eq_of_lt hsmall]
    rcases hfull with hfull | rfl | hfull
    · omega
    · simp [apply_zero]
    · congr 2
      omega
  · have hfractionEq : leadingBit + m <<< shift % leadingBit = m <<< shift := by
      rw [hlead] at hsmall ⊢
      omega
    rw [if_neg hsmall, if_neg (by omega), valueOf_unpackedOf, hfractionEq,
      show ((e - shift + 1075).toNat : Int) - 1075 = e - shift by omega]

section

variable {x y : Float}

theorem remainder_of_isFinite (hx : x.isFinite = true) (hy : y.isFinite = true)
    (h : 0 < toRat y) :
    remainder x y =
      let x := Binary.ofFloat x
      let y := Binary.ofFloat y
      let e := min x.exponent y.exponent
      ofParts x.negative
        ((x.mantissa <<< (x.exponent - e).toNat) % (y.mantissa <<< (y.exponent - e).toNat)) e := by
  have hzero : (y == 0) = false := by
    rw [Bool.eq_false_iff]
    exact fun heq => h.ne' ((beq_iff_toRat hy rfl).mp heq)
  obtain ⟨hnan, hinf⟩ := isFinite_iff.mp hy
  unfold remainder
  rw [hx, hnan, bne, hzero, hinf]
  rfl

theorem eq_positive_or_eq_zero {s : Sign} {m : Nat} {e : Int}
    (h : (0 : ℚ) ≤ s.apply m * 2 ^ e) : s = .positive ∨ m = 0 := by
  cases s with
  | positive => exact .inl rfl
  | negative =>
    right
    by_contra hne
    have hpos := magnitude_pos e (Nat.pos_of_ne_zero hne)
    simp only [Sign.apply, Int.cast_neg, Int.cast_natCast, neg_mul] at h
    linarith

theorem apply_eq_shiftLeft (s : Sign) (m : Nat) {e t : Int} (h : t ≤ e) :
    (s.apply m : ℚ) * 2 ^ e = s.apply (m <<< (e - t).toNat : Nat) * 2 ^ t := by
  rw [← apply_shiftLeft s m (e - t).toNat, Int.toNat_of_nonneg (by omega), sub_sub_cancel]

theorem exactRemainder_natCast_mul {m n : Nat} {c : ℚ} (hn : 0 < n) (hc : 0 < c) :
    Angle.exactRemainder (m * c) (n * c) = (m % n : Nat) * c := by
  have hlt : ((m % n : Nat) : ℚ) < n := mod_cast Nat.mod_lt m hn
  have hdiv : (m : ℚ) = (m % n : Nat) + n * (m / n : Nat) := mod_cast (Nat.mod_add_div m n).symm
  rw [Angle.exactRemainder_eq_iff (by positivity)]
  refine ⟨⟨by positivity, by gcongr⟩, (m / n : Nat), ?_⟩
  rw [Int.cast_natCast]
  conv_lhs => rw [hdiv]
  ring

theorem mod_lt_of_shiftLeft {m n j k : Nat} (hm : m < 2 ^ 53) (hn : n < 2 ^ 53) (hpos : 0 < n)
    (h : j = 0 ∨ k = 0) : (m <<< j) % (n <<< k) < 2 ^ 53 := by
  rcases h with rfl | rfl
  · exact (Nat.mod_le ..).trans_lt hm
  · exact (Nat.mod_lt _ hpos).trans hn

theorem toRat_ofParts_mod {x y : Binary} (hx : Canonical x.mantissa x.exponent)
    (hy : Canonical y.mantissa y.exponent) (hnonneg : 0 ≤ x.value) (hpos : 0 < y.value) :
    let e := min x.exponent y.exponent
    let rest := (x.mantissa <<< (x.exponent - e).toNat) % (y.mantissa <<< (y.exponent - e).toNat)
    (ofParts x.negative rest e).isFinite = true ∧
    toRat (ofParts x.negative rest e) = Angle.exactRemainder x.value y.value := by
  intro e rest
  have hmantissa : 0 < y.mantissa := by
    refine Nat.pos_of_ne_zero fun hzero => ?_
    rw [Binary.value, hzero, Nat.cast_zero, apply_zero, Int.cast_zero, zero_mul] at hpos
    exact hpos.false
  have hwhole : 0 < y.mantissa <<< (y.exponent - e).toNat := by
    rw [Nat.shiftLeft_eq]
    positivity
  have hlow : -1074 ≤ e := le_min hx.exponent_ge hy.exponent_ge
  have hhigh : e ≤ 971 := (min_le_left ..).trans hx.exponent_le
  have hlt : rest < 2 ^ 53 :=
    mod_lt_of_shiftLeft hx.mantissa_lt hy.mantissa_lt hmantissa (by omega)
  obtain ⟨hfinite, hvalue⟩ := toRat_ofParts x.negative hlt hlow hhigh
  refine ⟨hfinite, ?_⟩
  have hpositive := (eq_positive_or_eq_zero hpos.le).resolve_right hmantissa.ne'
  rw [hvalue, Binary.value, Binary.value, hpositive,
    apply_eq_shiftLeft _ x.mantissa (min_le_left x.exponent y.exponent),
    apply_eq_shiftLeft _ y.mantissa (min_le_right x.exponent y.exponent)]
  -- Only a zero may have the wrong sign.
  have happly {n : Nat} (h : x.mantissa = 0 → n = 0) : (signOf x.negative).apply n = n := by
    rcases eq_positive_or_eq_zero hnonneg with hpositive | hzero
    · rw [hpositive]
      rfl
    · rw [h hzero, Nat.cast_zero, apply_zero]
  have hrest : x.mantissa = 0 → rest = 0 := fun hzero => by
    rw [show rest = _ % _ from rfl, hzero, Nat.zero_shiftLeft, Nat.zero_mod]
  rw [happly hrest, happly fun hzero => by rw [hzero, Nat.zero_shiftLeft]]
  exact (exactRemainder_natCast_mul hwhole (by positivity)).symm

/-- Nothing is rounded in a remainder. -/
theorem toRat_remainder (hx : x.isFinite = true) (hy : y.isFinite = true) (hnonneg : 0 ≤ toRat x)
    (hpos : 0 < toRat y) :
    (remainder x y).isFinite = true ∧
    toRat (remainder x y) = Angle.exactRemainder (toRat x) (toRat y) := by
  rw [remainder_of_isFinite hx hy hpos]
  rw [toRat_eq_value hx] at hnonneg ⊢
  rw [toRat_eq_value hy] at hpos ⊢
  exact toRat_ofParts_mod (canonical_ofFloat hx) (canonical_ofFloat hy) hnonneg hpos

theorem toRat_remainderFromZero (hx : x.isFinite = true) (hy : y.isFinite = true)
    (hnonneg : 0 ≤ toRat x) (hpos : 0 < toRat y) :
    (remainderFromZero x y).isFinite = true ∧
    toRat (remainderFromZero x y) = Angle.exactRemainder (toRat x) (toRat y) := by
  obtain ⟨hfinite, hvalue⟩ := toRat_remainder hx hy hnonneg hpos
  have hge : 0 ≤ toRat (remainder x y) := by
    rw [hvalue]
    exact ((Angle.exactRemainder_eq_iff hpos).mp rfl).1.1
  have hnot : ¬ remainder x y < 0 := by
    rw [lt_iff_toRat hfinite rfl]
    exact hge.not_gt
  unfold remainderFromZero
  rw [if_neg hnot]
  exact ⟨hfinite, hvalue⟩

end

end PlaneSketch.Number
