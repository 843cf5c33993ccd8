import Mathlib.Algebra.Ring.Nat
import PlaneSketch.Number.Binary

namespace PlaneSketch.Number

open Float.Model Float.Model.UnpackedFloat

/-- A mantissa and an exponent in the form that doubles have: the mantissa is as long as fits,
unless the exponent is already the least. -/
structure Canonical (mantissa : Nat) (exponent : Int) : Prop where
  mantissa_lt : mantissa < 2 ^ 53
  exponent_ge : -1074 ≤ exponent
  exponent_le : exponent ≤ 971
  leading : 2 ^ 52 ≤ mantissa ∨ exponent = -1074

/-- Is this a finite number in the form that doubles have? -/
def IsCanonical : UnpackedFloat → Prop
  | .finite _ m e _ => Canonical m e
  | .zero _ => True
  | .infinity _ => False
  | .notANumber => False

def signOf (negative : Bool) : Sign := if negative then .negative else .positive

/-- `± mantissa * 2 ^ exponent` -/
def unpackedOf (s : Sign) (mantissa : Nat) (exponent : Int) : UnpackedFloat :=
  if h : mantissa = 0 then .zero s else .finite s mantissa exponent (Nat.pos_of_ne_zero h)

def Binary.unpacked (b : Binary) : UnpackedFloat :=
  unpackedOf (signOf b.negative) b.mantissa b.exponent

theorem unpackedOf_of_pos (s : Sign) {m : Nat} (e : Int) (h : 0 < m) :
    unpackedOf s m e = .finite s m e h := dif_neg (Nat.ne_of_gt h)

theorem isCanonical_unpackedOf {s : Sign} {m : Nat} {e : Int} (h : m ≠ 0 → Canonical m e) :
    IsCanonical (unpackedOf s m e) := by
  by_cases hm : m = 0
  · rw [unpackedOf, dif_pos hm]
    trivial
  · rw [unpackedOf_of_pos s e (Nat.pos_of_ne_zero hm)]
    exact h hm

/-- Reads 64 bits as `Binary.ofFloat` reads those of a double. -/
def Binary.ofBits (bits : Nat) : Binary :=
  let negative := bits.testBit 63
  let field := (bits >>> 52) % 2048
  let fraction := bits % leadingBit
  if field = 0 then ⟨negative, fraction, -1074, false⟩
  else ⟨negative, leadingBit + fraction, (field : Int) - 1075, fraction = 0 && 1 < field⟩

theorem Binary.unpacked_ofBits (n : Nat) : (Binary.ofBits n).unpacked =
    if (n >>> 52) % 2048 = 0 then unpackedOf (signOf (n.testBit 63)) (n % leadingBit) (-1074)
    else unpackedOf (signOf (n.testBit 63)) (leadingBit + n % leadingBit)
      (((n >>> 52) % 2048 : Nat) - 1075) :=
  apply_ite Binary.unpacked ..

theorem toNat_unpackMantissa (b : BitVec Format.binary64.numBits) :
    (unpackMantissa b).toNat = b.toNat % leadingBit := by
  simp [unpackMantissa, leadingBit]

theorem toNat_unpackExponent (b : BitVec Format.binary64.numBits) :
    (unpackExponent b).toNat = (b.toNat >>> 52) % 2048 := by
  simp [unpackExponent]

theorem ofBitVec_unpackSign (b : BitVec Format.binary64.numBits) :
    Sign.ofBitVec (unpackSign b) = signOf (b.toNat.testBit 63) := by
  have h : (unpackSign b).toNat = b.toNat / 2 ^ 63 % 2 := by
    unfold unpackSign
    simp [Nat.shiftRight_eq_div_pow]
  have hzero : unpackSign b = 0#1 ↔ b.toNat / 2 ^ 63 % 2 = 0 := by
    rw [← BitVec.toNat_inj, h]
    rfl
  rw [Sign.ofBitVec, signOf, Nat.testBit_eq_decide_div_mod_eq]
  by_cases hs : b.toNat / 2 ^ 63 % 2 = 0
  · rw [if_pos (hzero.mpr hs), hs]
    rfl
  · rw [if_neg (mt hzero.mp hs), show b.toNat / 2 ^ 63 % 2 = 1 by omega]
    rfl

theorem toNat_append_one {w : Nat} (m : BitVec w) : (1#1 ++ m).toNat = 2 ^ w + m.toNat := by
  rw [BitVec.toNat_append, ← Nat.shiftLeft_add_eq_or_of_lt m.isLt]
  simp [Nat.shiftLeft_eq]

/-- A field with all bits set is left to infinities and NaN. -/
theorem unpack_fields {b : BitVec Format.binary64.numBits} (h : unpackExponent b ≠ -1#11) :
    UnpackedFloat.unpack Format.binary64 b =
      let s := Sign.ofBitVec (unpackSign b)
      let field := unpackExponent b
      let fraction := (unpackMantissa b).toNat
      if field = 0#11 then unpackedOf s fraction (-1074)
      else unpackedOf s (leadingBit + fraction) (field.toNat - 1075) := by
  have hzero : unpackMantissa b = 0#52 ↔ (unpackMantissa b).toNat = 0 := by
    rw [← BitVec.toNat_inj]
    rfl
  unfold UnpackedFloat.unpack
  dsimp only
  rw [if_neg h]
  by_cases hsmall : unpackExponent b = 0#11
  · rw [if_pos hsmall, if_pos hsmall, hsmall, unpackedOf]
    by_cases hm : (unpackMantissa b).toNat = 0
    · rw [dif_pos (hzero.mpr hm), dif_pos hm]
    · rw [dif_neg (mt hzero.mp hm), dif_neg hm]
      rfl
  · rw [if_neg hsmall, if_neg hsmall, ← unpackedOf_of_pos, toNat_append_one]
    rfl

/-- The bits of a finite double are read as `Binary.ofFloat` reads them. -/
theorem unpack_bits {b : BitVec Format.binary64.numBits} (h : (b.toNat >>> 52) % 2048 ≠ 2047) :
    UnpackedFloat.unpack Format.binary64 b = (Binary.ofBits b.toNat).unpacked := by
  have hfield := toNat_unpackExponent b
  have hlast : unpackExponent b ≠ -1#11 := by
    rw [ne_eq, ← BitVec.toNat_inj, hfield]
    exact h
  have hsubnormal : unpackExponent b = 0#11 ↔
      (b.toNat >>> 52) % 2048 = 0 := by
    rw [← BitVec.toNat_inj, hfield]
    rfl
  rw [Binary.unpacked_ofBits, unpack_fields hlast]
  simp only [hsubnormal, ofBitVec_unpackSign, toNat_unpackMantissa, hfield]

theorem canonical_ofBits {n : Nat} (h : (n >>> 52) % 2048 ≠ 2047) :
    Canonical (Binary.ofBits n).mantissa (Binary.ofBits n).exponent := by
  have hlead : leadingBit = 2 ^ 52 := rfl
  have hfraction : n % leadingBit < leadingBit := Nat.mod_lt _ (by decide)
  unfold Binary.ofBits
  dsimp only
  split <;> constructor <;> dsimp only <;> omega

theorem isCanonical_ofBits {n : Nat} (h : (n >>> 52) % 2048 ≠ 2047) :
    IsCanonical (Binary.ofBits n).unpacked :=
  isCanonical_unpackedOf fun _ => canonical_ofBits h

theorem field_ne_of_isFinite {b : BitVec Format.binary64.numBits}
    (h : (UnpackedFloat.unpack Format.binary64 b).isFinite = true) :
    (b.toNat >>> 52) % 2048 ≠ 2047 := by
  intro hfield
  have hlast : unpackExponent b = -1#11 := by
    rw [← BitVec.toNat_inj, toNat_unpackExponent, hfield]
    rfl
  unfold UnpackedFloat.unpack at h
  dsimp only at h
  rw [if_pos hlast] at h
  split at h <;> cases h

/-- The bits with the given sign, exponent field and fraction. -/
def assembled (negative : Bool) (field fraction : Nat) : Nat :=
  (if negative then 1 <<< 63 else 0) + (field <<< 52) + fraction

section

variable {negative : Bool} {field fraction : Nat}

theorem ofBits_assembled (hfield : field < 2047) (hfraction : fraction < leadingBit) :
    assembled negative field fraction < 2 ^ 64 ∧
    (assembled negative field fraction >>> 52) % 2048 = field ∧
    assembled negative field fraction % leadingBit = fraction ∧
    (assembled negative field fraction).testBit 63 = negative := by
  have hlead : leadingBit = 2 ^ 52 := rfl
  rw [hlead] at hfraction ⊢
  rw [assembled, Nat.testBit_eq_decide_div_mod_eq, Nat.shiftLeft_eq, Nat.shiftRight_eq_div_pow]
  cases negative with
  | false =>
    simp only [Bool.false_eq_true, if_false, decide_eq_false_iff_not]
    omega
  | true =>
    simp only [if_true, decide_eq_true_eq]
    omega

theorem unpack_assembled {b : BitVec Format.binary64.numBits} (hfield : field < 2047)
    (hfraction : fraction < leadingBit) (hb : b.toNat = assembled negative field fraction) :
    IsCanonical (UnpackedFloat.unpack Format.binary64 b) ∧
    UnpackedFloat.unpack Format.binary64 b =
      if field = 0 then unpackedOf (signOf negative) fraction (-1074)
      else unpackedOf (signOf negative) (leadingBit + fraction) (field - 1075) := by
  obtain ⟨-, hfield', hfraction', hsign⟩ := @ofBits_assembled negative _ _ hfield hfraction
  have hne : (b.toNat >>> 52) % 2048 ≠ 2047 := by
    rw [hb]
    omega
  rw [unpack_bits hne]
  refine ⟨isCanonical_ofBits hne, ?_⟩
  rw [hb, Binary.unpacked_ofBits, hfield', hfraction', hsign]

end

theorem toNat_packComponents (negative : Bool) (field : BitVec 11) (fraction : BitVec 52) :
    (packComponents Format.binary64 (signOf negative) field fraction).toNat =
      assembled negative field.toNat fraction.toNat := by
  unfold packComponents assembled
  rw [BitVec.toNat_append, ← Nat.shiftLeft_add_eq_or_of_lt fraction.isLt, BitVec.toNat_append,
    ← Nat.shiftLeft_add_eq_or_of_lt field.isLt]
  cases negative with
  | false => simp [signOf, Sign.toBitVec]
  | true =>
    simp only [signOf, Sign.toBitVec, if_true, BitVec.toNat_ofNat, Nat.shiftLeft_eq]
    omega

theorem unpack_packComponents {s : Sign} {field : BitVec 11} {fraction : BitVec 52}
    (h : field ≠ -1#11) :
    UnpackedFloat.unpack Format.binary64 (packComponents Format.binary64 s field fraction) =
      if field.toNat = 0 then unpackedOf s fraction.toNat (-1074)
      else unpackedOf s (leadingBit + fraction.toNat) (field.toNat - 1075) := by
  obtain ⟨negative, rfl⟩ : ∃ negative, s = signOf negative := by
    cases s with
    | positive => exact ⟨false, rfl⟩
    | negative => exact ⟨true, rfl⟩
  have hfield : field.toNat < 2047 := by
    have hne : field.toNat ≠ 2047 := fun heq => h (BitVec.toNat_inj.mp heq)
    omega
  exact (unpack_assembled hfield fraction.isLt (toNat_packComponents ..)).2

theorem pack_finite {s : Sign} {m : Nat} {e : Int} {hm : 0 < m} (h : Canonical m e) :
    UnpackedFloat.pack Format.binary64 (.finite s m e hm) =
      if 2 ^ 52 ≤ m then
        packComponents Format.binary64 s (BitVec.ofNat 11 (e + 1075).toNat) (BitVec.ofNat 52 m)
      else packComponents Format.binary64 s 0#11 (BitVec.ofNat 52 m) := by
  obtain ⟨hlt, hge, hle, -⟩ := h
  have hbias : e + Format.binary64.exponentBias + (52 : Nat) = e + 1075 := by
    rw [show (Format.binary64.exponentBias : Int) = 1023 from rfl]
    omega
  have hlog : m.log2 + 1 = Format.binary64.mantissaBits ↔ 2 ^ 52 ≤ m := by
    have hne := Nat.ne_of_gt hm
    rw [← Nat.le_log2 hne, show Format.binary64.mantissaBits = 53 from rfl]
    have := (Nat.log2_lt hne).mpr hlt
    omega
  unfold UnpackedFloat.pack
  simp only [hbias, hlog]
  rw [if_neg (by omega)]

/-- Nothing is lost in the bits. -/
theorem unpack_pack {u : UnpackedFloat} (h : IsCanonical u) :
    UnpackedFloat.unpack Format.binary64 (UnpackedFloat.pack Format.binary64 u) = u := by
  cases u with
  | notANumber => cases h
  | infinity s => cases h
  | zero s => cases s <;> rfl
  | finite s m e hm =>
    rw [pack_finite h, ← unpackedOf_of_pos s e hm]
    obtain ⟨hlt, hge, hle, hleading⟩ := h
    split
    · rename_i hnormal
      have hfield : (BitVec.ofNat 11 (e + 1075).toNat).toNat = (e + 1075).toNat := by
        rw [BitVec.toNat_ofNat, Nat.mod_eq_of_lt (by omega)]
      have hfraction : leadingBit + (BitVec.ofNat 52 m).toNat = m := by
        rw [BitVec.toNat_ofNat, show leadingBit = 2 ^ 52 from rfl]
        omega
      have hlast : BitVec.ofNat 11 (e + 1075).toNat ≠ -1#11 := by
        rw [ne_eq, ← BitVec.toNat_inj, hfield]
        change (e + 1075).toNat ≠ 2047
        omega
      rw [unpack_packComponents hlast, hfraction, hfield, if_neg (by omega)]
      congr 1
      omega
    · rename_i hsubnormal
      obtain rfl := hleading.resolve_left hsubnormal
      rw [unpack_packComponents (by decide), if_pos BitVec.toNat_zero, BitVec.toNat_ofNat,
        Nat.mod_eq_of_lt (by omega)]

end PlaneSketch.Number
