import PlaneSketch.Proofs.ExactValue
import PlaneSketch.Proofs.Rounding

namespace PlaneSketch.Number

open Float.Model Float.Model.UnpackedFloat

/-- The two bits after a mantissa tell where between it and the next one a number is: whether the
first half is passed, and whether anything is left. -/
def Represents (em : ExtendedMantissa) (x : ℚ) : Prop :=
  ∃ rest, 0 ≤ rest ∧ rest < 1 / 2 ∧ (em.stickyBit = true ↔ 0 < rest) ∧
    x = em.mantissa + em.roundBit.toNat / 2 + rest

theorem represents_exact (m : Nat) :
    Represents (ExtendedMantissa.ofMantissaAndAccuracy m .exact) m :=
  ⟨0, le_rfl, by norm_num, by simp [ExtendedMantissa.ofMantissaAndAccuracy],
    by simp [ExtendedMantissa.ofMantissaAndAccuracy]⟩

theorem Represents.shiftRightOne {em : ExtendedMantissa} {x : ℚ} (h : Represents em x) :
    Represents em.shiftRightOne (x / 2) := by
  obtain ⟨m, roundBit, stickyBit⟩ := em
  obtain ⟨rest, hlow, hhigh, hsticky, rfl⟩ := h
  have hround : (roundBit.toNat : ℚ) ≤ 1 := mod_cast roundBit.toNat_le
  have hround' : (0 : ℚ) ≤ roundBit.toNat := by positivity
  refine ⟨roundBit.toNat / 4 + rest / 2, by linarith, by linarith, ?_, ?_⟩
  · cases roundBit with
    | true => simpa [ExtendedMantissa.shiftRightOne] using by linarith
    | false => simpa [ExtendedMantissa.shiftRightOne] using hsticky
  · have hbit : (m % 2 != 0).toNat = m % 2 := by
      rcases Nat.mod_two_eq_zero_or_one m with h | h <;> simp [h]
    have hm : (m : ℚ) = 2 * (m / 2 : Nat) + (m % 2 : Nat) := mod_cast (Nat.div_add_mod m 2).symm
    change (m + roundBit.toNat / 2 + rest : ℚ) / 2 =
      (m / 2 : Nat) + ((m % 2 != 0).toNat : ℚ) / 2 + (roundBit.toNat / 4 + rest / 2)
    rw [hbit, hm]
    ring

theorem Represents.shiftRight {em : ExtendedMantissa} {x : ℚ} (h : Represents em x) (n : Nat) :
    Represents (em >>> n) (x / 2 ^ n) := by
  change Represents (n.repeat ExtendedMantissa.shiftRightOne em) _
  induction n with
  | zero => simpa [Nat.repeat] using h
  | succ n ih =>
    rw [Nat.repeat, pow_succ, ← div_div]
    exact ih.shiftRightOne

theorem Represents.roundedMantissa {em : ExtendedMantissa} {x : ℚ} (h : Represents em x) :
    roundEven x = em.roundedMantissa := by
  obtain ⟨m, roundBit, stickyBit⟩ := em
  obtain ⟨rest, hlow, hhigh, hsticky, rfl⟩ := h
  rw [roundEven_eq_iff]
  cases roundBit with
  | false =>
    have hm : ExtendedMantissa.roundedMantissa ⟨m, false, stickyBit⟩ = m := by
      cases stickyBit <;> rfl
    have hdiff : (m + (false.toNat : ℚ) / 2 + rest) - (m : ℤ) = rest := by
      push_cast [Bool.toNat_false]
      ring
    rw [hm, hdiff, abs_of_nonneg hlow]
    exact ⟨hhigh.le, fun h => absurd h hhigh.ne⟩
  | true => cases stickyBit with
    | false =>
      obtain rfl : rest = 0 := le_antisymm (not_lt.mp (by simpa using hsticky)) hlow
      have hm : ExtendedMantissa.roundedMantissa ⟨m, true, false⟩ = m + m % 2 := rfl
      have hdiff : (m + (true.toNat : ℚ) / 2 + 0) - (m + m % 2 : Nat) =
          1 / 2 - (m % 2 : Nat) := by
        push_cast [Bool.toNat_true]
        ring
      have habs : |1 / 2 - ((m % 2 : Nat) : ℚ)| = 1 / 2 := by
        rcases Nat.mod_two_eq_zero_or_one m with h | h <;> rw [h] <;> norm_num
      rw [hm, Int.cast_natCast, hdiff, habs]
      exact ⟨le_rfl, fun _ => by rw [Int.even_coe_nat, Nat.even_iff]; omega⟩
    | true =>
      have hrest : 0 < rest := by simpa using hsticky
      have hm : ExtendedMantissa.roundedMantissa ⟨m, true, true⟩ = m + 1 := rfl
      have hdiff : (m + (true.toNat : ℚ) / 2 + rest) - (m + 1 : Nat) = -(1 / 2 - rest) := by
        push_cast [Bool.toNat_true]
        ring
      rw [hm, Int.cast_natCast, hdiff, abs_neg, abs_of_pos (by linarith)]
      exact ⟨by linarith, fun h => absurd h (by linarith)⟩

theorem targetExponent_eq {m : Nat} (e : Int) (hm : 0 < m) :
    Format.binary64.targetExponent (totalExponent m e) = grainExponent (m * 2 ^ e) := by
  have hpos : (0 : ℚ) < m * 2 ^ e := by positivity
  have hlog : Int.log 2 |(m * 2 ^ e : ℚ)| = m.log2 + e := by
    obtain ⟨hlow, hhigh⟩ := (Nat.log2_eq_iff hm.ne').mp rfl
    have hlow : (2 : ℚ) ^ m.log2 ≤ m := mod_cast hlow
    have hhigh : (m : ℚ) < 2 ^ (m.log2 + 1) := mod_cast hhigh
    rw [abs_of_pos hpos, log_two_eq_iff hpos, add_right_comm, zpow_add₀ two_ne_zero,
      zpow_add₀ two_ne_zero]
    exact ⟨by gcongr; exact_mod_cast hlow, by gcongr; exact_mod_cast hhigh⟩
  rw [grainExponent, hlog]
  change max ((m.log2 : Int) + 1 + e - 53) (-1074) = _
  omega

theorem shiftToTargetExponent_spec {m : Nat} {e : Int} (hm : 0 < m)
    (he : e ≤ grainExponent (m * 2 ^ e)) :
    (shiftToTargetExponent Format.binary64 m e .exact).2 = grainExponent (m * 2 ^ e) ∧
    Represents (shiftToTargetExponent Format.binary64 m e .exact).1
      (m * 2 ^ e / grain (m * 2 ^ e)) := by
  unfold shiftToTargetExponent shiftToExponent
  rw [targetExponent_eq e hm, grain]
  generalize grainExponent (m * 2 ^ e) = t at he
  obtain ⟨n, rfl⟩ := Int.le.dest he
  have hn : (e + n - e).toNat = n := by omega
  have hscale : (m * 2 ^ e / 2 ^ (e + n) : ℚ) = m / 2 ^ n := by
    rw [zpow_add₀ two_ne_zero, zpow_natCast, mul_comm (m : ℚ), mul_div_mul_left]
    positivity
  simp only [hn, hscale, true_and]
  exact (represents_exact m).shiftRight n

/-- A mantissa that has been rounded up to one bit too many is halved, and nothing is lost. -/
def carried (s : Sign) (m : Nat) (t : Int) : UnpackedFloat :=
  if m < 2 ^ 53 then unpackedOf s m t else unpackedOf s (2 ^ 52) (t + 1)

theorem unpackedOf_shiftToTargetExponent (s : Sign) {m : Nat} {t : Int} (hm : m ≤ 2 ^ 53)
    (ht : -1074 ≤ t) :
    unpackedOf s (shiftToTargetExponent Format.binary64 m t .exact).1.mantissa
      (shiftToTargetExponent Format.binary64 m t .exact).2 = carried s m t := by
  have htarget : Format.binary64.targetExponent (totalExponent m t) =
      max ((m.log2 : Int) + 1 + t - 53) (-1074) := rfl
  unfold shiftToTargetExponent shiftToExponent carried
  simp only [htarget]
  split
  · rename_i hlt
    have hlog : m.log2 < 53 := by
      rcases Nat.eq_zero_or_pos m with rfl | hpos
      · decide
      · exact (Nat.log2_lt hpos.ne').mpr hlt
    rw [show (max ((m.log2 : Int) + 1 + t - 53) (-1074) - t).toNat = 0 by omega]
    exact congrArg _ (add_zero t)
  · obtain rfl : m = 2 ^ 53 := by omega
    rw [Nat.log2_two_pow,
      show (max (((53 : Nat) : Int) + 1 + t - 53) (-1074) - t).toNat = 1 by omega]
    rfl

theorem roundWithAccuracy_eq {s : Sign} {m : Nat} {e : Int} (hm : 0 < m)
    (he : e ≤ grainExponent (m * 2 ^ e)) :
    roundWithAccuracy Format.binary64 s m e .exact =
      carried s (roundEven (m * 2 ^ e / grain (m * 2 ^ e))).toNat
        (grainExponent (m * 2 ^ e)) := by
  obtain ⟨hexponent, hrepresents⟩ := shiftToTargetExponent_spec hm he
  have hrounded := congrArg Int.toNat hrepresents.roundedMantissa
  have hle := roundEven_div_grain_le (magnitude_pos e hm)
  rw [← unpackedOf_shiftToTargetExponent s (by omega) (grainExponent_ge _), hrounded,
    Int.toNat_natCast, ← hexponent]
  rfl

theorem decreaseExponent_spec (m : Nat) (e t : Int) :
    ((decreaseExponent m e t).1 : ℚ) * 2 ^ (decreaseExponent m e t).2 = m * 2 ^ e ∧
    (decreaseExponent m e t).2 = min e t := by
  change ((m <<< (e - t).toNat : Nat) : ℚ) * 2 ^ (e - (e - t).toNat) = _ ∧
    e - (e - t).toNat = _
  refine ⟨?_, by omega⟩
  rw [Nat.shiftLeft_eq, Nat.cast_mul, Nat.cast_pow, ← zpow_natCast, mul_assoc, Nat.cast_ofNat,
    ← zpow_add₀ two_ne_zero, add_sub_cancel]

theorem round_eq (s : Sign) {m : Nat} (e : Int) (hm : 0 < m) :
    round Format.binary64 s m e =
      carried s (roundEven (m * 2 ^ e / grain (m * 2 ^ e))).toNat
        (grainExponent (m * 2 ^ e)) := by
  have hround : round Format.binary64 s m e =
      let start := decreaseExponent m e (grainExponent (m * 2 ^ e))
      roundWithAccuracy Format.binary64 s start.1 start.2 .exact := by
    rw [← targetExponent_eq e hm]
    rfl
  obtain ⟨hvalue, hexponent⟩ := decreaseExponent_spec m e (grainExponent (m * 2 ^ e))
  rw [hround]
  generalize decreaseExponent m e (grainExponent (m * 2 ^ e)) = start at hvalue hexponent
  have hpos := magnitude_pos e hm
  rw [← hvalue] at hexponent hpos ⊢
  have hstart : (0 : ℚ) < start.1 := pos_of_mul_pos_left hpos (by positivity)
  exact roundWithAccuracy_eq (mod_cast hstart) (hexponent.trans_le (min_le_right _ _))

theorem nearest_apply (s : Sign) (m : Nat) (e : Int) :
    nearest (s.apply m * 2 ^ e) =
      s.apply (roundEven (m * 2 ^ e / grain (m * 2 ^ e))) * grain (m * 2 ^ e) := by
  cases s with
  | positive => simp [Sign.apply, nearest]
  | negative =>
    simp only [Sign.apply, Int.cast_neg, neg_mul, nearest_neg]
    rfl

/-- A number far enough below the largest double is rounded to the nearest one. -/
theorem round_spec (s : Sign) {m : Nat} (e : Int) (hm : 0 < m) (h : (m * 2 ^ e : ℚ) < 2 ^ 1023) :
    IsCanonical (round Format.binary64 s m e) ∧
    valueOf (round Format.binary64 s m e) = nearest (s.apply m * 2 ^ e) := by
  rw [round_eq s e hm, nearest_apply]
  have hpos := magnitude_pos e hm
  generalize (m * 2 ^ e : ℚ) = x at *
  obtain ⟨rounded, hrounded⟩ := Int.eq_ofNat_of_zero_le (roundEven_div_grain_nonneg hpos)
  have hroom := roundEven_div_grain_le hpos
  have hleading := le_roundEven_div_grain hpos
  have hge := grainExponent_ge x
  have hle : grainExponent x ≤ 970 :=
    grainExponent_le hpos.ne' (by rwa [abs_of_pos hpos]) (by norm_num)
  rw [hrounded] at hroom hleading ⊢
  rw [Int.toNat_natCast]
  unfold carried
  split
  · rename_i hlt
    refine ⟨isCanonical_unpackedOf fun _ => ?_, valueOf_unpackedOf ..⟩
    exact ⟨hlt, hge, by omega, by omega⟩
  · obtain rfl : rounded = 2 ^ 53 := by omega
    refine ⟨isCanonical_unpackedOf fun _ => ⟨by norm_num, by omega, by omega, .inl le_rfl⟩, ?_⟩
    rw [valueOf_unpackedOf, zpow_add_one₀ two_ne_zero, grain]
    cases s <;> simp only [Sign.apply] <;> push_cast <;> ring

theorem normalize_spec {m : Int} {e : Int} (zeroSign : Sign) (h : |(m * 2 ^ e : ℚ)| < 2 ^ 1023) :
    IsCanonical (UnpackedFloat.normalize Format.binary64 m e zeroSign) ∧
    valueOf (UnpackedFloat.normalize Format.binary64 m e zeroSign) = nearest (m * 2 ^ e) := by
  unfold UnpackedFloat.normalize
  rcases lt_trichotomy m 0 with hneg | rfl | hpos
  · rw [compare_lt_iff_lt.mpr hneg]
    have hm : ((-m).toNat : Int) = -m := Int.toNat_of_nonneg (by omega)
    have hmantissa : m = Sign.negative.apply (-m).toNat := by simp [Sign.apply, hm]
    have hbound : ((-m).toNat * 2 ^ e : ℚ) < 2 ^ 1023 := by
      have := (abs_lt.mp h).1
      rw [← Int.cast_natCast, hm]
      push_cast
      rwa [neg_mul, neg_lt]
    have hspec := round_spec .negative e (Int.pos_iff_toNat_pos.mp (by omega)) hbound
    rwa [← hmantissa] at hspec
  · rw [compare_eq_iff_eq.mpr rfl]
    exact ⟨trivial, by rw [Int.cast_zero, zero_mul, nearest_zero, valueOf_zero]⟩
  · rw [compare_gt_iff_gt.mpr hpos]
    have hm : (m.toNat : Int) = m := Int.toNat_of_nonneg hpos.le
    have hmantissa : m = Sign.positive.apply m.toNat := by simp [Sign.apply, hm]
    have hbound : (m.toNat * 2 ^ e : ℚ) < 2 ^ 1023 := by
      have := (abs_lt.mp h).2
      rwa [← Int.cast_natCast, hm]
    have hspec := round_spec .positive e (Int.pos_iff_toNat_pos.mp hpos) hbound
    rwa [← hmantissa] at hspec

theorem nearest_valueOf {u : UnpackedFloat} (h : IsCanonical u) :
    nearest (valueOf u) = valueOf u := by
  cases u with
  | notANumber => cases h
  | infinity s => cases h
  | zero s => exact nearest_zero
  | finite s m e hm =>
    refine nearest_of_multiple ?_ h.exponent_ge
    have hlt : (m : ℚ) < 2 ^ 53 := mod_cast h.mantissa_lt
    have habs : |(s.apply m * 2 ^ e : ℚ)| = m * 2 ^ e := by
      have hpos := magnitude_pos e hm
      cases s <;> simp [Sign.apply, abs_of_pos hpos]
    rw [habs, zpow_add₀ two_ne_zero, mul_comm]
    gcongr
    exact_mod_cast hlt

theorem decreaseExponent_apply (s : Sign) (m : Nat) {e t : Int} (h : t ≤ e) :
    (s.apply (decreaseExponent m e t).1 * 2 ^ t : ℚ) = s.apply m * 2 ^ e := by
  obtain ⟨hvalue, hexponent⟩ := decreaseExponent_spec m e t
  rw [hexponent, min_eq_right h] at hvalue
  cases s <;> simp only [Sign.apply] <;> push_cast <;> linarith

theorem add_spec {u v : UnpackedFloat} (hu : IsCanonical u) (hv : IsCanonical v)
    (h : |valueOf u + valueOf v| < 2 ^ 1023) :
    IsCanonical (UnpackedFloat.add Format.binary64 u v) ∧
    valueOf (UnpackedFloat.add Format.binary64 u v) = nearest (valueOf u + valueOf v) := by
  cases u with
  | notANumber => cases hu
  | infinity s => cases hu
  | zero s => cases v with
    | notANumber => cases hv
    | infinity t => cases hv
    | zero t =>
      obtain ⟨r, hr⟩ : ∃ r, UnpackedFloat.add Format.binary64 (.zero s) (.zero t) = .zero r := by
        cases s <;> cases t <;> exact ⟨_, rfl⟩
      rw [hr, valueOf_zero, valueOf_zero, valueOf_zero, add_zero, nearest_zero]
      exact ⟨trivial, rfl⟩
    | finite t n f hn =>
      exact ⟨hv, by rw [valueOf_zero, zero_add, nearest_valueOf hv]; rfl⟩
  | finite s m e hm => cases v with
    | notANumber => cases hv
    | infinity t => cases hv
    | zero t =>
      exact ⟨hu, by rw [valueOf_zero, add_zero, nearest_valueOf hu]; rfl⟩
    | finite t n f hn =>
      have hsum : valueOf (.finite s m e hm) + valueOf (.finite t n f hn) =
          (s.apply (decreaseExponent m e (min e f)).1 + t.apply (decreaseExponent n f (min e f)).1 :
            Int) * 2 ^ min e f := by
        rw [Int.cast_add, add_mul, decreaseExponent_apply s m (min_le_left e f),
          decreaseExponent_apply t n (min_le_right e f)]
        rfl
      rw [hsum] at h ⊢
      exact normalize_spec .positive h

theorem isCanonical_neg {u : UnpackedFloat} (h : IsCanonical u) : IsCanonical u.neg := by
  cases u with
  | notANumber => cases h
  | infinity s => cases h
  | zero s => trivial
  | finite s m e hm => exact h

theorem valueOf_neg (u : UnpackedFloat) : valueOf u.neg = -valueOf u := by
  cases u with
  | notANumber => rfl
  | infinity s => rfl
  | zero s => rfl
  | finite s m e hm => cases s with
    | negative =>
      rw [valueOf_negative, neg_neg]
      exact valueOf_positive m e hm
    | positive =>
      rw [valueOf_positive]
      exact valueOf_negative m e hm

theorem sub_eq_add (u v : UnpackedFloat) :
    UnpackedFloat.sub Format.binary64 u v = UnpackedFloat.add Format.binary64 u v.neg := by
  cases u with
  | notANumber => rfl
  | infinity s => cases v with
    | infinity t => cases s <;> cases t <;> rfl
    | _ => rfl
  | zero s => cases v with
    | zero t => cases s <;> cases t <;> rfl
    | _ => rfl
  | finite s m e hm => cases v with
    | finite t n f hn =>
      have happly (k : Int) : t.apply k = -(-t).apply k := by
        cases t with
        | negative => rfl
        | positive => exact (neg_neg k).symm
      change UnpackedFloat.normalize Format.binary64 (s.apply _ - t.apply _) _ _ = _
      rw [happly, sub_neg_eq_add]
      rfl
    | _ => rfl

section

variable {x y : Float}

theorem toRat_add (hx : x.isFinite = true) (hy : y.isFinite = true)
    (h : |toRat x + toRat y| < 2 ^ 1023) :
    (x + y).isFinite = true ∧ toRat (x + y) = nearest (toRat x + toRat y) := by
  obtain ⟨hcanonical, hvalue⟩ := add_spec (isCanonical_unpack hx) (isCanonical_unpack hy) h
  have hunpack : (x + y).toModel.unpack =
      UnpackedFloat.add Format.binary64 x.toModel.unpack y.toModel.unpack :=
    unpack_ofModel_pack hcanonical
  exact ⟨isFinite_of_unpack hunpack hcanonical, (congrArg valueOf hunpack).trans hvalue⟩

theorem toRat_sub (hx : x.isFinite = true) (hy : y.isFinite = true)
    (h : |toRat x - toRat y| < 2 ^ 1023) :
    (x - y).isFinite = true ∧ toRat (x - y) = nearest (toRat x - toRat y) := by
  have hneg : toRat x - toRat y =
      valueOf x.toModel.unpack + valueOf y.toModel.unpack.neg := by
    rw [valueOf_neg, ← sub_eq_add_neg]
    rfl
  rw [hneg] at h ⊢
  obtain ⟨hcanonical, hvalue⟩ :=
    add_spec (isCanonical_unpack hx) (isCanonical_neg (isCanonical_unpack hy)) h
  have hunpack : (x - y).toModel.unpack =
      UnpackedFloat.add Format.binary64 x.toModel.unpack y.toModel.unpack.neg := by
    rw [← sub_eq_add] at hcanonical ⊢
    exact unpack_ofModel_pack hcanonical
  exact ⟨isFinite_of_unpack hunpack hcanonical, (congrArg valueOf hunpack).trans hvalue⟩

theorem nearest_toRat (h : x.isFinite = true) : nearest (toRat x) = toRat x :=
  nearest_valueOf (isCanonical_unpack h)

end

end PlaneSketch.Number
