import Mathlib

/-!
# Arithmetic in double precision

The operations of `Float` have equations: they unpack their arguments, compute a mantissa with
enough bits, round it, and pack the result.  Away from the ends of the range of exponents they are
faithful: a quotient or a product of normal numbers differs from the exact one by less than one
unit in the last place, that is, by at most `2 ^ (-52)` of its value.  Integers of at most 53 bits
are exact.
-/

open Float.Model Float.Model.UnpackedFloat

namespace RtpSender.Binary64

/-! ## Numbers -/

/-- The number that a finite `Float` stands for. -/
def toRat (f : Float) : Option ℚ :=
  match f.toModel.unpack with
  | .finite sign mantissa exponent _ => some (sign.apply mantissa * 2 ^ exponent)
  | .zero _ => some 0
  | .infinity _ | .notANumber => none

/-- A normal number: its sign, and its magnitude with a mantissa of 53 bits. -/
def Normal (sign : Sign) (magnitude : ℚ) (f : UnpackedFloat) : Prop :=
  ∃ mantissa exponent, ∃ hpos : 0 < mantissa, f = .finite sign mantissa exponent hpos ∧
    2 ^ 52 ≤ mantissa ∧ mantissa < 2 ^ 53 ∧ (mantissa : ℚ) * 2 ^ exponent = magnitude

/-- Magnitudes far from overflow and from the subnormal numbers. -/
def InRange (magnitude : ℚ) : Prop := 2 ^ (-200 : ℤ) ≤ magnitude ∧ magnitude ≤ 2 ^ (200 : ℤ)

/-- `y` differs from `x` by at most one unit in the last place. -/
def Close (x y : ℚ) : Prop := |y - x| ≤ x * 2 ^ (-52 : ℤ)

/-! ## Rounding -/

theorem mantissa_shiftRight (em : ExtendedMantissa) (n : ℕ) :
    (em >>> n).mantissa = em.mantissa / 2 ^ n := by
  induction n with
  | zero => simp [HShiftRight.hShiftRight, Nat.repeat]
  | succ n ih =>
    calc (em >>> (n + 1)).mantissa
        = (em >>> n).mantissa / 2 := rfl
      _ = em.mantissa / 2 ^ n / 2 := by rw [ih]
      _ = em.mantissa / 2 ^ (n + 1) := by rw [Nat.div_div_eq_div_mul, Nat.pow_succ]

theorem roundedMantissa_cases (em : ExtendedMantissa) :
    em.roundedMantissa = em.mantissa ∨ em.roundedMantissa = em.mantissa + 1 := by
  obtain ⟨mantissa, roundBit, stickyBit⟩ := em
  cases roundBit <;> cases stickyBit
  · exact .inl rfl
  · exact .inl rfl
  · change mantissa + mantissa % 2 = mantissa ∨ mantissa + mantissa % 2 = mantissa + 1
    omega
  · exact .inr rfl

theorem mantissa_ofMantissaAndAccuracy (mantissa : ℕ) (accuracy : Accuracy) :
    (ExtendedMantissa.ofMantissaAndAccuracy mantissa accuracy).mantissa = mantissa := by
  unfold ExtendedMantissa.ofMantissaAndAccuracy
  split <;> rfl

/-- Numbers that are not subnormal keep 53 bits. -/
theorem targetExponent_eq {mantissa : ℕ} {exponent : ℤ}
    (h : -1074 ≤ mantissa.log2 + exponent - 52) :
    Format.binary64.targetExponent (totalExponent mantissa exponent) =
      mantissa.log2 + exponent - 52 := by
  unfold Format.targetExponent totalExponent Format.mantissaBits Format.minExponent
  simp only [Format.mantissaBits]
  norm_num
  omega

theorem shiftToTargetExponent_eq {mantissa shift : ℕ} {exponent : ℤ}
    (hlog : mantissa.log2 = 52 + shift) (hexponent : -1074 ≤ exponent + shift)
    (accuracy : Accuracy) :
    shiftToTargetExponent Format.binary64 mantissa exponent accuracy =
      (ExtendedMantissa.ofMantissaAndAccuracy mantissa accuracy >>> shift, exponent + shift) := by
  have hshift : (mantissa.log2 + exponent - 52 - exponent : ℤ).toNat = shift := by omega
  unfold shiftToTargetExponent
  rw [targetExponent_eq (by omega)]
  unfold shiftToExponent
  simp only [hshift]

/-- A mantissa of 53 bits, or one more than the largest, is only brought into its normal form. -/
theorem normal_of_rounded {mantissa : ℕ} {exponent : ℤ} (hlow : 2 ^ 52 ≤ mantissa)
    (hhigh : mantissa ≤ 2 ^ 53) (hexponent : -1074 ≤ exponent) (sign : Sign) :
    Normal sign (mantissa * 2 ^ exponent)
      (let final := shiftToTargetExponent Format.binary64 mantissa exponent .exact
      if h : final.1.mantissa = 0 then .zero sign
      else .finite sign final.1.mantissa final.2 (Nat.pos_of_ne_zero h)) := by
  have hpos : mantissa ≠ 0 := by omega
  rcases hhigh.lt_or_eq with hlt | heq
  · have hlog : mantissa.log2 = 52 + 0 := (Nat.log2_eq_iff hpos).mpr ⟨hlow, hlt⟩
    rw [shiftToTargetExponent_eq hlog (by simpa using hexponent)]
    refine ⟨mantissa, exponent, by omega, ?_, hlow, hlt, rfl⟩
    simp [mantissa_shiftRight, mantissa_ofMantissaAndAccuracy, hpos]
  · subst heq
    have hlog : (2 ^ 53 : ℕ).log2 = 52 + 1 := by rw [Nat.log2_two_pow]
    rw [shiftToTargetExponent_eq hlog (by omega)]
    refine ⟨2 ^ 52, exponent + 1, by omega, ?_, le_rfl, by omega, ?_⟩
    · simp [mantissa_shiftRight, mantissa_ofMantissaAndAccuracy]
    · rw [zpow_add₀ two_ne_zero]
      push_cast
      ring

theorem normal_of_exact {mantissa : ℕ} {exponent : ℤ} (hlow : 2 ^ 52 ≤ mantissa)
    (hhigh : mantissa < 2 ^ 53) (hexponent : -1074 ≤ exponent) (sign : Sign) :
    Normal sign (mantissa * 2 ^ exponent)
      (roundWithAccuracy Format.binary64 sign mantissa exponent .exact) := by
  have hlog : mantissa.log2 = 52 + 0 := (Nat.log2_eq_iff (by omega)).mpr ⟨hlow, hhigh⟩
  have hresult := normal_of_rounded hlow hhigh.le hexponent sign
  unfold roundWithAccuracy
  rw [shiftToTargetExponent_eq hlog (by simpa using hexponent), Nat.cast_zero, add_zero]
  exact hresult

section Shift

variable {mantissa : ℕ} {exponent : ℤ} {x : ℚ}

/-- The bits that are shifted out leave the mantissa within one unit. -/
theorem quotient_le (shift : ℕ) (hlow : mantissa * 2 ^ exponent ≤ x) :
    (mantissa / 2 ^ shift : ℕ) * (2 : ℚ) ^ (exponent + shift) ≤ x := by
  have hscale : (2 : ℚ) ^ (exponent + shift) = 2 ^ shift * 2 ^ exponent := by
    rw [zpow_add₀ two_ne_zero, zpow_natCast, mul_comm]
  have hcast : ((mantissa / 2 ^ shift : ℕ) : ℚ) * 2 ^ shift ≤ mantissa := by
    exact_mod_cast Nat.div_mul_le_self mantissa (2 ^ shift)
  calc ((mantissa / 2 ^ shift : ℕ) : ℚ) * 2 ^ (exponent + shift)
      = (mantissa / 2 ^ shift : ℕ) * 2 ^ shift * 2 ^ exponent := by rw [hscale, mul_assoc]
    _ ≤ mantissa * 2 ^ exponent := by gcongr
    _ ≤ x := hlow

theorem le_quotient_succ (shift : ℕ) (hhigh : x ≤ (mantissa + 1) * 2 ^ exponent) :
    x ≤ ((mantissa / 2 ^ shift : ℕ) + 1) * (2 : ℚ) ^ (exponent + shift) := by
  have hscale : (2 : ℚ) ^ (exponent + shift) = 2 ^ shift * 2 ^ exponent := by
    rw [zpow_add₀ two_ne_zero, zpow_natCast, mul_comm]
  have hcast : (mantissa : ℚ) + 1 ≤ ((mantissa / 2 ^ shift : ℕ) + 1) * 2 ^ shift := by
    exact_mod_cast Nat.lt_mul_of_div_lt (Nat.lt_succ_self _) (by positivity)
  calc x ≤ (mantissa + 1) * 2 ^ exponent := hhigh
    _ ≤ ((mantissa / 2 ^ shift : ℕ) + 1) * 2 ^ shift * 2 ^ exponent := by gcongr
    _ = ((mantissa / 2 ^ shift : ℕ) + 1) * 2 ^ (exponent + shift) := by rw [hscale, mul_assoc]

/-- A unit in the last place of 53 bits is small against the number. -/
theorem unit_le (hbits : 2 ^ 52 ≤ mantissa) (hlow : mantissa * 2 ^ exponent ≤ x) :
    2 ^ exponent ≤ x * 2 ^ (-52 : ℤ) := by
  calc (2 : ℚ) ^ exponent
      = 2 ^ 52 * 2 ^ exponent * 2 ^ (-52 : ℤ) := by
        rw [mul_right_comm, ← zpow_natCast, ← zpow_add₀ two_ne_zero]
        norm_num
    _ ≤ mantissa * 2 ^ exponent * 2 ^ (-52 : ℤ) := by
        gcongr
        exact_mod_cast hbits
    _ ≤ x * 2 ^ (-52 : ℤ) := by gcongr

end Shift

/-- What a mantissa of at least 53 bits is rounded to is close to every number that the mantissa
may stand for. -/
theorem normal_roundWithAccuracy {mantissa : ℕ} {exponent : ℤ} {x : ℚ}
    (hlog : 52 ≤ mantissa.log2) (hexponent : -1074 ≤ mantissa.log2 + exponent - 52)
    (hlow : mantissa * 2 ^ exponent ≤ x) (hhigh : x ≤ (mantissa + 1) * 2 ^ exponent)
    (sign : Sign) (accuracy : Accuracy) :
    ∃ y, Close x y ∧
      Normal sign y (roundWithAccuracy Format.binary64 sign mantissa exponent accuracy) := by
  obtain ⟨shift, hshift⟩ := Nat.exists_eq_add_of_le hlog
  have hpos : mantissa ≠ 0 := by
    rintro rfl
    simp at hlog
  obtain ⟨hbits, hbits'⟩ := (Nat.log2_eq_iff hpos).mp hshift
  have hquotient : 2 ^ 52 ≤ mantissa / 2 ^ shift := by
    rw [Nat.le_div_iff_mul_le (by positivity), ← pow_add]
    exact hbits
  have hquotient' : mantissa / 2 ^ shift < 2 ^ 53 := by
    rw [Nat.div_lt_iff_lt_mul (by positivity), ← pow_add]
    exact lt_of_lt_of_eq hbits' (by congr 1; omega)
  have hunit : (0 : ℚ) < 2 ^ (exponent + shift) := by positivity
  have hfloor := quotient_le shift hlow
  have hceil := le_quotient_succ shift hhigh
  have hrounded := roundedMantissa_cases
    (ExtendedMantissa.ofMantissaAndAccuracy mantissa accuracy >>> shift)
  rw [mantissa_shiftRight, mantissa_ofMantissaAndAccuracy] at hrounded
  have hresult : Normal sign ((ExtendedMantissa.ofMantissaAndAccuracy mantissa accuracy >>>
      shift).roundedMantissa * 2 ^ (exponent + shift))
      (roundWithAccuracy Format.binary64 sign mantissa exponent accuracy) := by
    unfold roundWithAccuracy
    rw [shiftToTargetExponent_eq hshift (by omega)]
    exact normal_of_rounded (by omega) (by omega) (by omega) sign
  refine ⟨_, ?_, hresult⟩
  refine le_trans (abs_le.mpr ?_) (unit_le hquotient hfloor)
  rcases hrounded with h | h
  · rw [h]
    constructor <;> linarith
  · rw [h]
    push_cast
    constructor <;> linarith

/-! ## Packing -/

theorem unpack_pack {mantissa : ℕ} {exponent : ℤ} (hbits : 2 ^ 52 ≤ mantissa)
    (hbits' : mantissa < 2 ^ 53) (hlow : -1074 ≤ exponent) (hhigh : exponent ≤ 971) (sign : Sign)
    (hpos : 0 < mantissa) :
    (Float.Model.pack (.finite sign mantissa exponent hpos)).unpack =
      .finite sign mantissa exponent hpos := by
  have hlog : mantissa.log2 = 52 := (Nat.log2_eq_iff (by omega)).mpr ⟨hbits, hbits'⟩
  have hpacked : UnpackedFloat.pack Format.binary64 (.finite sign mantissa exponent hpos) =
      packComponents Format.binary64 sign (BitVec.ofNat 11 (exponent + 1075).toNat)
        (BitVec.ofNat 52 mantissa) := by
    have hbias : (exponent + (Format.binary64.exponentBias : ℤ) +
        (Format.binary64.mantissaBitsWithoutImplicit : ℤ)).toNat = (exponent + 1075).toNat := by
      simp only [Format.exponentBias]
      omega
    unfold UnpackedFloat.pack
    simp only [hbias, hlog, Format.mantissaBits]
    rw [if_neg (by simp; omega), if_pos trivial]
  have hexponent : (BitVec.ofNat 11 (exponent + 1075).toNat).toNat = (exponent + 1075).toNat := by
    rw [BitVec.toNat_ofNat, Nat.mod_eq_of_lt (by omega)]
  have hmantissa : (1#1 ++ BitVec.ofNat 52 mantissa).toNat = mantissa := by
    rw [BitVec.toNat_append, ← Nat.shiftLeft_add_eq_or_of_lt (BitVec.isLt _), BitVec.toNat_ofNat,
      BitVec.toNat_ofNat]
    omega
  unfold Float.Model.unpack Float.Model.pack
  rw [UInt64.toBitVec_ofBitVec, hpacked]
  unfold UnpackedFloat.unpack
  simp only [unpackExponent_packComponents, unpackMantissa_packComponents,
    unpackSign_packComponents, Sign.ofBitVec_toBitVec]
  have hones : BitVec.ofNat 11 (exponent + 1075).toNat ≠ -1#11 := by
    intro heq
    have hnat := congrArg BitVec.toNat heq
    rw [hexponent] at hnat
    change _ = 2047 at hnat
    omega
  have hzero : BitVec.ofNat 11 (exponent + 1075).toNat ≠ 0#11 := by
    intro heq
    have hnat := congrArg BitVec.toNat heq
    rw [hexponent] at hnat
    change _ = 0 at hnat
    omega
  rw [if_neg hones, if_neg hzero]
  have hunbiased : ((exponent + 1075).toNat : ℤ) -
      ((Format.binary64.exponentBias : ℤ) + (52 : ℕ)) = exponent := by
    simp only [Format.exponentBias]
    omega
  simp only [hexponent, hmantissa, hunbiased]

/-- Packing loses nothing of a normal number in range. -/
theorem Normal.unpack_pack {sign : Sign} {x : ℚ} {f : UnpackedFloat} (h : Normal sign x f)
    (hlow : 2 ^ (-201 : ℤ) ≤ x) (hhigh : x ≤ 2 ^ (201 : ℤ)) :
    (Float.Model.pack f).unpack = f := by
  obtain ⟨mantissa, exponent, hpos, rfl, hbits, hbits', rfl⟩ := h
  have hbelow : (-201 : ℤ) < 53 + exponent := by
    have hlt : (2 : ℚ) ^ (-201 : ℤ) < 2 ^ (53 + exponent) := by
      calc (2 : ℚ) ^ (-201 : ℤ)
          ≤ mantissa * 2 ^ exponent := hlow
        _ < 2 ^ 53 * 2 ^ exponent := by
          gcongr
          exact_mod_cast hbits'
        _ = 2 ^ (53 + exponent) := by rw [zpow_add₀ two_ne_zero]; rfl
    exact (zpow_lt_zpow_iff_right₀ one_lt_two).mp hlt
  have habove : 52 + exponent ≤ 201 := by
    have hle : (2 : ℚ) ^ (52 + exponent) ≤ 2 ^ (201 : ℤ) := by
      calc (2 : ℚ) ^ (52 + exponent)
          = 2 ^ 52 * 2 ^ exponent := by rw [zpow_add₀ two_ne_zero]; rfl
        _ ≤ mantissa * 2 ^ exponent := by
          gcongr
          exact_mod_cast hbits
        _ ≤ 2 ^ (201 : ℤ) := hhigh
    exact (zpow_le_zpow_iff_right₀ one_lt_two).mp hle
  exact Binary64.unpack_pack hbits hbits' (by omega) (by omega) sign hpos

/-! ## Operations -/

/-- The total exponent bounds a number from above. -/
theorem lt_two_zpow_log2 {mantissa : ℕ} (hpos : mantissa ≠ 0) (exponent : ℤ) :
    (mantissa + 1 : ℚ) * 2 ^ exponent ≤ 2 ^ (mantissa.log2 + 1 + exponent) := by
  have hbits : mantissa + 1 ≤ 2 ^ (mantissa.log2 + 1) :=
    ((Nat.log2_eq_iff hpos).mp rfl).2
  calc (mantissa + 1 : ℚ) * 2 ^ exponent
      ≤ 2 ^ (mantissa.log2 + 1) * 2 ^ exponent := by
        gcongr
        exact_mod_cast hbits
    _ = 2 ^ (mantissa.log2 + 1 + exponent) := by
        rw [zpow_add₀ two_ne_zero, ← zpow_natCast]
        push_cast
        rfl

/-- Numbers in range are not subnormal. -/
theorem InRange.le_exponent {mantissa : ℕ} {exponent : ℤ} {x : ℚ} (h : InRange x)
    (hpos : mantissa ≠ 0) (hhigh : x ≤ (mantissa + 1) * 2 ^ exponent) :
    -1074 ≤ mantissa.log2 + exponent - 52 := by
  have hle : (2 : ℚ) ^ (-200 : ℤ) ≤ 2 ^ (mantissa.log2 + 1 + exponent) :=
    h.1.trans (hhigh.trans (lt_two_zpow_log2 hpos exponent))
  have hexponent := (zpow_le_zpow_iff_right₀ one_lt_two).mp hle
  omega

theorem Close.bounds {x y : ℚ} (h : Close x y) (hx : InRange x) :
    2 ^ (-201 : ℤ) ≤ y ∧ y ≤ 2 ^ (201 : ℤ) := by
  have hpos : (0 : ℚ) < x := lt_of_lt_of_le (by positivity) hx.1
  have hhalf : (2 : ℚ) ^ (-52 : ℤ) ≤ 1 / 2 := by norm_num
  obtain ⟨hbelow, habove⟩ := abs_le.mp (h.trans (mul_le_mul_of_nonneg_left hhalf hpos.le))
  constructor
  · calc (2 : ℚ) ^ (-201 : ℤ)
        = 2 ^ (-200 : ℤ) * (1 / 2) := by norm_num
      _ ≤ x * (1 / 2) := by gcongr; exact hx.1
      _ ≤ y := by linarith
  · calc y ≤ x * 2 := by linarith
      _ ≤ 2 ^ (200 : ℤ) * 2 := by gcongr; exact hx.2
      _ = 2 ^ (201 : ℤ) := by norm_num

/-- The last step of all operations. -/
theorem normal_pack_roundWithAccuracy {mantissa : ℕ} {exponent : ℤ} {x : ℚ}
    (hlog : 52 ≤ mantissa.log2) (hx : InRange x) (hlow : mantissa * 2 ^ exponent ≤ x)
    (hhigh : x ≤ (mantissa + 1) * 2 ^ exponent) (sign : Sign) (accuracy : Accuracy) :
    ∃ y, Close x y ∧ Normal sign y (Float.Model.pack
      (roundWithAccuracy Format.binary64 sign mantissa exponent accuracy)).unpack := by
  have hpos : mantissa ≠ 0 := by
    rintro rfl
    simp at hlog
  obtain ⟨y, hclose, hnormal⟩ := normal_roundWithAccuracy hlog
    (hx.le_exponent hpos hhigh) hlow hhigh sign accuracy
  have hbounds := hclose.bounds hx
  refine ⟨y, hclose, ?_⟩
  rwa [hnormal.unpack_pack hbounds.1 hbounds.2]

theorem Normal.mul {sign sign' : Sign} {x y : ℚ} {a b : Float}
    (ha : Normal sign x a.toModel.unpack) (hb : Normal sign' y b.toModel.unpack)
    (hrange : InRange (x * y)) :
    ∃ z, Close (x * y) z ∧ Normal (sign * sign') z (a * b).toModel.unpack := by
  obtain ⟨mantissa, exponent, hpos, hunpack, hbits, -, rfl⟩ := ha
  obtain ⟨mantissa', exponent', hpos', hunpack', hbits', -, rfl⟩ := hb
  have hproduct : (mantissa * 2 ^ exponent * (mantissa' * 2 ^ exponent') : ℚ) =
      (mantissa * mantissa' : ℕ) * 2 ^ (exponent + exponent') := by
    rw [zpow_add₀ two_ne_zero]
    push_cast
    ring
  have hlog : 52 ≤ (mantissa * mantissa').log2 := by
    rw [Nat.le_log2 (by positivity)]
    exact hbits.trans (Nat.le_mul_of_pos_right mantissa hpos')
  have hop : (a * b).toModel.unpack = (Float.Model.pack (roundWithAccuracy Format.binary64
      (sign * sign') (mantissa * mantissa') (exponent + exponent') .exact)).unpack := by
    change (Float.Model.pack (UnpackedFloat.mul Format.binary64 a.toModel.unpack
      b.toModel.unpack)).unpack = _
    rw [hunpack, hunpack']
    rfl
  rw [hop]
  refine normal_pack_roundWithAccuracy hlog hrange hproduct.ge ?_ _ _
  rw [hproduct]
  gcongr
  linarith

theorem divCore_eq {mantissa mantissa' : ℕ} {exponent exponent' : ℤ} (hbits : 2 ^ 52 ≤ mantissa)
    (hbits' : mantissa < 2 ^ 53) (hbitsTwo : 2 ^ 52 ≤ mantissa') (hbitsTwo' : mantissa' < 2 ^ 53)
    (hexponent : -1021 ≤ exponent - exponent') :
    divCore Format.binary64 mantissa exponent mantissa' exponent' =
      (mantissa * 2 ^ 53 / mantissa', exponent - exponent' - 53,
        accuracyOfFraction (mantissa * 2 ^ 53 % mantissa') mantissa') := by
  have hlog : mantissa.log2 = 52 := (Nat.log2_eq_iff (by omega)).mpr ⟨hbits, hbits'⟩
  have hlog' : mantissa'.log2 = 52 := (Nat.log2_eq_iff (by omega)).mpr ⟨hbitsTwo, hbitsTwo'⟩
  have htarget : min (exponent - exponent') (Format.binary64.targetExponent
      (totalExponent mantissa exponent - totalExponent mantissa' exponent')) =
        exponent - exponent' - 53 := by
    unfold Format.targetExponent totalExponent Format.minExponent
    simp only [hlog, hlog', Format.mantissaBits]
    norm_num
    omega
  have hshift : (exponent - exponent' - (exponent - exponent' - 53)).toNat = 53 := by omega
  unfold divCore
  simp only [htarget, hshift, Nat.shiftLeft_eq]

theorem Normal.div {sign sign' : Sign} {x y : ℚ} {a b : Float}
    (ha : Normal sign x a.toModel.unpack) (hb : Normal sign' y b.toModel.unpack)
    (hrange : InRange (x / y)) :
    ∃ z, Close (x / y) z ∧ Normal (sign / sign') z (a / b).toModel.unpack := by
  obtain ⟨mantissa, exponent, hpos, hunpack, hbits, hbits', rfl⟩ := ha
  obtain ⟨mantissa', exponent', hpos', hunpack', hbitsTwo, hbitsTwo', rfl⟩ := hb
  have hcast : (0 : ℚ) < mantissa' := by exact_mod_cast hpos'
  have hquotient : (mantissa * 2 ^ exponent / (mantissa' * 2 ^ exponent') : ℚ) =
      ((mantissa * 2 ^ 53 : ℕ) / mantissa') * 2 ^ (exponent - exponent' - 53) := by
    rw [zpow_sub₀ two_ne_zero, zpow_sub₀ two_ne_zero]
    push_cast
    field_simp
  have hexponent : -1021 ≤ exponent - exponent' := by
    have hratio : (mantissa * 2 ^ exponent / (mantissa' * 2 ^ exponent') : ℚ) ≤
        2 ^ (exponent - exponent' + 1) := by
      have hmantissas : (mantissa : ℚ) ≤ 2 * mantissa' := by
        exact_mod_cast (by omega : mantissa ≤ 2 * mantissa')
      calc (mantissa * 2 ^ exponent / (mantissa' * 2 ^ exponent') : ℚ)
          ≤ 2 * mantissa' * 2 ^ exponent / (mantissa' * 2 ^ exponent') := by gcongr
        _ = 2 ^ (exponent - exponent' + 1) := by
          rw [zpow_add₀ two_ne_zero, zpow_sub₀ two_ne_zero, zpow_one]
          field_simp
    have hle := (zpow_le_zpow_iff_right₀ one_lt_two).mp (hrange.1.trans hratio)
    omega
  have hlog : 52 ≤ (mantissa * 2 ^ 53 / mantissa').log2 := by
    have hle : 2 ^ 52 ≤ mantissa * 2 ^ 53 / mantissa' := by
      rw [Nat.le_div_iff_mul_le hpos']
      calc 2 ^ 52 * mantissa'
          ≤ 2 ^ 52 * 2 ^ 53 := Nat.mul_le_mul_left _ hbitsTwo'.le
        _ ≤ mantissa * 2 ^ 53 := Nat.mul_le_mul_right _ hbits
    exact (Nat.le_log2 (by omega)).mpr hle
  have hop : (a / b).toModel.unpack = (Float.Model.pack (roundWithAccuracy Format.binary64
      (sign / sign') (mantissa * 2 ^ 53 / mantissa') (exponent - exponent' - 53)
      (accuracyOfFraction (mantissa * 2 ^ 53 % mantissa') mantissa'))).unpack := by
    change (Float.Model.pack (UnpackedFloat.div Format.binary64 a.toModel.unpack
      b.toModel.unpack)).unpack = _
    rw [hunpack, hunpack', UnpackedFloat.div,
      divCore_eq hbits hbits' hbitsTwo hbitsTwo' hexponent]
  rw [hop]
  refine normal_pack_roundWithAccuracy hlog hrange ?_ ?_ _ _
  · rw [hquotient]
    gcongr
    exact Nat.cast_div_le
  · have hdivision : mantissa * 2 ^ 53 ≤ (mantissa * 2 ^ 53 / mantissa' + 1) * mantissa' := by
      rw [mul_comm _ mantissa']
      exact (Nat.lt_mul_div_succ _ hpos').le
    rw [hquotient]
    gcongr
    rw [div_le_iff₀ hcast]
    exact_mod_cast hdivision

/-! ## Integers -/

/-- The conversion of an integer. -/
def ofInt (n : ℤ) : Float := .ofModel (.ofInt n)

def signOf (n : ℤ) : Sign := if n < 0 then .negative else .positive

theorem unpack_ofInt {n : ℤ} (hn : n ≠ 0) :
    (ofInt n).toModel.unpack =
      (Float.Model.pack (UnpackedFloat.round Format.binary64 (signOf n) n.natAbs 0)).unpack := by
  have hnormalize : UnpackedFloat.ofInt Format.binary64 n =
      UnpackedFloat.round Format.binary64 (signOf n) n.natAbs 0 := by
    unfold UnpackedFloat.ofInt UnpackedFloat.normalize signOf
    rcases lt_trichotomy n 0 with hlt | rfl | hgt
    · have habs : (-n).toNat = n.natAbs := by omega
      rw [Int.compare_eq_lt.mpr hlt, if_pos hlt, ← habs]
    · exact absurd rfl hn
    · have habs : n.toNat = n.natAbs := by omega
      rw [Int.compare_eq_gt.mpr hgt, if_neg (not_lt.mpr hgt.le), ← habs]
  unfold ofInt Float.Model.ofInt
  rw [hnormalize]

/-- An integer of at most 53 bits only gets its mantissa filled up. -/
theorem round_of_lt {n : ℕ} (hpos : 0 < n) (hsmall : n < 2 ^ 53) (sign : Sign) :
    UnpackedFloat.round Format.binary64 sign n 0 =
      roundWithAccuracy Format.binary64 sign (n * 2 ^ (52 - n.log2)) (n.log2 - 52) .exact := by
  have hlog : n.log2 < 53 := (Nat.log2_lt (by omega)).mpr hsmall
  have hshift : (0 - (n.log2 + 0 - 52) : ℤ).toNat = 52 - n.log2 := by omega
  have hexponent : (0 : ℤ) - (52 - n.log2 : ℕ) = n.log2 - 52 := by omega
  unfold UnpackedFloat.round decreaseExponent
  rw [targetExponent_eq (by omega)]
  simp only [hshift, hexponent, Nat.shiftLeft_eq]

/-- Integers of at most 53 bits are exact. -/
theorem normal_round_of_lt {n : ℕ} (hpos : 0 < n) (hsmall : n < 2 ^ 53) (sign : Sign) :
    Normal sign n (Float.Model.pack (UnpackedFloat.round Format.binary64 sign n 0)).unpack := by
  have hlog : n.log2 ≤ 52 := Nat.le_of_lt_succ ((Nat.log2_lt hpos.ne').mpr hsmall)
  obtain ⟨hbits, hbits'⟩ := (Nat.log2_eq_iff hpos.ne').mp rfl
  have hfull : 2 ^ 52 ≤ n * 2 ^ (52 - n.log2) := by
    calc 2 ^ 52 = 2 ^ n.log2 * 2 ^ (52 - n.log2) := by rw [← pow_add, Nat.add_sub_cancel' hlog]
      _ ≤ n * 2 ^ (52 - n.log2) := Nat.mul_le_mul_right _ hbits
  have hfull' : n * 2 ^ (52 - n.log2) < 2 ^ 53 := by
    calc n * 2 ^ (52 - n.log2)
        < 2 ^ (n.log2 + 1) * 2 ^ (52 - n.log2) := Nat.mul_lt_mul_of_pos_right hbits' (by positivity)
      _ = 2 ^ 53 := by rw [← pow_add]; congr 1; omega
  have hvalue : ((n * 2 ^ (52 - n.log2) : ℕ) : ℚ) * 2 ^ ((n.log2 : ℤ) - 52) = n := by
    have hcancel : (2 : ℚ) ^ (52 - n.log2) * 2 ^ ((n.log2 : ℤ) - 52) = 1 := by
      rw [← zpow_natCast, ← zpow_add₀ two_ne_zero, Nat.cast_sub hlog]
      simp
    push_cast
    rw [mul_assoc, hcancel, mul_one]
  have hexponent : -1074 ≤ (n.log2 : ℤ) - 52 := by omega
  have hnormal := normal_of_exact hfull hfull' hexponent sign
  rw [hvalue] at hnormal
  rw [round_of_lt hpos hsmall, hnormal.unpack_pack]
  · exact hnormal
  · calc (2 : ℚ) ^ (-201 : ℤ) ≤ 1 := by norm_num
      _ ≤ n := by exact_mod_cast hpos
  · calc (n : ℚ) ≤ 2 ^ 53 := by exact_mod_cast hsmall.le
      _ ≤ 2 ^ (201 : ℤ) := by norm_num

/-- Integers are converted to something close. -/
theorem normal_round {n : ℕ} (hpos : 0 < n) (hsize : n ≤ 2 ^ 200) (sign : Sign) :
    ∃ x, Close n x ∧
      Normal sign x (Float.Model.pack (UnpackedFloat.round Format.binary64 sign n 0)).unpack := by
  by_cases hsmall : n < 2 ^ 53
  · refine ⟨n, ?_, normal_round_of_lt hpos hsmall sign⟩
    unfold Close
    rw [sub_self, abs_zero]
    positivity
  · have hlog : 52 ≤ n.log2 := (Nat.le_log2 hpos.ne').mpr (by omega)
    have hround : UnpackedFloat.round Format.binary64 sign n 0 =
        roundWithAccuracy Format.binary64 sign n 0 .exact := by
      have hshift : (0 - (n.log2 + 0 - 52) : ℤ).toNat = 0 := by omega
      unfold UnpackedFloat.round decreaseExponent
      rw [targetExponent_eq (by omega)]
      simp only [hshift, Nat.shiftLeft_zero, Nat.cast_zero, sub_zero]
    rw [hround]
    refine normal_pack_roundWithAccuracy hlog ⟨?_, ?_⟩ ?_ ?_ sign .exact
    · calc (2 : ℚ) ^ (-200 : ℤ) ≤ 1 := by norm_num
        _ ≤ n := by exact_mod_cast hpos
    · exact_mod_cast hsize
    · rw [zpow_zero, mul_one]
    · rw [zpow_zero, mul_one]
      exact le_add_of_nonneg_right zero_le_one

theorem normal_ofInt {n : ℤ} (hn : n ≠ 0) (hsize : n.natAbs ≤ 2 ^ 200) :
    ∃ x, Close n.natAbs x ∧ Normal (signOf n) x (ofInt n).toModel.unpack := by
  rw [unpack_ofInt hn]
  exact normal_round (Int.natAbs_pos.mpr hn) hsize (signOf n)

/-! ## Values -/

theorem Normal.toRat_eq {sign : Sign} {x : ℚ} {f : Float} (h : Normal sign x f.toModel.unpack) :
    toRat f = some ((sign.apply 1 : ℤ) * x) := by
  obtain ⟨mantissa, exponent, hpos, hunpack, -, -, rfl⟩ := h
  unfold toRat
  rw [hunpack]
  cases sign
  · simp [Sign.apply]
  · simp [Sign.apply]

/-- `f` is a zero. -/
def IsZero (f : Float) : Prop := ∃ sign, f.toModel.unpack = .zero sign

theorem IsZero.toRat_eq {f : Float} (h : IsZero f) : toRat f = some 0 := by
  obtain ⟨sign, hunpack⟩ := h
  unfold toRat
  rw [hunpack]

theorem isZero_ofInt_zero : IsZero (ofInt 0) := ⟨.positive, rfl⟩

theorem unpack_pack_zero (sign : Sign) : (Float.Model.pack (.zero sign)).unpack = .zero sign := by
  cases sign <;> rfl

theorem IsZero.div {a b : Float} {sign : Sign} {y : ℚ} (ha : IsZero a)
    (hb : Normal sign y b.toModel.unpack) : IsZero (a / b) := by
  obtain ⟨sign', hunpack⟩ := ha
  obtain ⟨mantissa, exponent, hpos, hunpack', -⟩ := hb
  refine ⟨sign' / sign, ?_⟩
  change (Float.Model.pack (UnpackedFloat.div Format.binary64 a.toModel.unpack
    b.toModel.unpack)).unpack = _
  rw [hunpack, hunpack']
  exact unpack_pack_zero _

theorem IsZero.mul {a b : Float} {sign : Sign} {y : ℚ} (ha : IsZero a)
    (hb : Normal sign y b.toModel.unpack) : IsZero (a * b) := by
  obtain ⟨sign', hunpack⟩ := ha
  obtain ⟨mantissa, exponent, hpos, hunpack', -⟩ := hb
  refine ⟨sign' * sign, ?_⟩
  change (Float.Model.pack (UnpackedFloat.mul Format.binary64 a.toModel.unpack
    b.toModel.unpack)).unpack = _
  rw [hunpack, hunpack']
  exact unpack_pack_zero _

/-! ## Several roundings -/

/-- `y` is `x` up to a number of roundings. -/
def Within (n : ℕ) (x y : ℚ) : Prop :=
  x * (1 - 2 ^ (-52 : ℤ)) ^ n ≤ y ∧ y ≤ x * (1 + 2 ^ (-52 : ℤ)) ^ n

theorem Close.within {x y : ℚ} (h : Close x y) : Within 1 x y := by
  obtain ⟨hbelow, habove⟩ := abs_le.mp h
  constructor
  · rw [pow_one, mul_sub, mul_one]
    linarith
  · rw [pow_one, mul_add, mul_one]
    linarith

theorem Within.trans {n m : ℕ} {x y z : ℚ} (h : Within n x y) (h' : Within m y z) :
    Within (n + m) x z := by
  have hbelow : (0 : ℚ) ≤ (1 - 2 ^ (-52 : ℤ)) ^ m := by norm_num
  constructor
  · calc x * (1 - 2 ^ (-52 : ℤ)) ^ (n + m)
        = x * (1 - 2 ^ (-52 : ℤ)) ^ n * (1 - 2 ^ (-52 : ℤ)) ^ m := by rw [pow_add, mul_assoc]
      _ ≤ y * (1 - 2 ^ (-52 : ℤ)) ^ m := mul_le_mul_of_nonneg_right h.1 hbelow
      _ ≤ z := h'.1
  · calc z ≤ y * (1 + 2 ^ (-52 : ℤ)) ^ m := h'.2
      _ ≤ x * (1 + 2 ^ (-52 : ℤ)) ^ n * (1 + 2 ^ (-52 : ℤ)) ^ m :=
        mul_le_mul_of_nonneg_right h.2 (by positivity)
      _ = x * (1 + 2 ^ (-52 : ℤ)) ^ (n + m) := by rw [pow_add, mul_assoc]

theorem Within.mul_right {n : ℕ} {x y : ℚ} (h : Within n x y) {c : ℚ} (hc : 0 ≤ c) :
    Within n (x * c) (y * c) := by
  constructor
  · rw [mul_right_comm]
    exact mul_le_mul_of_nonneg_right h.1 hc
  · rw [mul_right_comm]
    exact mul_le_mul_of_nonneg_right h.2 hc

theorem Within.div_right {n : ℕ} {x y : ℚ} (h : Within n x y) {c : ℚ} (hc : 0 ≤ c) :
    Within n (x / c) (y / c) := by
  rw [div_eq_mul_inv, div_eq_mul_inv]
  exact h.mul_right (inv_nonneg.mpr hc)

/-- Three roundings change a number by at most four units in the last place. -/
theorem Within.bounds {n : ℕ} {x y : ℚ} (h : Within n x y) (hn : n ≤ 3) (hx : 0 ≤ x) :
    x * (1 - 2 ^ (-50 : ℤ)) ≤ y ∧ y ≤ x * (1 + 2 ^ (-50 : ℤ)) := by
  have hbelow : (1 - 2 ^ (-50 : ℤ) : ℚ) ≤ (1 - 2 ^ (-52 : ℤ)) ^ n := by
    calc (1 - 2 ^ (-50 : ℤ) : ℚ)
        ≤ (1 - 2 ^ (-52 : ℤ)) ^ 3 := by norm_num
      _ ≤ (1 - 2 ^ (-52 : ℤ)) ^ n := pow_le_pow_of_le_one (by norm_num) (by norm_num) hn
  have habove : (1 + 2 ^ (-52 : ℤ) : ℚ) ^ n ≤ 1 + 2 ^ (-50 : ℤ) := by
    calc (1 + 2 ^ (-52 : ℤ) : ℚ) ^ n
        ≤ (1 + 2 ^ (-52 : ℤ)) ^ 3 := pow_le_pow_right₀ (by norm_num) hn
      _ ≤ 1 + 2 ^ (-50 : ℤ) := by norm_num
  exact ⟨(mul_le_mul_of_nonneg_left hbelow hx).trans h.1,
    h.2.trans (mul_le_mul_of_nonneg_left habove hx)⟩

theorem Within.inRange {n : ℕ} {x y : ℚ} (h : Within n x y) (hn : n ≤ 3)
    (hlow : 2 ^ (-199 : ℤ) ≤ x) (hhigh : x ≤ 2 ^ (199 : ℤ)) : InRange y := by
  have hx : (0 : ℚ) ≤ x := le_trans (by positivity) hlow
  obtain ⟨hbelow, habove⟩ := h.bounds hn hx
  constructor
  · calc (2 : ℚ) ^ (-200 : ℤ)
        = 2 ^ (-199 : ℤ) * (1 / 2) := by norm_num
      _ ≤ x * (1 - 2 ^ (-50 : ℤ)) := mul_le_mul hlow (by norm_num) (by norm_num) hx
      _ ≤ y := hbelow
  · calc y ≤ x * (1 + 2 ^ (-50 : ℤ)) := habove
      _ ≤ 2 ^ (199 : ℤ) * 2 := mul_le_mul hhigh (by norm_num) (by norm_num) (by positivity)
      _ = 2 ^ (200 : ℤ) := by norm_num

end RtpSender.Binary64
