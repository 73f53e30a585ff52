import RtpSender.Foundation.Binary64
import RtpSender.Session.Conversion

/-!
# Timestamps in double precision

The compiled code computes `(delta / 1000000.0) * 90000` in double precision, with three roundings:
of the difference, of the quotient and of the product.  The cast that follows is nevertheless
defined for the same differences as in exact arithmetic.  Where it is, the timestamp is the exact
one, or one tick less; it can only be less for multiples of 100 microseconds, for which the exact
number of ticks is an integer that the computed one may just miss.
-/

open RtpSender.Binary64
open Float.Model.UnpackedFloat (Sign)

namespace RtpSender.RtpSendingSession

/-! ## The conversion -/

/-- `(delta / 1000000.0) * 90000` -/
def scaledDouble (delta : ℤ) : Float := ofInt delta / 1000000.0 * 90000

/-- `static_cast<uint32_t>((delta / 1000000.0) * 90000)`, where it is defined. -/
def castDouble (delta : ℤ) : Option UInt32 := (toRat (scaledDouble delta)).bind castUint32

/-- The differences of two times of type `int64_t` that do not overflow. -/
def IsInt64 (delta : ℤ) : Prop := -2 ^ 63 ≤ delta ∧ delta < 2 ^ 63

theorem normal_1000000 : Normal .positive 1000000 (1000000.0 : Float).toModel.unpack :=
  ⟨1000000 * 2 ^ 33, -33, by decide, rfl, by decide, by decide, by norm_num⟩

theorem normal_90000 : Normal .positive 90000 (90000 : Float).toModel.unpack :=
  ⟨90000 * 2 ^ 36, -36, by decide, rfl, by decide, by decide, by norm_num⟩

/-- The exact number of ticks is met up to three roundings. -/
theorem normal_scaledDouble {delta : ℤ} (hdelta : delta ≠ 0) (hsize : IsInt64 delta) :
    ∃ x, Within 3 (delta.natAbs * 9 / 100) x ∧
      Normal (signOf delta) x (scaledDouble delta).toModel.unpack := by
  have hlow : (1 : ℚ) ≤ delta.natAbs := by exact_mod_cast Int.natAbs_pos.mpr hdelta
  have hhigh : (delta.natAbs : ℚ) ≤ 2 ^ 63 := by
    have hnat : delta.natAbs ≤ 2 ^ 63 := by
      unfold IsInt64 at hsize
      omega
    exact_mod_cast hnat
  obtain ⟨x, hxclose, hx⟩ := normal_ofInt hdelta (by unfold IsInt64 at hsize; omega)
  have hquotient := hxclose.within.div_right (c := 1000000) (by norm_num)
  obtain ⟨y, hyclose, hy⟩ := hx.div normal_1000000 (hquotient.inRange (by decide)
    (by linarith) (by linarith))
  have hproduct := (hquotient.trans hyclose.within).mul_right (c := 90000) (by norm_num)
  obtain ⟨z, hzclose, hz⟩ := hy.mul normal_90000 (hproduct.inRange (by decide)
    (by linarith) (by linarith))
  have hsign : signOf delta / .positive * .positive = signOf delta := by
    cases signOf delta <;> rfl
  have hexact : (delta.natAbs / 1000000 * 90000 : ℚ) = delta.natAbs * 9 / 100 := by ring
  have hwithin := hproduct.trans hzclose.within
  rw [hexact] at hwithin
  rw [hsign] at hz
  exact ⟨z, hwithin, hz⟩

theorem isZero_scaledDouble : IsZero (scaledDouble 0) :=
  (isZero_ofInt_zero.div normal_1000000).mul normal_90000

/-! ## The cast -/

/-- What is cast is the exact number of ticks up to three roundings. -/
theorem castDouble_eq {delta : ℤ} (hsize : IsInt64 delta) :
    ∃ x, Within 3 (delta.natAbs * 9 / 100) x ∧
      castDouble delta = castUint32 (if delta < 0 then -x else x) := by
  unfold castDouble
  rcases eq_or_ne delta 0 with rfl | hdelta
  · refine ⟨0, ?_, ?_⟩
    · simp [Within]
    · rw [isZero_scaledDouble.toRat_eq]
      rfl
  · obtain ⟨x, hwithin, hnormal⟩ := normal_scaledDouble hdelta hsize
    refine ⟨x, hwithin, ?_⟩
    rw [hnormal.toRat_eq, Option.bind_some]
    unfold signOf
    split
    · simp [Sign.apply]
    · simp [Sign.apply]

/-- Up to three roundings, a number of hundredths below `2 ^ 32` has the same integral part, unless
it is an integer, which the rounding may just miss. -/
theorem floor_of_within {n : ℕ} {x : ℚ} (hwithin : Within 3 (n * 9 / 100) x)
    (hspan : n * 9 < 100 * 2 ^ 32) :
    ⌊x⌋ = (n * 9 / 100 : ℕ) ∨ 100 ∣ n ∧ 0 < n ∧ ⌊x⌋ + 1 = (n * 9 / 100 : ℕ) := by
  obtain ⟨hbelow, habove⟩ := hwithin.bounds le_rfl (by positivity)
  have hexact : (n * 9 / 100 : ℚ) = (n * 9 / 100 : ℕ) + (n * 9 % 100 : ℕ) / 100 := by
    have hdivision : ((n * 9 : ℕ) : ℚ) = (n * 9 / 100 : ℕ) * 100 + (n * 9 % 100 : ℕ) := by
      exact_mod_cast (Nat.div_add_mod' (n * 9) 100).symm
    rw [div_eq_iff (by norm_num), add_mul, div_mul_cancel₀ _ (by norm_num), ← hdivision]
    push_cast
    ring
  have herror : (n * 9 / 100 : ℚ) * 2 ^ (-50 : ℤ) < 1 / 200 := by
    have hcast : (n : ℚ) * 9 < 100 * 2 ^ 32 := by exact_mod_cast hspan
    linarith
  have hrange : (n * 9 / 100 : ℚ) - 1 / 200 < x ∧ x < n * 9 / 100 + 1 / 200 := by
    constructor <;> linarith
  rw [hexact] at hrange
  rcases Nat.eq_zero_or_pos (n * 9 % 100) with hwhole | hpart
  · rw [hwhole, Nat.cast_zero, zero_div, add_zero] at hrange
    rcases le_or_gt ((n * 9 / 100 : ℕ) : ℚ) x with hreached | hmissed
    · left
      rw [Int.floor_eq_iff, Int.cast_natCast]
      constructor <;> linarith
    · have hpos : 0 < n := by
        rcases Nat.eq_zero_or_pos n with rfl | hpos
        · have hnonneg : (0 : ℚ) ≤ x := by simpa using hbelow
          exact absurd hmissed (not_lt.mpr (by simpa using hnonneg))
        · exact hpos
      refine .inr ⟨by omega, hpos, ?_⟩
      rw [← eq_sub_iff_add_eq, Int.floor_eq_iff, Int.cast_sub, Int.cast_natCast, Int.cast_one]
      constructor <;> linarith
  · have hlow : (1 : ℚ) ≤ (n * 9 % 100 : ℕ) := by exact_mod_cast hpart
    have hhigh : ((n * 9 % 100 : ℕ) : ℚ) ≤ 99 := by
      exact_mod_cast Nat.le_of_lt_succ (Nat.mod_lt _ (by decide : 0 < 100))
    left
    rw [Int.floor_eq_iff, Int.cast_natCast]
    constructor <;> linarith

theorem isSome_castUint32_iff (value : ℚ) :
    (castUint32 value).isSome ↔ 0 ≤ truncate value ∧ truncate value < 2 ^ 32 := by
  unfold castUint32
  split <;> simp_all

theorem toNat_of_castUint32 {value : ℚ} {timestamp : UInt32}
    (h : castUint32 value = some timestamp) : (timestamp.toNat : ℤ) = truncate value := by
  obtain ⟨⟨hlow, hhigh⟩, htimestamp⟩ := Option.ite_none_right_eq_some.mp h
  rw [← Option.some.inj htimestamp]
  unfold UInt32.ofInt
  rw [UInt32.toNat_ofNat']
  omega

/-- Negative differences above `-12` are cast to zero, and no other ones. -/
theorem truncate_neg_of_within {n : ℕ} (hpos : 0 < n) {x : ℚ}
    (hwithin : Within 3 (n * 9 / 100) x) :
    truncate (-x) ≤ 0 ∧ (truncate (-x) = 0 ↔ n < 12) := by
  obtain ⟨hbelow, habove⟩ := hwithin.bounds le_rfl (by positivity)
  have hxpos : 0 < x := by
    have hcast : (0 : ℚ) < n := by exact_mod_cast hpos
    exact lt_of_lt_of_le (mul_pos (by positivity) (by norm_num)) hbelow
  have htruncate : truncate (-x) = -⌊x⌋ := by
    unfold truncate
    rw [if_neg (by linarith), Int.ceil_neg]
  rw [htruncate]
  refine ⟨by simpa using Int.floor_nonneg.mpr hxpos.le, ?_⟩
  rw [neg_eq_zero, Int.floor_eq_iff]
  constructor
  · rintro ⟨-, hone⟩
    by_contra hlarge
    have hcast : (12 : ℚ) ≤ n := by exact_mod_cast not_lt.mp hlarge
    push_cast at hone
    linarith
  · intro hsmall
    have hcast : (n : ℚ) ≤ 11 := by exact_mod_cast Nat.le_of_lt_succ hsmall
    push_cast
    constructor <;> linarith

/-- What the cast of the compiled code gives, compared with exact arithmetic. -/
structure ConvertsDouble (delta : ℤ) : Prop where
  defined : (castDouble delta).isSome ↔ (castUint32 (scaled delta)).isSome
  value : ∀ timestamp, castDouble delta = some timestamp → (timestamp.toNat : ℤ) = ticks delta ∨
    100 ∣ delta ∧ 0 < delta ∧ (timestamp.toNat : ℤ) + 1 = ticks delta

theorem ticks_of_neg {delta : ℤ} (h : delta < 0) :
    ticks delta ≤ 0 ∧ (ticks delta = 0 ↔ delta.natAbs < 12) := by
  have hticks : ticks delta = -(-(delta * 90000) / 1000000) := by
    rw [ticks, ← neg_neg (delta * 90000), Int.neg_tdiv, Int.tdiv_eq_ediv_of_nonneg (by omega),
      neg_neg]
  rw [hticks]
  constructor
  · omega
  · omega

/-- Numbers of ticks beyond `2 ^ 32` stay beyond. -/
theorem le_floor_of_within {n : ℕ} {x : ℚ} (hwithin : Within 3 (n * 9 / 100) x)
    (hspan : 100 * 2 ^ 32 ≤ n * 9) : 2 ^ 32 ≤ ⌊x⌋ := by
  obtain ⟨hbelow, -⟩ := hwithin.bounds le_rfl (by positivity)
  have hcast : (100 * 2 ^ 32 + 5 : ℚ) ≤ n * 9 := by
    exact_mod_cast (by omega : 100 * 2 ^ 32 + 5 ≤ n * 9)
  rw [Int.le_floor]
  push_cast
  linarith

/-- The integral part of what is cast, compared with the exact number of ticks. -/
theorem truncate_of_within {delta : ℤ} {x : ℚ}
    (hwithin : Within 3 (delta.natAbs * 9 / 100) x) :
    let truncated := truncate (if delta < 0 then -x else x)
    ((0 ≤ truncated ∧ truncated < 2 ^ 32) ↔ 0 ≤ ticks delta ∧ ticks delta < 2 ^ 32) ∧
      (truncated < 2 ^ 32 → 0 ≤ truncated → truncated = ticks delta ∨
        100 ∣ delta ∧ 0 < delta ∧ truncated + 1 = ticks delta) := by
  intro truncated
  rcases lt_or_ge delta 0 with hneg | hnonneg
  · have htruncated : truncated = truncate (-x) := congrArg truncate (if_pos hneg)
    obtain ⟨hle, hzero⟩ := truncate_neg_of_within (by omega) hwithin
    obtain ⟨hticks, hticksZero⟩ := ticks_of_neg hneg
    rw [← htruncated] at hle hzero
    omega
  · have hfloor : truncated = ⌊x⌋ := by
      obtain ⟨hbelow, -⟩ := hwithin.bounds le_rfl (by positivity)
      have hx : 0 ≤ x := le_trans (mul_nonneg (by positivity) (by norm_num)) hbelow
      change truncate (if delta < 0 then -x else x) = ⌊x⌋
      rw [if_neg (not_lt.mpr hnonneg), truncate, if_pos hx]
    have hticks := ticks_of_nonneg hnonneg
    rcases lt_or_ge (delta.natAbs * 9) (100 * 2 ^ 32) with hspan | hspan
    · have hvalue := floor_of_within hwithin hspan
      rw [← hfloor] at hvalue
      omega
    · have hlarge := le_floor_of_within hwithin hspan
      rw [← hfloor] at hlarge
      omega

/-- **Double precision.** The cast is defined for the same differences as in exact arithmetic, and
gives the exact number of ticks, or one less for some multiples of 100. -/
theorem convertsDouble {delta : ℤ} (hsize : IsInt64 delta) : ConvertsDouble delta := by
  obtain ⟨x, hwithin, hcast⟩ := castDouble_eq hsize
  obtain ⟨hdefined, hvalue⟩ := truncate_of_within hwithin
  constructor
  · rw [hcast, isSome_castUint32_iff, isSome_castUint32_iff, truncate_scaled]
    exact hdefined
  · intro timestamp htimestamp
    rw [hcast] at htimestamp
    obtain ⟨hlow, hhigh⟩ := (isSome_castUint32_iff _).mp (Option.isSome_of_mem htimestamp)
    rw [toNat_of_castUint32 htimestamp]
    exact hvalue hhigh hlow

/-- The code computes 26 ticks for 300 microseconds, which are 27 ticks exactly. -/
theorem convertsDouble_300 : castDouble 300 = some 26 ∧ ConvertsDouble 300 :=
  ⟨by decide +kernel, convertsDouble ⟨by decide, by decide⟩⟩

end RtpSender.RtpSendingSession
