import Mathlib.Data.Rat.Floor
import Mathlib.Tactic.NormNum
import RtpSender.Session.TimeBase

/-!
# The conversion of times to timestamps

`sendFrame` and `parseAndSendFrame` cast a number of ticks straight to `uint32_t`.  The cast is
defined only for numbers whose integral part fits, so a timestamp never wraps: it is right until
`2 ^ 32` ticks after the first frame, about 13 hours and 15 minutes, and undefined from then on.
-/

open RtpSender.Emitter RtpSender.Wire RtpSender.History

namespace RtpSender.RtpSendingSession

/-! ## The cast -/

/-- The integral part of a number, which a cast to an integer type keeps. -/
def truncate (value : ℚ) : ℤ := if 0 ≤ value then ⌊value⌋ else ⌈value⌉

/-- `static_cast<uint32_t>(value)`, where it is defined. -/
def castUint32 (value : ℚ) : Option UInt32 :=
  if 0 ≤ truncate value ∧ truncate value < 2 ^ 32 then some (UInt32.ofInt (truncate value))
  else none

/-- `delta / 1000000.0 * 90000` -/
def scaled (delta : ℤ) : ℚ := delta / 1000000 * 90000

theorem scaled_nonneg_iff (delta : ℤ) : 0 ≤ scaled delta ↔ 0 ≤ delta := by
  unfold scaled
  constructor
  · intro h
    have hcast : (0 : ℚ) ≤ delta := by linarith
    exact_mod_cast hcast
  · intro h
    have hcast : (0 : ℚ) ≤ delta := by exact_mod_cast h
    linarith

theorem truncate_scaled (delta : ℤ) : truncate (scaled delta) = ticks delta := by
  have hfraction : scaled delta = ((delta * 90000 : ℤ) : ℚ) / ((1000000 : ℕ) : ℚ) := by
    unfold scaled
    push_cast
    ring
  unfold truncate ticks
  by_cases hdelta : 0 ≤ delta
  · rw [if_pos ((scaled_nonneg_iff delta).mpr hdelta)]
    calc ⌊scaled delta⌋
        = delta * 90000 / ((1000000 : ℕ) : ℤ) := by rw [hfraction, Rat.floor_intCast_div_natCast]
      _ = (delta * 90000).tdiv 1000000 := (Int.tdiv_eq_ediv_of_nonneg (by omega)).symm
  · rw [if_neg (mt (scaled_nonneg_iff delta).mp hdelta)]
    calc ⌈scaled delta⌉
        = -(-(delta * 90000) / ((1000000 : ℕ) : ℤ)) := by
          rw [hfraction, Rat.ceil_intCast_div_natCast]
      _ = -(-(delta * 90000)).tdiv 1000000 := by
          rw [Int.tdiv_eq_ediv_of_nonneg (by omega)]
          rfl
      _ = (delta * 90000).tdiv 1000000 := by rw [Int.neg_tdiv, neg_neg]

/-- The conversion of a time difference, defined as long as the ticks fit. -/
theorem castUint32_scaled (delta : ℤ) :
    castUint32 (scaled delta) =
      if 0 ≤ ticks delta ∧ ticks delta < 2 ^ 32 then some (exactTimestamp delta) else none := by
  rw [castUint32, truncate_scaled]
  rfl

theorem ticks_of_nonneg {delta : ℤ} (h : 0 ≤ delta) : ticks delta = delta * 9 / 100 := by
  rw [ticks, Int.tdiv_eq_ediv_of_nonneg (by omega)]
  omega

theorem toNat_exactTimestamp {delta : ℤ} (h : 0 ≤ ticks delta ∧ ticks delta < 2 ^ 32) :
    ((exactTimestamp delta).toNat : ℤ) = ticks delta := by
  unfold exactTimestamp UInt32.ofInt
  rw [UInt32.toNat_ofNat']
  omega

/-- The conversion is defined and right exactly for differences below `2 ^ 32` ticks. -/
theorem castUint32_scaled_iff {delta : ℤ} (h : 0 ≤ delta) :
    (∃ timestamp, castUint32 (scaled delta) = some timestamp ∧
        (timestamp.toNat : ℤ) = delta * 9 / 100 % 2 ^ 32) ↔ delta * 9 < 100 * 2 ^ 32 := by
  have hticks := ticks_of_nonneg h
  constructor
  · rintro ⟨timestamp, hcast, -⟩
    rw [castUint32_scaled] at hcast
    have hfits := (Option.ite_none_right_eq_some.mp hcast).1.2
    omega
  · intro hspan
    have hfits : 0 ≤ ticks delta ∧ ticks delta < 2 ^ 32 := by omega
    refine ⟨exactTimestamp delta, by rw [castUint32_scaled, if_pos hfits], ?_⟩
    calc ((exactTimestamp delta).toNat : ℤ)
        = ticks delta := toNat_exactTimestamp hfits
      _ = ticks delta % 2 ^ 32 := (Int.emod_eq_of_lt hfits.1 hfits.2).symm
      _ = delta * 9 / 100 % 2 ^ 32 := by rw [hticks]

/-! ## The conversions of a call -/

/-- The differences that a call converts: one in `sendFrame` itself and one in
`parseAndSendFrame` for every range that it packetizes. -/
def conversions (input : FrameInput) (s : Session) : List ℤ :=
  (input.pts - (latchBase input.pts s).basePts) ::
    (naluRanges input.data 0).map fun _ ↦ input.pts - (latchBase input.pts s).basePts

theorem eq_of_mem_conversions {input : FrameInput} {s : Session} {delta : ℤ}
    (h : delta ∈ conversions input s) : delta = input.pts - (latchBase input.pts s).basePts := by
  rcases List.mem_cons.mp h with rfl | hmem
  · rfl
  · obtain ⟨_, _, rfl⟩ := List.mem_map.mp hmem
    rfl

/-! ## Runs -/

/-- The first frame and the later ones have times that do not decrease. -/
def Nondecreasing (first : FrameInput) (later : List FrameInput) : Prop :=
  (first :: later).Pairwise fun earlier input ↦ earlier.pts ≤ input.pts

theorem Nondecreasing.first_le {first : FrameInput} {later : List FrameInput}
    (h : Nondecreasing first later) : ∀ input ∈ first :: later, first.pts ≤ input.pts := by
  intro input hmem
  rcases List.mem_cons.mp hmem with rfl | hlater
  · exact le_rfl
  · exact List.rel_of_pairwise_cons h hlater

variable (toTimestamp : ℤ → UInt32)

/-- Every conversion of a run is defined and gives the ticks since the first frame modulo `2 ^ 32`.
The conversion that the run itself is made with has no influence on the base. -/
def ConvertsExactly (s : Session) (first : FrameInput) (later : List FrameInput) : Prop :=
  HistoryForall (fun before input ↦
    ∀ delta ∈ conversions input (sendFrames toTimestamp before s).1,
      ∃ timestamp, castUint32 (scaled delta) = some timestamp ∧
        (timestamp.toNat : ℤ) = (input.pts - first.pts) * 9 / 100 % 2 ^ 32) (first :: later)

/-- **Conversion.** In a run of a new session with times that are not negative and do not decrease,
every conversion is exact if and only if the run stays below `2 ^ 32` ticks. -/
theorem convertsExactly_iff (rtpPort : ℤ) (rtpSsrc : UInt32) (ip : String) (port : ℤ)
    (streamId : String) (outcome : StartOutcome) (first : FrameInput) (later : List FrameInput)
    (hfirst : 0 ≤ first.pts) (horder : Nondecreasing first later) :
    ConvertsExactly toTimestamp
        (start ip port streamId outcome (Session.construct rtpPort rtpSsrc)).1.1 first later ↔
      ∀ input ∈ first :: later, (input.pts - first.pts) * 9 < 100 * 2 ^ 32 := by
  have hinit := start_construct_basePts rtpPort rtpSsrc ip port streamId outcome
  generalize (start ip port streamId outcome (Session.construct rtpPort rtpSsrc)).1.1 = s at hinit
  have hdelta (before : List FrameInput) (input : FrameInput) (after : List FrameInput)
      (hsplit : first :: later = before ++ input :: after) :
      input.pts - (latchBase input.pts (sendFrames toTimestamp before s).1).basePts =
        input.pts - first.pts := by
    have hbase : (sendFrames toTimestamp (before ++ [input]) s).1.basePts = first.pts :=
      historyForall_basePts toTimestamp (by omega) (.inl hfirst) before input after hsplit
    rw [← sendFrames_concat_basePts, hbase]
  have hlate : ∀ input ∈ first :: later, 0 ≤ input.pts - first.pts := by
    intro input hmem
    have hle := horder.first_le input hmem
    omega
  constructor
  · intro h input hmem
    obtain ⟨before, after, hsplit⟩ := List.append_of_mem hmem
    have hconverted := h before input after hsplit _ (List.mem_cons_self ..)
    rw [hdelta before input after hsplit] at hconverted
    exact (castUint32_scaled_iff (hlate input hmem)).mp hconverted
  · intro h before input after hsplit delta hconverted
    have hmem := mem_of_eq_append_cons hsplit
    rw [eq_of_mem_conversions hconverted, hdelta before input after hsplit]
    exact (castUint32_scaled_iff (hlate input hmem)).mpr (h input hmem)

/-- Two frames at the usual distance. -/
theorem convertsExactly_next_frame :
    ConvertsExactly exactTimestamp
        (start "10.0.0.1" 9000 "cam" ⟨7, by decide, some 3, true⟩ (Session.construct 0 0)).1.1
        ⟨[0, 0, 0, 1, 0x65], 0, ⟨0, 0, by decide⟩⟩
        [⟨[0, 0, 0, 1, 0x41], 40000, ⟨0, 0, by decide⟩⟩] := by
  refine (convertsExactly_iff exactTimestamp 0 0 _ _ _ _ _ _ (by decide) ?_).mpr ?_
  · simp [Nondecreasing]
  · simp

/-- A frame `47721858845` microseconds after the first one needs `2 ^ 32` ticks. -/
theorem not_convertsExactly_span :
    Nondecreasing ⟨[0, 0, 0, 1, 0x65], 0, ⟨0, 0, by decide⟩⟩
        [⟨[0, 0, 0, 1, 0x65], 47721858845, ⟨0, 0, by decide⟩⟩] ∧
      ¬ ConvertsExactly exactTimestamp
        (start "10.0.0.1" 9000 "cam" ⟨7, by decide, some 3, true⟩ (Session.construct 0 0)).1.1
        ⟨[0, 0, 0, 1, 0x65], 0, ⟨0, 0, by decide⟩⟩
        [⟨[0, 0, 0, 1, 0x65], 47721858845, ⟨0, 0, by decide⟩⟩] := by
  refine ⟨by simp [Nondecreasing], ?_⟩
  intro h
  have hdelta : 47721858845 ∈ conversions ⟨[0, 0, 0, 1, 0x65], 47721858845, ⟨0, 0, by decide⟩⟩
      (sendFrames exactTimestamp [⟨[0, 0, 0, 1, 0x65], 0, ⟨0, 0, by decide⟩⟩]
        (start "10.0.0.1" 9000 "cam" ⟨7, by decide, some 3, true⟩
          (Session.construct 0 0)).1.1).1 := by
    decide +kernel
  obtain ⟨timestamp, hcast, -⟩ := h [⟨[0, 0, 0, 1, 0x65], 0, ⟨0, 0, by decide⟩⟩]
    ⟨[0, 0, 0, 1, 0x65], 47721858845, ⟨0, 0, by decide⟩⟩ [] rfl 47721858845 hdelta
  have hspan : ¬ (0 ≤ ticks 47721858845 ∧ ticks 47721858845 < 2 ^ 32) := by decide
  rw [castUint32_scaled, if_neg hspan] at hcast
  cases hcast

end RtpSender.RtpSendingSession
