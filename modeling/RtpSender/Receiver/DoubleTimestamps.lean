import RtpSender.Receiver.Timestamps
import RtpSender.Session.DoubleArithmetic

/-!
# Receivers and double precision

A receiver that compares the timestamps of the compiled code with the times of the frames never
finds them late, and never more than one tick early, however long the stream is.  The missing tick
does not bring two frames together: 12 microseconds between frames are enough in double precision,
too.
-/

open RtpSender.Emitter RtpSender.Wire RtpSender.Delimiter RtpSender.History
open RtpSender.RtpSendingSession

namespace RtpSender.Receiver

/-! ## The compiled conversion -/

/-- A conversion that is the cast wherever the cast is defined, and anything elsewhere. -/
def Casts (toTimestamp : ℤ → UInt32) : Prop :=
  ∀ delta timestamp, castDouble delta = some timestamp → toTimestamp delta = timestamp

theorem casts_castDouble : Casts fun delta ↦ (castDouble delta).getD 0 := by
  intro delta timestamp h
  change (castDouble delta).getD 0 = timestamp
  rw [h, Option.getD_some]

variable {toTimestamp : ℤ → UInt32}

theorem Casts.eq_or (h : Casts toTimestamp) {delta : ℤ} (hnonneg : 0 ≤ delta)
    (hspan : delta * 9 < 100 * 2 ^ 32) :
    ((toTimestamp delta).toNat : ℤ) = delta * 9 / 100 ∨
      100 ∣ delta ∧ 0 < delta ∧ ((toTimestamp delta).toNat : ℤ) + 1 = delta * 9 / 100 := by
  have hticks := ticks_of_nonneg hnonneg
  have hconverts : ConvertsDouble delta := convertsDouble ⟨by omega, by omega⟩
  have hexact : (castUint32 (scaled delta)).isSome := by
    rw [castUint32_scaled, if_pos (by omega), Option.isSome_some]
  obtain ⟨timestamp, htimestamp⟩ := Option.isSome_iff_exists.mp (hconverts.defined.mpr hexact)
  rw [h delta timestamp htimestamp, ← hticks]
  exact hconverts.value timestamp htimestamp

/-- The time of a timestamp is not ahead of the time it was computed from, and at most one tick
behind it. -/
theorem Casts.onTime (h : Casts toTimestamp) {delta : ℤ} (hnonneg : 0 ≤ delta)
    (hspan : delta * 9 < 100 * 2 ^ 32) :
    100 * ((toTimestamp delta).toNat : ℤ) ≤ 9 * delta ∧
      9 * delta ≤ 100 * ((toTimestamp delta).toNat + 1) := by
  have hticks := h.eq_or hnonneg hspan
  omega

/-- Double precision separates times that are 12 microseconds apart. -/
theorem Casts.lt (h : Casts toTimestamp) {delta delta' : ℤ} (hnonneg : 0 ≤ delta)
    (hspaced : delta + 12 ≤ delta') (hspan : delta' * 9 < 100 * 2 ^ 32) :
    toTimestamp delta < toTimestamp delta' := by
  have hearlier := h.eq_or hnonneg (by omega)
  have hlater := h.eq_or (by omega : 0 ≤ delta') hspan
  rw [UInt32.lt_iff_toNat_lt]
  omega

/-! ## Runs -/

/-- In a run from a session without a time base, every packet carries the time since the first
frame. -/
theorem timestampOf_sentPackets (toTimestamp : ℤ → UInt32) {s : Session} (hinit : s.basePts < 0)
    {first input : FrameInput} {later before after : List FrameInput} (hfirst : 0 ≤ first.pts)
    (hsplit : first :: later = before ++ input :: after) {packet : Packet}
    (hpacket : packet ∈
      sentPackets (sendFrame toTimestamp input (sendFrames toTimestamp before s).1).2) :
    timestampOf packet = toTimestamp (input.pts - first.pts) := by
  have hbase : (sendFrames toTimestamp (before ++ [input]) s).1.basePts = first.pts :=
    historyForall_basePts toTimestamp hinit (.inl hfirst) before input after hsplit
  rw [timestampOf_sendFrame toTimestamp input _ packet hpacket, frameTimestamp,
    ← sendFrames_concat_basePts, hbase]

/-- The time of a frame since the first one is at least that of its timestamp and at most that of
the next one; a tick is 100 / 9 microseconds. -/
def OnTime (toTimestamp : ℤ → UInt32) (first : FrameInput) (later : List FrameInput) (s : Session) :
    Prop :=
  HistoryForall (fun before input ↦
    ∀ packet ∈ sentPackets (sendFrame toTimestamp input (sendFrames toTimestamp before s).1).2,
      100 * ((timestampOf packet).toNat : ℤ) ≤ 9 * (input.pts - first.pts) ∧
        9 * (input.pts - first.pts) ≤ 100 * ((timestampOf packet).toNat + 1)) (first :: later)

/-- **Accuracy.** In a run of a new session, within `2 ^ 32` ticks, no packet of either channel is
late or more than one tick early. -/
theorem onTime_sendFrames (h : Casts toTimestamp) (rtpPort : ℤ) (rtpSsrc : UInt32) (ip : String)
    (port : ℤ) (streamId : String) (outcome : StartOutcome) (first : FrameInput)
    (later : List FrameInput) (hfirst : 0 ≤ first.pts) (horder : Nondecreasing first later)
    (hspan : ∀ input ∈ first :: later, (input.pts - first.pts) * 9 < 100 * 2 ^ 32) :
    OnTime toTimestamp first later
      (start ip port streamId outcome (Session.construct rtpPort rtpSsrc)).1.1 := by
  have hinit := start_construct_basePts rtpPort rtpSsrc ip port streamId outcome
  generalize (start ip port streamId outcome (Session.construct rtpPort rtpSsrc)).1.1 = s at hinit
  intro before input after hsplit packet hpacket
  have hmem := mem_of_eq_append_cons hsplit
  have hnonneg := horder.first_le input hmem
  rw [timestampOf_sentPackets toTimestamp (by omega) hfirst hsplit hpacket]
  exact h.onTime (by omega) (hspan input hmem)

/-- The second frame of a run is one tick early. -/
theorem onTime_sendFrames_early :
    castDouble 300 = some 26 ∧
      OnTime (fun delta ↦ (castDouble delta).getD 0) ⟨[0, 0, 0, 1, 0x65], 0, ⟨0, 0, by decide⟩⟩
        [⟨[0, 0, 0, 1, 0x41], 300, ⟨0, 0, by decide⟩⟩]
        (start "10.0.0.1" 9000 "cam" ⟨7, by decide, some 3, true⟩ (Session.construct 0 0)).1.1 := by
  refine ⟨by decide +kernel, onTime_sendFrames casts_castDouble 0 0 _ _ _ _ _ _ (by decide) ?_ ?_⟩
  · simp [Nondecreasing]
  · simp

/-- Increasing timestamps separate the frames, however they are computed. -/
theorem separatedByTimestamp_of_increasing (toTimestamp : ℤ → UInt32) {s : Session}
    (hinit : s.basePts < 0) {first : FrameInput} {later : List FrameInput}
    (hfirst : 0 ≤ first.pts) (hunits : ∀ input ∈ first :: later, HoldsUnit input.data)
    (hincreasing : ((first :: later).map fun input ↦
      toTimestamp (input.pts - first.pts)).Pairwise (· < ·)) :
    SeparatedByTimestamp toTimestamp (first :: later) s := by
  have hkeyed : Keyed (fun packet : RtpHeader × Bytes ↦ packet.1.timestamp)
      ((first :: later).map fun input ↦ toTimestamp (input.pts - first.pts))
      (callPackets toTimestamp (first :: later) s) := by
    rw [Keyed, List.forall₂_map_left_iff]
    apply forall₂_callPackets
    intro before input after hsplit
    have hmem := mem_of_eq_append_cons hsplit
    refine ⟨rtpPackets_sendFrame_ne_nil toTimestamp (hunits input hmem) _, ?_⟩
    intro packet hpacket
    have hbase : (sendFrames toTimestamp (before ++ [input]) s).1.basePts = first.pts :=
      historyForall_basePts toTimestamp hinit (.inl hfirst) before input after hsplit
    rw [timestamp_of_mem_rtpPackets toTimestamp hpacket, frameTimestamp,
      ← sendFrames_concat_basePts, hbase]
  have hneighbours := (hincreasing.imp fun hlt ↦ UInt32.ne_of_lt hlt).isChain
  refine ⟨_, hincreasing, hkeyed, ?_⟩
  rw [← flatten_callPackets]
  exact splitBy_flatten_of_keyed hkeyed hneighbours

/-- **Separation in double precision.** Frames that each hold a unit, 12 microseconds or more apart
and within `2 ^ 32` ticks, are separated by the timestamps of the compiled code. -/
theorem separatedByTimestamp_double (h : Casts toTimestamp) (rtpPort : ℤ) (rtpSsrc : UInt32)
    (ip : String) (port : ℤ) (streamId : String) (outcome : StartOutcome) (first : FrameInput)
    (later : List FrameInput) (hfirst : 0 ≤ first.pts) (hspaced : Spaced (first :: later))
    (hspan : ∀ input ∈ first :: later, (input.pts - first.pts) * 9 < 100 * 2 ^ 32)
    (hunits : ∀ input ∈ first :: later, HoldsUnit input.data) :
    SeparatedByTimestamp toTimestamp (first :: later)
      (start ip port streamId outcome (Session.construct rtpPort rtpSsrc)).1.1 := by
  have hinit := start_construct_basePts rtpPort rtpSsrc ip port streamId outcome
  have hpairs := hspaced.pairwise
  have horder : Nondecreasing first later := hpairs.imp fun hgap ↦ by omega
  refine separatedByTimestamp_of_increasing toTimestamp (by omega) hfirst hunits ?_
  rw [List.pairwise_map]
  apply hpairs.imp_of_mem
  intro earlier input hearlier hinput hgap
  have hnonneg := horder.first_le earlier hearlier
  exact h.lt (by omega) (by omega) (hspan input hinput)

/-- Two frames at a distance that double precision shortens. -/
theorem separatedByTimestamp_double_adjacent :
    SeparatedByTimestamp (fun delta ↦ (castDouble delta).getD 0)
      [⟨[0, 0, 0, 1, 0x65], 0, ⟨0, 0, by decide⟩⟩, ⟨[0, 0, 0, 1, 0x65], 288, ⟨0, 0, by decide⟩⟩,
        ⟨[0, 0, 0, 1, 0x41], 300, ⟨0, 0, by decide⟩⟩]
      (start "10.0.0.1" 9000 "cam" ⟨7, by decide, some 3, true⟩ (Session.construct 0 0)).1.1 := by
  refine separatedByTimestamp_double casts_castDouble 0 0 _ _ _ _ _ _ (by decide) ?_ ?_ ?_
  · simp [Spaced]
  · simp
  · intro input hmem
    rcases List.mem_cons.mp hmem with rfl | hmem
    · exact ⟨[0x65], by decide, [], [], rfl⟩
    · rcases List.mem_cons.mp hmem with rfl | hmem
      · exact ⟨[0x65], by decide, [], [], rfl⟩
      · rw [List.mem_singleton.mp hmem]
        exact ⟨[0x41], by decide, [], [], rfl⟩

end RtpSender.Receiver
