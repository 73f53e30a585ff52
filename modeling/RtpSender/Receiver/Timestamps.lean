import RtpSender.Receiver.Marker
import RtpSender.Session.Conversion

/-!
# Frames by their timestamps

A tick is a little more than 11 microseconds, so frames that are 12 microseconds apart never share
one.  As long as the timestamps do not run out, a receiver finds the frames of a run, all of them
and no others, as the maximal runs of packets with equal timestamps.  Every frame must emit a packet
for this, that is, hold a start code with something behind it.
-/

open RtpSender.Emitter RtpSender.Wire RtpSender.Delimiter RtpSender.History
open RtpSender.RtpSendingSession

namespace RtpSender.Receiver

/-! ## Frames that emit packets -/

/-- Somewhere in the buffer there is a start code and a NAL unit that is not empty. -/
def HoldsUnit (data : Bytes) : Prop := ∃ nal, nal ≠ [] ∧ startCode ++ nal <:+: data

theorem nalus_ne_nil {data : Bytes} (h : HoldsUnit data) : nalus data ≠ [] := by
  obtain ⟨nal, hnal, before, after, rfl⟩ := h
  have hlength : 0 < nal.length := List.length_pos_iff.mpr hnal
  have hstop : startsNalu (startCode ++ (nal ++ after)) = true := by
    rw [startsNalu_iff]
    refine ⟨?_, List.prefix_append _ _⟩
    simp only [startCode, List.length_append, List.length_cons, List.length_nil]
    omega
  have hfound : (cutWhen startsNalu (before ++ (startCode ++ (nal ++ after)))).2 ≠ [] :=
    cutWhen_snd_ne_nil before hstop (List.append_ne_nil_of_left_ne_nil (List.cons_ne_nil _ _) _)
  rw [List.append_assoc, List.append_assoc, nalus_eq_scanNalus, scanNalus, if_neg hfound]
  exact List.cons_ne_nil _ _

theorem framePackets_ne_nil {data : Bytes} (h : HoldsUnit data) : framePackets data ≠ [] := by
  obtain ⟨nal, rest, hnalus⟩ := List.exists_cons_of_ne_nil (nalus_ne_nil h)
  obtain ⟨init, final, hpackets, -, -⟩ := terminated_nalPackets nal
  rw [framePackets, hnalus, List.flatMap_cons, hpackets]
  simp

/-! ## The packets of a call -/

variable (toTimestamp : ℤ → UInt32)

theorem rtpPackets_sendFrame_ne_nil {input : FrameInput} (h : HoldsUnit input.data) (s : Session) :
    rtpPackets (sendFrame toTimestamp input s).2 ≠ [] := by
  have hplanned := rtpPackets_sendRtpPackets (framePackets input.data)
    (frameTimestamp toTimestamp input s) (latchBase input.pts s)
    fun _ ↦ length_le_of_mem_framePackets
  rw [rtpPackets_sendFrame]
  intro hnil
  rw [hnil] at hplanned
  exact framePackets_ne_nil h hplanned.symm

theorem timestamp_of_mem_rtpPackets {input : FrameInput} {s : Session}
    {packet : RtpHeader × Bytes} (h : packet ∈ rtpPackets (sendFrame toTimestamp input s).2) :
    packet.1.timestamp = frameTimestamp toTimestamp input s := by
  obtain ⟨sent, hsent, hparts⟩ := List.mem_filterMap.mp h
  rw [← timestampOf_sendFrame toTimestamp input s sent hsent]
  cases sent with
  | rtp header payload =>
    rw [← Option.some.inj hparts]
    rfl
  | sr report => cases hparts

/-- What holds of every call along a run holds of the packets call by call. -/
theorem forall₂_callPackets {p : FrameInput → List (RtpHeader × Bytes) → Prop}
    {inputs : List FrameInput} {s : Session}
    (h : HistoryForall (fun before input ↦
      p input (rtpPackets (sendFrame toTimestamp input (sendFrames toTimestamp before s).1).2))
      inputs) :
    List.Forall₂ p inputs (callPackets toTimestamp inputs s) := by
  induction inputs generalizing s with
  | nil => exact .nil
  | cons input inputs ih =>
    obtain ⟨hfirst, hlater⟩ := historyForall_cons.mp h
    exact .cons hfirst (ih hlater)

/-! ## Distinct timestamps -/

/-- Each frame is at least 12 microseconds later than the one before. -/
def Spaced (inputs : List FrameInput) : Prop :=
  inputs.IsChain fun earlier input ↦ earlier.pts + 12 ≤ input.pts

/-- The conversion separates times that are 12 microseconds apart. -/
theorem exactTimestamp_lt {delta delta' : ℤ} (hnonneg : 0 ≤ delta) (hspaced : delta + 12 ≤ delta')
    (hspan : delta' * 9 < 100 * 2 ^ 32) : exactTimestamp delta < exactTimestamp delta' := by
  have hticks : ticks delta = delta * 9 / 100 := ticks_of_nonneg hnonneg
  have hticks' : ticks delta' = delta' * 9 / 100 := ticks_of_nonneg (by omega)
  have hvalue : ((exactTimestamp delta).toNat : ℤ) = ticks delta :=
    toNat_exactTimestamp (by omega)
  have hvalue' : ((exactTimestamp delta').toNat : ℤ) = ticks delta' :=
    toNat_exactTimestamp (by omega)
  rw [UInt32.lt_iff_toNat_lt]
  omega

theorem Spaced.pairwise {inputs : List FrameInput} (h : Spaced inputs) :
    inputs.Pairwise fun earlier input ↦ earlier.pts + 12 ≤ input.pts := by
  have htrans : IsTrans FrameInput fun earlier input ↦ earlier.pts + 12 ≤ input.pts :=
    ⟨fun _ _ _ hbefore hafter ↦ by omega⟩
  exact List.isChain_iff_pairwise.mp h

theorem pairwise_exactTimestamp {first : FrameInput} {later : List FrameInput}
    (hspaced : Spaced (first :: later))
    (hspan : ∀ input ∈ first :: later, (input.pts - first.pts) * 9 < 100 * 2 ^ 32) :
    ((first :: later).map fun input ↦ exactTimestamp (input.pts - first.pts)).Pairwise
      (· < ·) := by
  have hpairs := hspaced.pairwise
  have horder : Nondecreasing first later := hpairs.imp fun hgap ↦ by omega
  rw [List.pairwise_map]
  apply hpairs.imp_of_mem
  intro earlier input hearlier hinput hgap
  have hnonneg := horder.first_le earlier hearlier
  exact exactTimestamp_lt (by omega) (by omega) (hspan input hinput)

/-! ## Runs -/

/-- The packets of a run fall into its frames by their timestamps: there is one timestamp for each
call, these increase, and the maximal runs of equal timestamps are the packets of the calls. -/
def SeparatedByTimestamp (inputs : List FrameInput) (s : Session) : Prop :=
  ∃ timestamps : List UInt32, timestamps.Pairwise (· < ·) ∧
    Keyed (fun packet : RtpHeader × Bytes ↦ packet.1.timestamp) timestamps
      (callPackets toTimestamp inputs s) ∧
    (rtpPackets (sendFrames toTimestamp inputs s).2).splitBy
      (fun packet packet' ↦ packet.1.timestamp == packet'.1.timestamp) =
        callPackets toTimestamp inputs s

/-- **Separation.** In a run of a new session over frames that each hold a unit, 12 microseconds or
more apart and within `2 ^ 32` ticks, timestamps separate the frames. -/
theorem separatedByTimestamp_sendFrames (rtpPort : ℤ) (rtpSsrc : UInt32) (ip : String) (port : ℤ)
    (streamId : String) (outcome : StartOutcome) (first : FrameInput) (later : List FrameInput)
    (hfirst : 0 ≤ first.pts) (hspaced : Spaced (first :: later))
    (hspan : ∀ input ∈ first :: later, (input.pts - first.pts) * 9 < 100 * 2 ^ 32)
    (hunits : ∀ input ∈ first :: later, HoldsUnit input.data) :
    SeparatedByTimestamp exactTimestamp (first :: later)
      (start ip port streamId outcome (Session.construct rtpPort rtpSsrc)).1.1 := by
  have hinit := start_construct_basePts rtpPort rtpSsrc ip port streamId outcome
  generalize (start ip port streamId outcome (Session.construct rtpPort rtpSsrc)).1.1 = s at hinit
  have hincreasing := pairwise_exactTimestamp hspaced hspan
  have hkeyed : Keyed (fun packet : RtpHeader × Bytes ↦ packet.1.timestamp)
      ((first :: later).map fun input ↦ exactTimestamp (input.pts - first.pts))
      (callPackets exactTimestamp (first :: later) s) := by
    rw [Keyed, List.forall₂_map_left_iff]
    apply forall₂_callPackets
    intro before input after hsplit
    have hmem := mem_of_eq_append_cons hsplit
    refine ⟨rtpPackets_sendFrame_ne_nil exactTimestamp (hunits input hmem) _, ?_⟩
    intro packet hpacket
    have hbase : (sendFrames exactTimestamp (before ++ [input]) s).1.basePts = first.pts :=
      historyForall_basePts exactTimestamp (by omega) (.inl hfirst) before input after hsplit
    rw [timestamp_of_mem_rtpPackets exactTimestamp hpacket, frameTimestamp,
      ← sendFrames_concat_basePts, hbase]
  have hneighbours := (hincreasing.imp fun hlt ↦ UInt32.ne_of_lt hlt).isChain
  refine ⟨_, hincreasing, hkeyed, ?_⟩
  rw [← flatten_callPackets]
  exact splitBy_flatten_of_keyed hkeyed hneighbours

/-- Two frames at the smallest distance. -/
theorem separatedByTimestamp_adjacent :
    SeparatedByTimestamp exactTimestamp
      [⟨[0, 0, 0, 1, 0x65], 0, ⟨0, 0, by decide⟩⟩, ⟨[0, 0, 0, 1, 0x41], 12, ⟨0, 0, by decide⟩⟩]
      (start "10.0.0.1" 9000 "cam" ⟨7, by decide, some 3, true⟩ (Session.construct 0 0)).1.1 := by
  refine separatedByTimestamp_sendFrames 0 0 _ _ _ _ _ _ (by decide) ?_ ?_ ?_
  · simp [Spaced]
  · simp
  · intro input hmem
    rcases List.mem_cons.mp hmem with rfl | hmem
    · exact ⟨[0x65], by decide, [], [], rfl⟩
    · rw [List.mem_singleton.mp hmem]
      exact ⟨[0x41], by decide, [], [], rfl⟩

end RtpSender.Receiver
