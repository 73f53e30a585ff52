import RtpSender.Receiver.Depacketizer
import RtpSender.Session.AccessUnit
import RtpSender.Session.TimeBase

/-!
# The marker bit

RFC 6184 sets the marker on the last packet of an access unit.  This sender sets it on the last
packet of every NAL unit, in `packetizeAndSendNalu` as in the last round of the fragment loop.  A
receiver that cuts the stream behind the marked packets finds the NAL units, and finds the frames
only where every frame is a single NAL unit.
-/

open RtpSender.Emitter RtpSender.Wire RtpSender.Delimiter
open RtpSender.RtpSendingSession

namespace RtpSender.Receiver

def marked (packet : RtpHeader × Bytes) : Bool := packet.1.marker

/-! ## The packets of one NAL unit -/

theorem terminated_laterFragments (nalHeader : UInt8) (bodies : List Bytes) (h : bodies ≠ []) :
    Terminated Prod.snd (laterFragments nalHeader bodies) := by
  fun_induction laterFragments nalHeader bodies with
  | case1 => exact absurd rfl h
  | case2 body => exact ⟨[], _, rfl, by simp, rfl⟩
  | case3 body next rest ih =>
    obtain ⟨init, final, hinit, hunmarked, hmarked⟩ := ih (List.cons_ne_nil _ _)
    refine ⟨(fuPayload nalHeader (fuHeaderMid nalHeader) body, false) :: init, final, ?_, ?_,
      hmarked⟩
    · rw [hinit, List.cons_append]
    · intro b hb
      rcases List.mem_cons.mp hb with rfl | hb
      · rfl
      · exact hunmarked b hb

/-- The planned packets of a unit end with the only marked one. -/
theorem terminated_nalPackets (nal : Bytes) : Terminated Prod.snd (nalPackets nal) := by
  by_cases hsmall : nal.length ≤ rtpMtu
  · rw [nalPackets_of_small hsmall]
    exact ⟨[], _, rfl, by simp, rfl⟩
  · have hlarge : rtpMtu < nal.length := Nat.lt_of_not_le hsmall
    obtain ⟨init, final, hinit, hunmarked, hmarked⟩ :=
      terminated_laterFragments (nal.headD 0) _ (laterChunks_ne_nil hlarge)
    rw [nalPackets_of_large hlarge, hinit]
    refine ⟨_ :: init, final, (List.cons_append ..).symm, ?_, hmarked⟩
    intro b hb
    rcases List.mem_cons.mp hb with rfl | hb
    · rfl
    · exact hunmarked b hb

/-- Sent packets carry the planned payloads and markers. -/
theorem rtpPackets_sendRtpPackets (packets : List (Bytes × Bool)) (timestamp : UInt32) (s : Session)
    (hfits : ∀ packet ∈ packets, packet.1.length ≤ rtpMtu) :
    (rtpPackets (sendRtpPackets packets timestamp s).2).map
      (fun packet ↦ (packet.2, marked packet)) = packets := by
  induction packets generalizing s with
  | nil => rfl
  | cons packet packets ih =>
    have hrest := ih (sendRtpPacket packet.1 packet.2 timestamp s).1
      fun p hp ↦ hfits p (List.mem_cons_of_mem _ hp)
    rw [sendRtpPackets, forEach_cons, andThen_snd, rtpPackets_append,
      rtpPackets_sendRtpPacket _ _ _ _ (hfits packet (List.mem_cons_self ..)), List.map_append]
    rw [sendRtpPackets] at hrest
    rw [hrest, List.map_singleton, marked, rtpHeader_marker, List.singleton_append]

/-! ## The packets of one call -/

/-- The packets form one group for each unit; only the last packet of a group is marked. -/
def MarksNals (nals : List NalUnit) (packets : List (RtpHeader × Bytes)) : Prop :=
  ∃ groups : List (List (RtpHeader × Bytes)), packets = groups.flatten ∧
    (∀ group ∈ groups, Terminated marked group) ∧
    groups.map (List.map Prod.snd) = nals.map fun nal ↦ (nalPackets nal.bytes).map Prod.fst

theorem marksNals_sendRtpPackets (nals : List NalUnit) (timestamp : UInt32) (s : Session) :
    MarksNals nals (rtpPackets
      (sendRtpPackets (nals.flatMap fun nal ↦ nalPackets nal.bytes) timestamp s).2) := by
  induction nals generalizing s with
  | nil => exact ⟨[], rfl, by simp, rfl⟩
  | cons nal nals ih =>
    have hgroup := rtpPackets_sendRtpPackets (nalPackets nal.bytes) timestamp s
      fun _ ↦ length_le_of_mem_nalPackets
    obtain ⟨groups, hflatten, hterminated, hpayloads⟩ :=
      ih (sendRtpPackets (nalPackets nal.bytes) timestamp s).1
    refine ⟨rtpPackets (sendRtpPackets (nalPackets nal.bytes) timestamp s).2 :: groups, ?_, ?_, ?_⟩
    · rw [List.flatten_cons, ← hflatten, List.flatMap_cons, sendRtpPackets, forEach_append,
        andThen_snd, rtpPackets_append]
      rfl
    · intro group hmem
      rcases List.mem_cons.mp hmem with rfl | hmem
      · have hplanned := terminated_nalPackets nal.bytes
        rw [← hgroup] at hplanned
        exact hplanned.of_map
      · exact hterminated group hmem
    · have hfirst := congrArg (List.map Prod.fst) hgroup
      rw [List.map_map] at hfirst
      rw [List.map_cons, List.map_cons, hpayloads, ← hfirst]
      rfl

variable (toTimestamp : ℤ → UInt32)

theorem rtpPackets_sendFrame (input : FrameInput) (s : Session) :
    rtpPackets (sendFrame toTimestamp input s).2 =
      rtpPackets (sendRtpPackets (framePackets input.data) (frameTimestamp toTimestamp input s)
        (latchBase input.pts s)).2 := by
  rw [sendFrame_eq, andThen_snd, rtpPackets_append]
  split
  · rw [rtpPackets_sendReport, List.append_nil]
  · rw [skip_apply, rtpPackets_nil, List.append_nil]

theorem marksNals_sendFrame (unit : AccessUnit) (s : Session) :
    MarksNals unit.nals (rtpPackets (sendFrame toTimestamp unit.input s).2) := by
  have hplan : framePackets unit.input.data = unit.nals.flatMap fun nal ↦ nalPackets nal.bytes := by
    rw [framePackets, AccessUnit.input, nalus_frameBytes, List.flatMap_map]
  rw [rtpPackets_sendFrame, hplan]
  exact marksNals_sendRtpPackets unit.nals _ _

/-! ## Runs -/

/-- The packets of a run, call by call. -/
def callPackets : List FrameInput → Session → List (List (RtpHeader × Bytes))
  | [], _ => []
  | input :: inputs, s =>
    rtpPackets (sendFrame toTimestamp input s).2 ::
      callPackets inputs (sendFrame toTimestamp input s).1

theorem flatten_callPackets (inputs : List FrameInput) (s : Session) :
    (callPackets toTimestamp inputs s).flatten =
      rtpPackets (sendFrames toTimestamp inputs s).2 := by
  induction inputs generalizing s with
  | nil => rfl
  | cons input inputs ih =>
    rw [callPackets, List.flatten_cons, ih, sendFrames, sendFrames, forEach_cons, andThen_snd,
      rtpPackets_append]

theorem marksNals_callPackets (units : List AccessUnit) (s : Session) :
    List.Forall₂ (fun (unit : AccessUnit) packets ↦ MarksNals unit.nals packets) units
      (callPackets toTimestamp (units.map AccessUnit.input) s) := by
  induction units generalizing s with
  | nil => exact .nil
  | cons unit units ih => exact .cons (marksNals_sendFrame toTimestamp unit s) (ih _)

/-- The groups of all calls, call by call. -/
theorem exists_blocks {units : List AccessUnit} {calls : List (List (RtpHeader × Bytes))}
    (h : List.Forall₂ (fun (unit : AccessUnit) packets ↦ MarksNals unit.nals packets) units calls) :
    ∃ blocks : List (List (List (RtpHeader × Bytes))), calls = blocks.map List.flatten ∧
      (∀ groups ∈ blocks, ∀ group ∈ groups, Terminated marked group) ∧
      blocks.map List.length = units.map fun unit ↦ unit.nals.length := by
  induction h with
  | nil => exact ⟨[], rfl, by simp, rfl⟩
  | cons hunit _ ih =>
    obtain ⟨groups, rfl, hterminated, hpayloads⟩ := hunit
    obtain ⟨blocks, rfl, hblocks, hlengths⟩ := ih
    refine ⟨groups :: blocks, rfl, ?_, ?_⟩
    · intro block hmem
      rcases List.mem_cons.mp hmem with rfl | hmem
      · exact hterminated
      · exact hblocks block hmem
    · have hlength := congrArg List.length hpayloads
      rw [List.length_map, List.length_map] at hlength
      rw [List.map_cons, List.map_cons, hlengths, hlength]

/-- **Markers.** In every call the markers delimit the NAL units, and over a whole run cutting
behind marked packets gives the packets of the calls exactly when every frame is one NAL unit. -/
theorem marker_sendFrames (units : List AccessUnit) (s : Session) :
    List.Forall₂ (fun (unit : AccessUnit) packets ↦ MarksNals unit.nals packets) units
        (callPackets toTimestamp (units.map AccessUnit.input) s) ∧
      (cutAfter marked (rtpPackets (sendFrames toTimestamp (units.map AccessUnit.input) s).2) =
          callPackets toTimestamp (units.map AccessUnit.input) s ↔
        ∀ unit ∈ units, unit.nals.length = 1) := by
  have hcalls := marksNals_callPackets toTimestamp units s
  refine ⟨hcalls, ?_⟩
  obtain ⟨blocks, hblocks, hterminated, hlengths⟩ := exists_blocks hcalls
  rw [← flatten_callPackets, hblocks, cutAfter_flatten_blocks_iff hterminated]
  have hones : (∀ n ∈ blocks.map List.length, n = 1) ↔
      ∀ n ∈ units.map (fun unit ↦ unit.nals.length), n = 1 := by
    rw [hlengths]
  simpa using hones

/-- A frame with two units: both packets are marked, so the cut divides the frame. -/
theorem cutAfter_marker_ne_callPackets :
    ∃ (unit : AccessUnit) (s : Session), s.tcpSock = some 3 ∧
      (rtpPackets (sendFrame exactTimestamp unit.input s).2).map marked = [true, true] ∧
      cutAfter marked (rtpPackets (sendFrames exactTimestamp [unit.input] s).2) ≠
        callPackets exactTimestamp [unit.input] s :=
  ⟨⟨[⟨0x67, [], by decide⟩, ⟨0x68, [], by decide⟩], 0, ⟨0, 0, by decide⟩⟩,
    (start "10.0.0.1" 9000 "cam" ⟨7, by decide, some 3, true⟩ (Session.construct 0 0)).1.1,
    by decide +kernel⟩

end RtpSender.Receiver
