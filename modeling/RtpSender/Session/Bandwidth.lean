import RtpSender.Session.Pacing
import Mathlib.Algebra.BigOperators.Ring.List
import Mathlib.Algebra.Order.BigOperators.Group.List
import Mathlib.Algebra.Order.Floor.Div

/-!
# What a run costs

The octets that a session writes are those of the units in its frames, plus headers.  A unit that is
sent whole costs 16 octets more than it holds, a fragmented one 18 for each fragment in place of its
own header octet, and a report 32 in all.  Since reports keep their pace, the octets of the frames
and the span of their times bound what a connection has to carry.
-/

open RtpSender.Emitter RtpSender.Wire RtpSender.Chunks

namespace RtpSender.RtpSendingSession

/-! ## Costs -/

/-- The octets on the wire for a NAL unit of `n` octets. -/
def nalCost (n : ℕ) : ℕ :=
  if n ≤ rtpMtu then n + 16 else n - 1 + 18 * ((n - 1) ⌈/⌉ (rtpMtu - 2))

def frameCost (data : Bytes) : ℕ := ((nalus data).map fun nal ↦ nalCost nal.length).sum

/-- The octets on the wire for planned packets: the payloads, 12 octets of RTP and 4 of framing. -/
def packetsCost (packets : List (Bytes × Bool)) : ℕ :=
  (packets.map fun packet ↦ packet.1.length + 16).sum

theorem packetsCost_append (packets packets' : List (Bytes × Bool)) :
    packetsCost (packets ++ packets') = packetsCost packets + packetsCost packets' := by
  rw [packetsCost, List.map_append, List.sum_append]
  rfl

theorem packetsCost_cons (packet : Bytes × Bool) (packets : List (Bytes × Bool)) :
    packetsCost (packet :: packets) = packet.1.length + 16 + packetsCost packets := by
  rw [packetsCost, List.map_cons, List.sum_cons]
  rfl

/-- Every fragment adds two octets of its own to its share of the unit. -/
theorem packetsCost_laterFragments (nalHeader : UInt8) (bodies : List Bytes) :
    packetsCost (laterFragments nalHeader bodies) =
      bodies.flatten.length + 18 * bodies.length := by
  fun_induction laterFragments nalHeader bodies with
  | case1 => rfl
  | case2 body =>
    have hnone : packetsCost [] = 0 := rfl
    rw [packetsCost_cons, hnone, length_fuPayload, List.flatten_singleton, List.length_singleton]
  | case3 body next rest ih =>
    have hoctets : (body :: next :: rest).flatten.length =
        body.length + (next :: rest).flatten.length := by
      rw [List.flatten_cons, List.length_append]
    have hcount : (body :: next :: rest).length = (next :: rest).length + 1 := rfl
    rw [packetsCost_cons, ih, length_fuPayload]
    omega

theorem packetsCost_fuFragments (nalHeader : UInt8) (bodies : List Bytes) :
    packetsCost (fuFragments nalHeader bodies) = bodies.flatten.length + 18 * bodies.length := by
  cases bodies with
  | nil => rfl
  | cons body rest =>
    rw [fuFragments, packetsCost_cons, packetsCost_laterFragments, length_fuPayload,
      List.flatten_cons, List.length_append, List.length_cons]
    omega

theorem packetsCost_nalPackets (nal : Bytes) :
    packetsCost (nalPackets nal) = nalCost nal.length := by
  have hchunk : 0 < rtpMtu - 2 := by decide
  by_cases hsmall : nal.length ≤ rtpMtu
  · rw [nalPackets_of_small hsmall, nalCost, if_pos hsmall]
    rfl
  · rw [nalPackets, if_neg hsmall, nalCost, if_neg hsmall, packetsCost_fuFragments,
      flatten_chunks hchunk, length_chunks hchunk, List.length_tail, Nat.ceilDiv_eq_add_pred_div]

theorem packetsCost_framePackets (data : Bytes) :
    packetsCost (framePackets data) = frameCost data := by
  rw [framePackets, frameCost]
  induction nalus data with
  | nil => rfl
  | cons nal nals ih =>
    rw [List.flatMap_cons, packetsCost_append, packetsCost_nalPackets, ih, List.map_cons,
      List.sum_cons]

/-! ## Worst case -/

/-- The ranges of a buffer and their start codes lie one behind the other. -/
theorem sum_naluRanges_le {data : Bytes} {pos : ℕ} (hpos : pos ≤ data.length) :
    ((naluRanges data pos).map fun range ↦ range.2 + 4).sum + pos ≤ data.length := by
  fun_induction naluRanges data pos with
  | case1 pos hlt _ hend ih =>
    have hrest := ih (findEnd_le data (pos + 4) (by omega))
    rw [List.map_cons, List.sum_cons]
    omega
  | case2 pos hlt _ ih =>
    have hrest := ih (by omega)
    omega
  | case3 => simpa using hpos

theorem length_slice {data : Bytes} {pos : ℕ} {range : ℕ × ℕ} (h : range ∈ naluRanges data pos) :
    (slice data range).length = range.2 := by
  have hbounds := naluRanges_bounds h
  rw [slice, List.length_take, List.length_drop]
  omega

theorem sum_nalus_le (data : Bytes) :
    ((nalus data).map fun nal ↦ nal.length + 4).sum ≤ data.length := by
  have hranges := sum_naluRanges_le (Nat.zero_le data.length)
  have hsame : (nalus data).map (fun nal ↦ nal.length + 4) =
      (naluRanges data 0).map fun range ↦ range.2 + 4 := by
    rw [nalus, List.map_map]
    apply List.map_congr_left
    intro range hrange
    rw [Function.comp_apply, length_slice hrange]
  rw [hsame]
  exact hranges

theorem nalCost_le (n : ℕ) : nalCost n ≤ 4 * (n + 4) := by
  rw [nalCost, Nat.ceilDiv_eq_add_pred_div]
  split <;> simp only [rtpMtu] at * <;> omega

/-- Start codes with nothing between them cost the most, 16 octets for 4. -/
theorem frameCost_le (data : Bytes) : frameCost data ≤ 4 * data.length := by
  have hoctets := sum_nalus_le data
  have hcost : frameCost data ≤ ((nalus data).map fun nal ↦ 4 * (nal.length + 4)).sum :=
    List.sum_le_sum fun nal _ ↦ nalCost_le nal.length
  rw [List.sum_map_mul_left] at hcost
  omega

/-! ## Calls -/

section Call

variable (toTimestamp : ℤ → UInt32) {fd : ℕ} {s : Session}

theorem length_tcpFrame (channel : UInt8) (body : Bytes) :
    (tcpFrame channel body).length = body.length + 4 := rfl

theorem sendRtpPackets_tcpSock (packets : List (Bytes × Bool)) (timestamp : UInt32) (s : Session) :
    (sendRtpPackets packets timestamp s).1.tcpSock = s.tcpSock := by
  have hkeep : Preserves (fun (state : Session) (_ : List Syscall) ↦ state.tcpSock = s.tcpSock)
      (sendRtpPackets packets timestamp) :=
    preserves_forEach fun _ _ _ _ h ↦ h
  exact hkeep s [] rfl

theorem latchBase_tcpSock (pts : ℤ) (s : Session) : (latchBase pts s).tcpSock = s.tcpSock := by
  rw [latchBase_eq]

theorem sendFrame_tcpSock (input : FrameInput) (s : Session) :
    (sendFrame toTimestamp input s).1.tcpSock = s.tcpSock := by
  rw [sendFrame_eq, andThen_fst]
  split
  · rw [sendReport, sendRtpPackets_tcpSock, latchBase_tcpSock]
  · rw [skip_apply, sendRtpPackets_tcpSock, latchBase_tcpSock]

/-- A buffer that is sent on an open connection is on the wire. -/
theorem wire_send_of_open {sock : Option ℕ} (hsock : sock = some fd) (buffer : Bytes) :
    wire [.send sock buffer] = buffer := by
  rw [hsock, wire, List.flatMap_singleton]

theorem length_wire_sendRtpPacket (payload : Bytes) (marker : Bool) (timestamp : UInt32)
    (hsock : s.tcpSock = some fd) :
    (wire (sendRtpPacket payload marker timestamp s).2).length = payload.length + 16 := by
  rw [sendRtpPacket_snd, wire_send_of_open hsock, rtpPacket, Packet.buffer, length_tcpFrame,
    Packet.body, List.length_append, RtpHeader.length_bytes]
  omega

theorem length_wire_sendRtpPackets (packets : List (Bytes × Bool)) (timestamp : UInt32)
    (hsock : s.tcpSock = some fd) :
    (wire (sendRtpPackets packets timestamp s).2).length = packetsCost packets := by
  induction packets generalizing s with
  | nil => rfl
  | cons packet packets ih =>
    have hrest : (wire (sendRtpPackets packets timestamp
        (sendRtpPacket packet.1 packet.2 timestamp s).1).2).length = packetsCost packets := ih hsock
    rw [sendRtpPackets] at hrest ⊢
    rw [forEach_cons, andThen_snd, wire_append, List.length_append,
      length_wire_sendRtpPacket packet.1 packet.2 timestamp hsock, hrest, packetsCost_cons]

theorem length_wire_sendFrame (input : FrameInput) (hsock : s.tcpSock = some fd) :
    (wire (sendFrame toTimestamp input s).2).length =
      frameCost input.data + if emitsReport toTimestamp input s then 32 else 0 := by
  have hlatched : (latchBase input.pts s).tcpSock = some fd := by
    rw [latchBase_tcpSock, hsock]
  have hcost := length_wire_sendRtpPackets (framePackets input.data)
    (frameTimestamp toTimestamp input s) hlatched
  rw [packetsCost_framePackets] at hcost
  rw [sendFrame_eq, andThen_snd, wire_append, List.length_append, hcost]
  simp only [emitsReport_iff]
  split
  · rw [sendReport_snd, wire_send_of_open]
    · rfl
    · rw [sendRtpPackets_tcpSock, hlatched]
  · rfl

end Call

/-! ## Runs -/

section Run

variable (toTimestamp : ℤ → UInt32) {fd : ℕ} {s : Session}

theorem length_wire_sendFrames (inputs : List FrameInput) (hsock : s.tcpSock = some fd) :
    (wire (sendFrames toTimestamp inputs s).2).length =
      (inputs.map fun input ↦ frameCost input.data).sum +
        32 * (reportTimes toTimestamp inputs s).length := by
  induction inputs generalizing s with
  | nil => rfl
  | cons input inputs ih =>
    have hrest := ih ((sendFrame_tcpSock toTimestamp input s).trans hsock)
    rw [sendFrames] at hrest ⊢
    rw [forEach_cons, andThen_snd, wire_append, List.length_append,
      length_wire_sendFrame toTimestamp input hsock, hrest, reportTimes, List.length_append,
      List.map_cons, List.sum_cons]
    split
    · rw [List.length_singleton]
      omega
    · rw [List.length_nil]
      omega

theorem exists_of_mem_reportTimes {inputs : List FrameInput} {time : ℤ}
    (h : time ∈ reportTimes toTimestamp inputs s) : ∃ input ∈ inputs, input.pts = time := by
  induction inputs generalizing s with
  | nil => simp [reportTimes] at h
  | cons input inputs ih =>
    rw [reportTimes, List.mem_append] at h
    rcases h with hfirst | hlater
    · split at hfirst
      · exact ⟨input, List.mem_cons_self .., (List.mem_singleton.mp hfirst).symm⟩
      · simp at hfirst
    · obtain ⟨input', hmem, htime⟩ := ih hlater
      exact ⟨input', List.mem_cons_of_mem _ hmem, htime⟩

/-- Times with a gap between any two of them need room. -/
theorem mul_length_le_of_spaced {times : List ℤ} {gap earliest latest : ℤ}
    (hspaced : times.Pairwise fun time later ↦ gap ≤ later - time)
    (hwithin : ∀ time ∈ times, earliest ≤ time ∧ time ≤ latest)
    (hroom : earliest ≤ latest + gap) : gap * times.length ≤ latest + gap - earliest := by
  induction times generalizing earliest with
  | nil =>
    rw [List.length_nil, Nat.cast_zero, mul_zero]
    omega
  | cons time times ih =>
    obtain ⟨hgaps, hlater⟩ := List.pairwise_cons.mp hspaced
    have hfirst := hwithin time (List.mem_cons_self ..)
    have hrest : gap * times.length ≤ latest + gap - (time + gap) := by
      refine ih hlater ?_ (by omega)
      intro later hmem
      have hgap := hgaps later hmem
      exact ⟨by omega, (hwithin later (List.mem_cons_of_mem _ hmem)).2⟩
    rw [List.length_cons, Nat.cast_succ, mul_add_one]
    omega

/-- **Bandwidth.** The octets of a run on an open connection are the costs of its frames and 32 for
each report, at most four times the octets of the frames in all but the reports; one more report
needs one more second of media time. -/
theorem bandwidth_sendFrames (inputs : List FrameInput) (hsock : s.tcpSock = some fd)
    {earliest latest : ℤ} (horder : earliest ≤ latest)
    (hwithin : ∀ input ∈ inputs, earliest ≤ input.pts ∧ input.pts ≤ latest) :
    let reports := (reportTimes toTimestamp inputs s).length
    let octets := (wire (sendFrames toTimestamp inputs s).2).length
    1000000 * (reports : ℤ) ≤ latest - earliest + 1000000 ∧
      octets = (inputs.map fun input ↦ frameCost input.data).sum + 32 * reports ∧
      octets ≤ 4 * (inputs.map fun input ↦ input.data.length).sum + 32 * reports := by
  intro reports octets
  have hlength : octets = _ := length_wire_sendFrames toTimestamp inputs hsock
  refine ⟨?_, hlength, ?_⟩
  · have hreports : 1000000 * (reports : ℤ) ≤ latest + 1000000 - earliest := by
      refine mul_length_le_of_spaced (spacing_reportTimes toTimestamp inputs s) ?_ (by omega)
      intro time hmem
      obtain ⟨input, hinput, rfl⟩ := exists_of_mem_reportTimes toTimestamp hmem
      exact hwithin input hinput
    omega
  · have hframes : (inputs.map fun input ↦ frameCost input.data).sum ≤
        (inputs.map fun input ↦ 4 * input.data.length).sum :=
      List.sum_le_sum fun input _ ↦ frameCost_le input.data
    rw [List.sum_map_mul_left] at hframes
    rw [hlength]
    exact Nat.add_le_add_right hframes _

/-- Two frames one second apart, the second of which is reported. -/
theorem bandwidth_sendFrames_second :
    let inputs : List FrameInput := [⟨[0, 0, 0, 1, 0x65], 0, ⟨0, 0, by decide⟩⟩,
      ⟨[0, 0, 0, 1, 0x41], 1000000, ⟨1, 0, by decide⟩⟩]
    let s := (start "10.0.0.1" 9000 "cam" ⟨7, by decide, some 3, true⟩ (Session.construct 0 0)).1.1
    let reports := (reportTimes exactTimestamp inputs s).length
    let octets := (wire (sendFrames exactTimestamp inputs s).2).length
    1000000 * (reports : ℤ) ≤ 1000000 - 0 + 1000000 ∧
      octets = (inputs.map fun input ↦ frameCost input.data).sum + 32 * reports ∧
      octets ≤ 4 * (inputs.map fun input ↦ input.data.length).sum + 32 * reports := by
  intro inputs s
  refine bandwidth_sendFrames exactTimestamp inputs rfl (by decide) ?_
  intro input hmem
  rcases List.mem_cons.mp hmem with rfl | hmem
  · exact ⟨by decide, by decide⟩
  · rw [List.mem_singleton.mp hmem]
    exact ⟨by decide, by decide⟩

end Run

end RtpSender.RtpSendingSession
