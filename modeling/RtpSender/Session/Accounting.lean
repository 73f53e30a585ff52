import RtpSender.Foundation.History
import RtpSender.Session.Emission
import RtpSender.Session.Lifecycle

/-!
# The wire format and the counters

On a session started once after construction, the bytes written are interleaved frames whatever the
buffers hold.  The number of RTP packets already on the wire determines the next sequence number and
the packet count, their payload bytes the octet count, each modulo its width; reports quote the
counters.  The length field is right because every packet fits the MTU.
-/

open RtpSender.Emitter RtpSender.Wire RtpSender.RecordStream RtpSender.History

namespace RtpSender.RtpSendingSession

/-! ## What a receiver counts -/

/-- The bodies on channel 0. -/
def rtpBodies (frames : List InterleavedFrame) : List Bytes :=
  (frames.filter fun frame ↦ frame.channel = 0).map InterleavedFrame.body

/-- The bytes behind the 12-byte headers on channel 0. -/
def rtpOctets (frames : List InterleavedFrame) : ℕ :=
  ((rtpBodies frames).map fun body ↦ body.length - 12).sum

/-- An H.264 packet of the source `ssrc` with the given index in the stream. -/
def IsRtpPacket (ssrc : UInt32) (index : ℕ) (body : Bytes) : Prop :=
  ∃ header payload, RtpHeader.read body = some (header, payload) ∧
    header.version = 2 ∧ header.payloadType = 98 ∧ header.seq = UInt16.ofNat index ∧
    header.ssrc = ssrc ∧ payload.length ≤ 1400

def IsSenderReport (packets octets : ℕ) (body : Bytes) : Prop :=
  body.length = 28 ∧ ∃ report, RtcpHeader.read body = some report ∧
    report.packetCount = UInt32.ofNat packets ∧ report.octetCount = UInt32.ofNat octets

/-- Every frame is a packet of channel 0 or a report of channel 1 that fits what came before. -/
def Accounted (ssrc : UInt32) (frames : List InterleavedFrame) : Prop :=
  HistoryForall (fun before frame ↦
    (frame.channel = 0 ∧ IsRtpPacket ssrc (rtpBodies before).length frame.body) ∨
      (frame.channel = 1 ∧
        IsSenderReport (rtpBodies before).length (rtpOctets before) frame.body)) frames

theorem rtpBodies_append (frames frames' : List InterleavedFrame) :
    rtpBodies (frames ++ frames') = rtpBodies frames ++ rtpBodies frames' := by
  simp [rtpBodies]

theorem rtpOctets_append (frames frames' : List InterleavedFrame) :
    rtpOctets (frames ++ frames') = rtpOctets frames + rtpOctets frames' := by
  simp [rtpOctets, rtpBodies_append]

/-! ## The invariant -/

/-- The bytes written so far and the counters that belong to them. -/
structure Accounting (fd : ℕ) (ssrc : UInt32) (s : Session) (calls : List Syscall) : Prop where
  sock : s.tcpSock = some fd
  ssrc_eq : s.rtpSsrc = ssrc
  counted : ∃ frames, wire calls = encodeAll InterleavedFrame.code frames ∧
    Accounted ssrc frames ∧
    s.rtpSeq = UInt16.ofNat (rtpBodies frames).length ∧
    s.pktCount = UInt32.ofNat (rtpBodies frames).length ∧
    s.octetCount = UInt32.ofNat (rtpOctets frames)

variable {fd : ℕ} {ssrc : UInt32}

theorem wire_send (fd : ℕ) (packet : Packet) (h : packet.WellFormed) :
    wire [.send (some fd) packet.buffer] = encodeAll InterleavedFrame.code [packet.frame h] := by
  simp [wire, Packet.encode_frame]

theorem accounting_latchBase (pts : ℤ) (s : Session) (calls : List Syscall)
    (h : Accounting fd ssrc s calls) : Accounting fd ssrc (latchBase pts s) calls := by
  rw [latchBase_eq]
  exact ⟨h.sock, h.ssrc_eq, h.counted⟩

theorem rtpBodies_frame_rtp (header : RtpHeader) (payload : Bytes)
    (h : (Packet.rtp header payload).WellFormed) :
    rtpBodies [(Packet.rtp header payload).frame h] = [header.bytes ++ payload] := rfl

theorem rtpBodies_frame_sr (report : RtcpHeader) (h : (Packet.sr report).WellFormed) :
    rtpBodies [(Packet.sr report).frame h] = [] := rfl

theorem rtpOctets_frame_rtp (header : RtpHeader) (payload : Bytes)
    (h : (Packet.rtp header payload).WellFormed) :
    rtpOctets [(Packet.rtp header payload).frame h] = payload.length := by
  rw [rtpOctets, rtpBodies_frame_rtp]
  simp

theorem rtpOctets_frame_sr (report : RtcpHeader) (h : (Packet.sr report).WellFormed) :
    rtpOctets [(Packet.sr report).frame h] = 0 := by
  rw [rtpOctets, rtpBodies_frame_sr]
  rfl

theorem accounting_sendRtpPacket (payload : Bytes) (marker : Bool) (timestamp : UInt32)
    (hpayload : payload.length ≤ rtpMtu) :
    Preserves (Accounting fd ssrc) (sendRtpPacket payload marker timestamp) := by
  intro s calls h
  obtain ⟨frames, hwire, haccounted, hseq, hpackets, hoctets⟩ := h.counted
  have hwell : (Packet.rtp (rtpHeader s marker timestamp) payload).WellFormed :=
    rtpPacket_wellFormed s marker timestamp hpayload
  have hcount : (rtpBodies (frames ++
      [(Packet.rtp (rtpHeader s marker timestamp) payload).frame hwell])).length =
        (rtpBodies frames).length + 1 := by
    rw [rtpBodies_append, rtpBodies_frame_rtp, List.length_append, List.length_singleton]
  refine ⟨h.sock, h.ssrc_eq,
    frames ++ [(Packet.rtp (rtpHeader s marker timestamp) payload).frame hwell], ?_, ?_, ?_, ?_, ?_⟩
  · rw [wire_append, sendRtpPacket_snd, h.sock, rtpPacket, wire_send fd _ hwell, hwire,
      encodeAll_append]
  · rw [Accounted, historyForall_concat]
    constructor
    · exact haccounted
    · left
      exact ⟨rfl, rtpHeader s marker timestamp, payload, RtpHeader.read_bytes_append _ _, hwell.1,
        hwell.2.1, hseq, h.ssrc_eq, hpayload⟩
  · calc s.rtpSeq + 1 = UInt16.ofNat (rtpBodies frames).length + 1 := by rw [hseq]
      _ = UInt16.ofNat ((rtpBodies frames).length + 1) := (UInt16.ofNat_add _ 1).symm
      _ = _ := by rw [hcount]
  · calc s.pktCount + 1 = UInt32.ofNat (rtpBodies frames).length + 1 := by rw [hpackets]
      _ = UInt32.ofNat ((rtpBodies frames).length + 1) := (UInt32.ofNat_add _ 1).symm
      _ = _ := by rw [hcount]
  · calc s.octetCount + UInt32.ofNat payload.length
        = UInt32.ofNat (rtpOctets frames) + UInt32.ofNat payload.length := by rw [hoctets]
      _ = UInt32.ofNat (rtpOctets frames + payload.length) := (UInt32.ofNat_add _ _).symm
      _ = _ := by rw [rtpOctets_append, rtpOctets_frame_rtp]

theorem accounting_sendReport (timestamp : UInt32) (input : FrameInput) :
    Preserves (Accounting fd ssrc) (sendReport timestamp input) := by
  intro s calls h
  obtain ⟨frames, hwire, haccounted, hseq, hpackets, hoctets⟩ := h.counted
  have hwell := senderReport_wellFormed s timestamp input.now
  have hbodies : rtpBodies
      (frames ++ [(Packet.sr (senderReport s timestamp input.now)).frame hwell]) =
        rtpBodies frames := by
    rw [rtpBodies_append, rtpBodies_frame_sr, List.append_nil]
  refine ⟨h.sock, h.ssrc_eq,
    frames ++ [(Packet.sr (senderReport s timestamp input.now)).frame hwell], ?_, ?_, ?_, ?_, ?_⟩
  · rw [wire_append, sendReport_snd, h.sock, wire_send fd _ hwell, hwire, encodeAll_append]
  · rw [Accounted, historyForall_concat]
    constructor
    · exact haccounted
    · right
      exact ⟨rfl, rfl, senderReport s timestamp input.now, RtcpHeader.read_bytes _ hwell, hpackets,
        hoctets⟩
  · rw [hbodies]
    exact hseq
  · rw [hbodies]
    exact hpackets
  · rw [rtpOctets_append, rtpOctets_frame_sr, Nat.add_zero]
    exact hoctets

theorem accounting_sendFrames (toTimestamp : ℤ → UInt32) (inputs : List FrameInput) :
    Preserves (Accounting fd ssrc) (sendFrames toTimestamp inputs) :=
  preserves_sendFrames accounting_latchBase accounting_sendRtpPacket accounting_sendReport

/-- **Wire format and accounting.** Over arbitrary buffers and times, the stream of a session that
is started after construction deframes without remainder, and its frames are accounted for. -/
theorem accounted_sendFrames (toTimestamp : ℤ → UInt32) (rtpPort : ℤ) (rtpSsrc : UInt32)
    (ip : String) (port : ℤ) (streamId : String) (outcome : StartOutcome)
    (inputs : List FrameInput)
    (hstarted : (start ip port streamId outcome (Session.construct rtpPort rtpSsrc)).2 = true) :
    ∃ frames, deframe (wire (sendFrames toTimestamp inputs
        (start ip port streamId outcome (Session.construct rtpPort rtpSsrc)).1.1).2) = some frames ∧
      Accounted outcome.ssrc frames := by
  obtain ⟨fd, hsock⟩ := (start_eq_true_iff ..).mp hstarted
  have hinit : Accounting fd outcome.ssrc
      (start ip port streamId outcome (Session.construct rtpPort rtpSsrc)).1.1 [] := by
    rw [start_session]
    exact ⟨hsock, rfl, [], rfl, historyForall_nil, rfl, rfl, rfl⟩
  have hrun := accounting_sendFrames toTimestamp inputs _ [] hinit
  obtain ⟨frames, hwire, haccounted, -⟩ := hrun.counted
  rw [List.nil_append] at hwire
  exact ⟨frames, by rw [deframe, hwire, decodeAll_encodeAll], haccounted⟩

theorem accounted_sendFrames_garbage :
    ∃ frames, deframe (wire (sendFrames (fun _ ↦ 0)
        [⟨[0, 0, 0, 1, 0, 0, 0, 1], -7, ⟨1, 0, by decide⟩⟩, ⟨[], 2000000, ⟨3, 0, by decide⟩⟩]
        (start "10.0.0.1" 9000 "cam" ⟨7, by decide, some 3, true⟩
          (Session.construct 0 0)).1.1).2) = some frames ∧ Accounted 7 frames :=
  accounted_sendFrames _ 0 0 "10.0.0.1" 9000 "cam" ⟨7, by decide, some 3, true⟩ _ rfl

end RtpSender.RtpSendingSession
