import RtpSender.Session.Emission

/-!
# The receiver

A receiver of the stream as RFC 6184 describes it.  It splits the connection into interleaved
frames, keeps channel 0, strips the RTP headers and depacketizes: payloads of types 1 to 23 are NAL
units, payloads of type 28 are FU-A fragments, which are joined as long as their sequence numbers
are consecutive modulo `2 ^ 16`.  Everything else is discarded.
-/

open RtpSender.Emitter RtpSender.Wire RtpSender.RecordStream RtpSender.RtpSendingSession

namespace RtpSender.Receiver

/-- The sequence number that continues a fragmented unit, and the bytes of the unit so far. -/
abbrev Pending := Option (UInt16 × Bytes)

/-- Join one FU-A fragment to the pending unit. -/
def joinFragment (seq : UInt16) (indicator fuHeader : UInt8) (body : Bytes) : Emit Pending Bytes :=
  fun pending ↦
    let startBit := fuHeader &&& 0x80 != 0
    let endBit := fuHeader &&& 0x40 != 0
    match startBit, pending with
    | true, _ =>
      -- the start and the end bit must not both be set
      if endBit then (none, [])
      else (some (seq + 1, ((indicator &&& 0xE0) ||| (fuHeader &&& 0x1F)) :: body), [])
    | false, some (expected, nal) =>
      if seq = expected then
        if endBit then (none, [nal ++ body]) else (some (seq + 1, nal ++ body), [])
      else (none, [])
    | false, none => (none, [])

def depacketize (packet : RtpHeader × Bytes) : Emit Pending Bytes := fun pending ↦
  match packet.2 with
  | [] => (none, [])
  | indicator :: rest =>
    let nalType := indicator &&& 0x1F
    if 1 ≤ nalType ∧ nalType ≤ 23 then (none, [packet.2])
    else if nalType = 28 then
      match rest with
      | [] => (none, [])
      | fuHeader :: body => joinFragment packet.1.seq indicator fuHeader body pending
    else (none, [])

/-- The NAL units in a connection; `none` when it does not deframe or lacks an RTP header. -/
def receive (stream : Bytes) : Option (List Bytes) := do
  let frames ← deframe stream
  let packets ← (frames.filter fun frame ↦ frame.channel = 0).mapM fun frame ↦
    RtpHeader.read frame.body
  some (forEach depacketize packets none).2

/-! ## Reading what the sender wrote -/

def rtpParts : Packet → Option (RtpHeader × Bytes)
  | .rtp header payload => some (header, payload)
  | .sr _ => none

/-- Header and payload of the RTP packets among some system calls. -/
def rtpPackets (calls : List Syscall) : List (RtpHeader × Bytes) :=
  (sentPackets calls).filterMap rtpParts

@[simp]
theorem rtpPackets_nil : rtpPackets [] = [] := rfl

@[simp]
theorem rtpPackets_append (calls calls' : List Syscall) :
    rtpPackets (calls ++ calls') = rtpPackets calls ++ rtpPackets calls' := by
  simp [rtpPackets]

@[simp]
theorem rtpPackets_sendReport (timestamp : UInt32) (input : FrameInput) (s : Session) :
    rtpPackets (sendReport timestamp input s).2 = [] := by
  have hreport := senderReport_wellFormed s timestamp input.now
  rw [sendReport_snd, rtpPackets, sentPackets_send _ _ hreport]
  rfl

theorem rtpPackets_sendRtpPacket (payload : Bytes) (marker : Bool) (timestamp : UInt32)
    (s : Session) (hpayload : payload.length ≤ rtpMtu) :
    rtpPackets (sendRtpPacket payload marker timestamp s).2 =
      [(rtpHeader s marker timestamp, payload)] := by
  have hpacket := rtpPacket_wellFormed s marker timestamp hpayload
  rw [sendRtpPacket_snd, rtpPackets, sentPackets_send _ _ hpacket]
  rfl

theorem mapM_read_pmap_frame (packets : List Packet)
    (h : ∀ packet ∈ packets, packet.WellFormed) :
    ((packets.pmap Packet.frame h).filter fun frame ↦ frame.channel = 0).mapM
      (fun frame ↦ RtpHeader.read frame.body) = some (packets.filterMap rtpParts) := by
  induction packets with
  | nil => rfl
  | cons packet packets ih =>
    rw [List.pmap_cons]
    cases packet with
    | rtp header payload =>
      simp [Packet.frame, Packet.channel, Packet.body, rtpParts, ih]
    | sr report => simp [Packet.frame, Packet.channel, rtpParts, List.filterMap_cons, ih]

/-- On the bytes of a connection the receiver depacketizes the RTP packets that were sent. -/
theorem receive_wire {fd : ℕ} {calls : List Syscall} (h : SendsOn fd calls) :
    receive (wire calls) = some (forEach depacketize (rtpPackets calls) none).2 := by
  have hread := mapM_read_pmap_frame (sentPackets calls) h.wellFormed
  rw [h.wire_eq_flatMap_buffer, ← Packet.encodeAll_pmap_frame _ h.wellFormed]
  simp only [receive, deframe, decodeAll_encodeAll, Option.bind_eq_bind, Option.bind_some, hread,
    rtpPackets]

end RtpSender.Receiver
