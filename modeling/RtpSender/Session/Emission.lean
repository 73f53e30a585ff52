import RtpSender.Session.Segmentation

/-!
# What a call of `sendFrame` emits

A call latches the time base, sends the planned packets of its frame with one timestamp and may add
a sender report.  From this equation come the rules by which invariants and simulations pass from
the three kinds of steps to whole runs.  The buffers are read back as packets: `sentPackets` is what
a receiver sees of a list of system calls, `wire` the bytes themselves.
-/

open RtpSender.Emitter RtpSender.Wire

namespace RtpSender.RtpSendingSession

/-! ## Reading system calls -/

/-- The packet in the buffer of a `send`. -/
def Syscall.packet? : Syscall → Option Packet
  | .send _ buffer =>
    match deframe buffer with
    | some [frame] => Packet.read frame
    | _ => none
  | _ => none

def sentPackets (calls : List Syscall) : List Packet := calls.filterMap Syscall.packet?

/-- The bytes that reach the peer when the transport accepts all of them. -/
def wire (calls : List Syscall) : Bytes :=
  calls.flatMap fun
    | .send (some _) buffer => buffer
    | _ => []

@[simp]
theorem sentPackets_nil : sentPackets [] = [] := rfl

@[simp]
theorem sentPackets_append (calls calls' : List Syscall) :
    sentPackets (calls ++ calls') = sentPackets calls ++ sentPackets calls' := by
  simp [sentPackets]

@[simp]
theorem wire_append (calls calls' : List Syscall) :
    wire (calls ++ calls') = wire calls ++ wire calls' := by
  simp [wire]

theorem packet?_send (fd : Option ℕ) (packet : Packet) (h : packet.WellFormed) :
    (Syscall.send fd packet.buffer).packet? = some packet := by
  simp [Syscall.packet?, Packet.deframe_buffer packet h, Packet.read_frame]

theorem sentPackets_send (fd : Option ℕ) (packet : Packet) (h : packet.WellFormed) :
    sentPackets [.send fd packet.buffer] = [packet] := by
  rw [sentPackets, List.filterMap_cons_some (packet?_send fd packet h), List.filterMap_nil]

/-! ## The packets of the two send sites -/

def rtpPacket (s : Session) (payload : Bytes) (marker : Bool) (timestamp : UInt32) : Packet :=
  .rtp (rtpHeader s marker timestamp) payload

theorem sendRtpPacket_snd (payload : Bytes) (marker : Bool) (timestamp : UInt32) (s : Session) :
    (sendRtpPacket payload marker timestamp s).2 =
      [.send s.tcpSock (rtpPacket s payload marker timestamp).buffer] := rfl

@[simp]
theorem rtpHeader_marker (s : Session) (marker : Bool) (timestamp : UInt32) :
    (rtpHeader s marker timestamp).marker = marker := by
  have hbits : ∀ bit : Bool,
      (((if bit then 0x80 else 0x00) ||| (rtpPayloadTypeH264 &&& 0x7F)) &&& (0x80 : UInt8) != 0) =
        bit := by decide
  exact hbits marker

theorem rtpPacket_wellFormed (s : Session) {payload : Bytes} (marker : Bool) (timestamp : UInt32)
    (hpayload : payload.length ≤ rtpMtu) : (rtpPacket s payload marker timestamp).WellFormed := by
  have hversion : (rtpVersion <<< 6) >>> 6 = rtpVersion := by decide
  have hbits : ∀ bit : Bool,
      ((if bit then 0x80 else 0x00) ||| (rtpPayloadTypeH264 &&& 0x7F)) &&& (0x7F : UInt8) =
        rtpPayloadTypeH264 := by decide
  exact ⟨hversion, hbits marker, hpayload⟩

theorem senderReport_wellFormed (s : Session) (timestamp : UInt32) (now : Timeval) :
    (Packet.sr (senderReport s timestamp now)).WellFormed := ⟨rfl, rfl, rfl⟩

/-! ## Payloads fit the MTU -/

theorem length_fuPayload (nalHeader fuHeader : UInt8) (body : Bytes) :
    (fuPayload nalHeader fuHeader body).length = body.length + 2 := rfl

theorem length_le_of_mem_nalPackets {nal : Bytes} {packet : Bytes × Bool}
    (h : packet ∈ nalPackets nal) : packet.1.length ≤ rtpMtu := by
  rcases exists_of_mem_nalPackets h with ⟨hunit, hsmall⟩ | ⟨fuHeader, body, hpayload, hbody⟩
  · rwa [hunit]
  · rw [hpayload, length_fuPayload]
    simp only [rtpMtu] at hbody ⊢
    omega

theorem length_le_of_mem_framePackets {data : Bytes} {packet : Bytes × Bool}
    (h : packet ∈ framePackets data) : packet.1.length ≤ rtpMtu := by
  obtain ⟨nal, _, hpacket⟩ := List.mem_flatMap.mp h
  exact length_le_of_mem_nalPackets hpacket

/-! ## One call of `sendFrame` -/

/-- The tail of `sendFrame` when a sender report is due. -/
def sendReport (timestamp : UInt32) (input : FrameInput) : Emit Session Syscall := fun s ↦
  ({ s with lastRtcpPts := input.pts }, (sendRtcpSr timestamp input.now s).2)

theorem sendReport_snd (timestamp : UInt32) (input : FrameInput) (s : Session) :
    (sendReport timestamp input s).2 =
      [.send s.tcpSock (Packet.sr (senderReport s timestamp input.now)).buffer] := rfl

variable (toTimestamp : ℤ → UInt32)

/-- The timestamp of a call: one conversion, relative to the base after latching. -/
def frameTimestamp (input : FrameInput) (s : Session) : UInt32 :=
  toTimestamp (input.pts - (latchBase input.pts s).basePts)

/-- Latching touches the base only. -/
theorem latchBase_eq (pts : ℤ) (s : Session) :
    latchBase pts s = { s with basePts := if s.basePts < 0 then pts else s.basePts } := by
  unfold latchBase
  split <;> rfl

@[simp]
theorem latchBase_lastRtcpPts (pts : ℤ) (s : Session) :
    (latchBase pts s).lastRtcpPts = s.lastRtcpPts := by
  rw [latchBase_eq]

theorem sendRtpPackets_lastRtcpPts (packets : List (Bytes × Bool)) (timestamp : UInt32)
    (s : Session) : (sendRtpPackets packets timestamp s).1.lastRtcpPts = s.lastRtcpPts := by
  have hkeep : Preserves
      (fun (state : Session) (_ : List Syscall) ↦ state.lastRtcpPts = s.lastRtcpPts)
      (sendRtpPackets packets timestamp) :=
    preserves_forEach fun _ _ _ _ h ↦ h
  exact hkeep s [] rfl

/-- Both computations of the timestamp agree, and nothing else happens in a call. -/
theorem sendFrame_eq (input : FrameInput) (s : Session) :
    sendFrame toTimestamp input s =
      andThen (sendRtpPackets (framePackets input.data) (frameTimestamp toTimestamp input s))
        (if input.pts - s.lastRtcpPts ≥ 1000000 then
          sendReport (frameTimestamp toTimestamp input s) input
        else skip)
        (latchBase input.pts s) := by
  have hlast := sendRtpPackets_lastRtcpPts (framePackets input.data)
    (frameTimestamp toTimestamp input s) (latchBase input.pts s)
  rw [latchBase_lastRtcpPts] at hlast
  simp only [sendFrame, parseAndSendFrame_eq, frameTimestamp] at hlast ⊢
  rw [hlast]
  by_cases hdue : input.pts - s.lastRtcpPts ≥ 1000000
  · rw [if_pos hdue, if_pos hdue]
    rfl
  · rw [if_neg hdue, if_neg hdue]
    simp [andThen_apply]

/-! ## The statements of `sendFrame` -/

def latch (pts : ℤ) : Emit Session Syscall := fun s ↦ (latchBase pts s, [])

def noteReport (pts : ℤ) : Emit Session Syscall := fun s ↦ ({ s with lastRtcpPts := pts }, [])

/-- The end of `sendFrame`. -/
def reportIfDue (timestamp : UInt32) (input : FrameInput) : Emit Session Syscall := fun s ↦
  (if input.pts - s.lastRtcpPts ≥ 1000000 then
    andThen (sendRtcpSr timestamp input.now) (noteReport input.pts)
  else skip) s

theorem reportIfDue_of_due {timestamp : UInt32} {input : FrameInput} {s : Session}
    (hdue : input.pts - s.lastRtcpPts ≥ 1000000) :
    reportIfDue timestamp input s =
      andThen (sendRtcpSr timestamp input.now) (noteReport input.pts) s := by
  rw [reportIfDue, if_pos hdue]

theorem reportIfDue_of_not_due {timestamp : UInt32} {input : FrameInput} {s : Session}
    (hdue : ¬ input.pts - s.lastRtcpPts ≥ 1000000) : reportIfDue timestamp input s = skip s := by
  rw [reportIfDue, if_neg hdue]

theorem sendFrame_eq_andThen (input : FrameInput) :
    sendFrame toTimestamp input = andThen (latch input.pts) fun s ↦
      andThen (parseAndSendFrame toTimestamp input.data input.pts)
        (reportIfDue (toTimestamp (input.pts - s.basePts)) input) s := by
  funext s
  by_cases hdue : input.pts - (parseAndSendFrame toTimestamp input.data input.pts
      (latchBase input.pts s)).1.lastRtcpPts ≥ 1000000
  · simp only [sendFrame, latch, andThen_apply, reportIfDue_of_due hdue, if_pos hdue]
    rfl
  · simp only [sendFrame, latch, andThen_apply, reportIfDue_of_not_due hdue, if_neg hdue,
      skip_apply, List.append_nil, List.nil_append]

/-! ## The packets of one call -/

/-- Sending planned packets gives RTP packets with the planned payloads. -/
theorem exists_of_mem_sentPackets {packets : List (Bytes × Bool)} {timestamp : UInt32} {s : Session}
    (hfits : ∀ planned ∈ packets, planned.1.length ≤ rtpMtu) {packet : Packet}
    (h : packet ∈ sentPackets (sendRtpPackets packets timestamp s).2) :
    ∃ header payload marker, packet = .rtp header payload ∧ (payload, marker) ∈ packets := by
  have hkeep : Preserves (fun (_ : Session) (calls : List Syscall) ↦
      ∀ packet ∈ sentPackets calls,
        ∃ header payload marker, packet = .rtp header payload ∧ (payload, marker) ∈ packets)
      (sendRtpPackets packets timestamp) := by
    apply preserves_forEach
    intro planned hplanned state calls hcalls packet hmem
    rw [sendRtpPacket_snd, sentPackets_append,
      sentPackets_send _ _ (rtpPacket_wellFormed state _ _ (hfits planned hplanned))] at hmem
    rcases List.mem_append.mp hmem with hold | hnew
    · exact hcalls packet hold
    · exact ⟨_, planned.1, planned.2, List.mem_singleton.mp hnew, hplanned⟩
  exact hkeep s [] (by simp) packet h

/-- The packets of a call: those of its frame, and then its report if one is due. -/
theorem sentPackets_sendFrame (input : FrameInput) (s : Session) :
    ∃ s', sentPackets (sendFrame toTimestamp input s).2 =
      sentPackets (sendRtpPackets (framePackets input.data) (frameTimestamp toTimestamp input s)
          (latchBase input.pts s)).2 ++
        if input.pts - s.lastRtcpPts ≥ 1000000 then
          [.sr (senderReport s' (frameTimestamp toTimestamp input s) input.now)]
        else [] := by
  refine ⟨(sendRtpPackets (framePackets input.data) (frameTimestamp toTimestamp input s)
    (latchBase input.pts s)).1, ?_⟩
  rw [sendFrame_eq, andThen_snd, sentPackets_append]
  split
  · rw [sendReport_snd, sentPackets_send _ _ (senderReport_wellFormed _ _ _)]
  · rw [skip_apply, sentPackets_nil]

/-- After a call the time of the last report is that of the call if it emitted one. -/
theorem sendFrame_lastRtcpPts (input : FrameInput) (s : Session) :
    (sendFrame toTimestamp input s).1.lastRtcpPts =
      if input.pts - s.lastRtcpPts ≥ 1000000 then input.pts else s.lastRtcpPts := by
  rw [sendFrame_eq, andThen_fst]
  split
  · rfl
  · rw [skip_apply, sendRtpPackets_lastRtcpPts, latchBase_lastRtcpPts]

/-! ## From steps to runs -/

section Invariant

variable {toTimestamp} {inv : Session → List Syscall → Prop}

/-- An invariant of latching, of every packet within the MTU and of reports is one of a call. -/
theorem preserves_sendFrame {input : FrameInput}
    (hlatch : ∀ s calls, inv s calls → inv (latchBase input.pts s) calls)
    (hpacket : ∀ payload marker timestamp, payload.length ≤ rtpMtu →
      Preserves inv (sendRtpPacket payload marker timestamp))
    (hreport : ∀ timestamp, Preserves inv (sendReport timestamp input)) :
    Preserves inv (sendFrame toTimestamp input) := by
  intro s calls h
  rw [sendFrame_eq]
  have hpackets : Preserves inv
      (sendRtpPackets (framePackets input.data) (frameTimestamp toTimestamp input s)) :=
    preserves_forEach fun packet hmem ↦
      hpacket packet.1 packet.2 _ (length_le_of_mem_framePackets hmem)
  have htail : Preserves inv (if input.pts - s.lastRtcpPts ≥ 1000000 then
      sendReport (frameTimestamp toTimestamp input s) input else skip) := by
    split
    · exact hreport _
    · exact preserves_skip
  exact hpackets.andThen htail _ calls (hlatch s calls h)

theorem preserves_sendFrames {inputs : List FrameInput}
    (hlatch : ∀ pts s calls, inv s calls → inv (latchBase pts s) calls)
    (hpacket : ∀ payload marker timestamp, payload.length ≤ rtpMtu →
      Preserves inv (sendRtpPacket payload marker timestamp))
    (hreport : ∀ timestamp input, Preserves inv (sendReport timestamp input)) :
    Preserves inv (sendFrames toTimestamp inputs) :=
  preserves_forEach fun input _ ↦
    preserves_sendFrame (hlatch input.pts) hpacket fun timestamp ↦ hreport timestamp input

end Invariant

/-! ## Runs on an open connection -/

/-- Every call sends one well-formed packet on the connection `fd`. -/
def SendsOn (fd : ℕ) (calls : List Syscall) : Prop :=
  ∀ call ∈ calls, ∃ packet : Packet, packet.WellFormed ∧ call = .send (some fd) packet.buffer

structure OnConnection (fd : ℕ) (s : Session) (calls : List Syscall) : Prop where
  sock : s.tcpSock = some fd
  sends : SendsOn fd calls

theorem OnConnection.emit {fd : ℕ} {s s' : Session} {calls : List Syscall}
    (h : OnConnection fd s calls) (hsock : s'.tcpSock = s.tcpSock) {packet : Packet}
    (hpacket : packet.WellFormed) :
    OnConnection fd s' (calls ++ [.send s.tcpSock packet.buffer]) := by
  refine ⟨hsock.trans h.sock, ?_⟩
  intro call hcall
  rcases List.mem_append.mp hcall with hold | hnew
  · exact h.sends call hold
  · rw [List.mem_singleton.mp hnew, h.sock]
    exact ⟨packet, hpacket, rfl⟩

theorem OnConnection.latch {fd : ℕ} {s : Session} {calls : List Syscall}
    (h : OnConnection fd s calls) (pts : ℤ) : OnConnection fd (latchBase pts s) calls := by
  rw [latchBase_eq]
  exact ⟨h.sock, h.sends⟩

theorem onConnection_sendFrames (fd : ℕ) (inputs : List FrameInput) :
    Preserves (OnConnection fd) (sendFrames toTimestamp inputs) := by
  apply preserves_sendFrames
  · intro pts s calls h
    exact h.latch pts
  · intro payload marker timestamp hpayload s calls h
    refine h.emit ?_ (rtpPacket_wellFormed s marker timestamp hpayload)
    rfl
  · intro timestamp input s calls h
    refine h.emit ?_ (senderReport_wellFormed s timestamp input.now)
    rfl

theorem sendsOn_sendFrames {fd : ℕ} {s : Session} (hsock : s.tcpSock = some fd)
    (inputs : List FrameInput) : SendsOn fd (sendFrames toTimestamp inputs s).2 := by
  have hinit : OnConnection fd s [] := ⟨hsock, fun call hcall ↦ absurd hcall List.not_mem_nil⟩
  have hrun := onConnection_sendFrames toTimestamp fd inputs s [] hinit
  exact hrun.sends

section Bytes

variable {fd : ℕ} {calls : List Syscall}

/-- The bytes of such calls are the buffers of the packets in them. -/
theorem SendsOn.wire_eq_flatMap_buffer (h : SendsOn fd calls) :
    wire calls = (sentPackets calls).flatMap Packet.buffer := by
  induction calls with
  | nil => rfl
  | cons call calls ih =>
    obtain ⟨packet, hpacket, rfl⟩ := h _ (List.mem_cons_self ..)
    have hrest := ih fun call hcall ↦ h call (List.mem_cons_of_mem _ hcall)
    rw [← List.singleton_append, wire_append, sentPackets_append, sentPackets_send _ _ hpacket,
      List.flatMap_append, hrest]
    simp [wire]

theorem SendsOn.wellFormed (h : SendsOn fd calls) :
    ∀ packet ∈ sentPackets calls, packet.WellFormed := by
  intro sent hsent
  obtain ⟨call, hcall, hread⟩ := List.mem_filterMap.mp hsent
  obtain ⟨packet, hpacket, rfl⟩ := h call hcall
  rw [packet?_send _ packet hpacket] at hread
  rwa [← Option.some.inj hread]

end Bytes

end RtpSender.RtpSendingSession
