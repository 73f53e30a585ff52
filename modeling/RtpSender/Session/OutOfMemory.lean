import RtpSender.Foundation.Throwing
import RtpSender.Session.Accounting

/-!
# Frames sent while memory runs out

Every packet, fragment and report is put together in vectors, whose construction throws when memory
is short.  `sendFrame` catches nothing: it ends in the midst of a frame, what was sent is sent, and
the members keep the values they have then.  The sequence number is taken before the vectors of its
packet and the counters move behind the `send`.  So a packet that fails uses up a number that no
other packet gets, while reports stay exact.
-/

open RtpSender.Emitter RtpSender.Throwing RtpSender.Wire RtpSender.RecordStream RtpSender.History

namespace RtpSender.RtpSendingSession

/-! ## The session with its allocations -/

/-- A session and which of the coming allocations fail; the others succeed. -/
structure Machine where
  session : Session
  failures : List Bool

/-- The construction of a vector. -/
def allocate : MayThrow Machine Syscall := fun m ↦
  (({ m with failures := m.failures.tail }, []), !m.failures.headD false)

def onSession (program : Emit Session Syscall) : MayThrow Machine Syscall :=
  returning fun m ↦ ({ m with session := (program m.session).1 }, (program m.session).2)

def takeSeq : Emit Session Syscall := fun s ↦ ({ s with rtpSeq := s.rtpSeq + 1 }, [])

/-- The end of `sendRtpPacket`, with the header made at its beginning. -/
def sendPrepared (header : RtpHeader) (payload : Bytes) : Emit Session Syscall := fun s ↦
  ({ s with
      pktCount := s.pktCount + 1
      octetCount := s.octetCount + UInt32.ofNat payload.length },
    [.send s.tcpSock (tcpFrame 0 (header.bytes ++ payload))])

def sendRtpPacketOrThrow (payload : Bytes) (marker : Bool) (timestamp : UInt32) :
    MayThrow Machine Syscall := fun m ↦
  sequence (onSession takeSeq)
    -- `packet`, then `tcpFrame`
    (sequence allocate (sequence allocate
      (onSession (sendPrepared (rtpHeader m.session marker timestamp) payload)))) m

def sendRtcpSrOrThrow (timestamp : UInt32) (now : Timeval) : MayThrow Machine Syscall :=
  sequence allocate (onSession (sendRtcpSr timestamp now))

def fragmentLoopOrThrow (nalu : Bytes) (size : ℕ) (nalHeader : UInt8) (timestamp : UInt32)
    (pos : ℕ) : MayThrow Machine Syscall :=
  if pos < size then
    let remaining := size - pos
    let payloadLen := min remaining (rtpMtu - 2)
    let fuHeader :=
      if pos = 1 then fuHeaderStart nalHeader
      else if remaining - payloadLen = 0 then fuHeaderEnd nalHeader
      else fuHeaderMid nalHeader
    let buf := fuIndicator nalHeader :: fuHeader :: (nalu.drop pos).take payloadLen
    sequence allocate
      (sequence (sendRtpPacketOrThrow buf (fuHeader &&& 0x40 != 0) timestamp)
        (fragmentLoopOrThrow nalu size nalHeader timestamp (pos + payloadLen)))
  else returning skip
termination_by size - pos
decreasing_by simp only [rtpMtu]; omega

def packetizeAndSendNaluOrThrow (nalu : Bytes) (size : ℕ) (timestamp : UInt32) :
    MayThrow Machine Syscall :=
  let nalHeader := nalu.headD 0
  if size ≤ rtpMtu then sendRtpPacketOrThrow (nalu.take size) true timestamp
  else fragmentLoopOrThrow nalu size nalHeader timestamp 1

variable (toTimestamp : ℤ → UInt32)

def parseLoopOrThrow (data : Bytes) (pts : ℤ) (pos : ℕ) : MayThrow Machine Syscall :=
  if hpos : pos + 4 < data.length then
    if startCodeAt data pos then
      let start := pos + 4
      have _hend : pos + 4 ≤ findEnd data (pos + 4) := le_findEnd data (pos + 4) hpos.le
      sequence
        (fun m ↦ packetizeAndSendNaluOrThrow (data.drop start) (findEnd data start - start)
          (toTimestamp (pts - m.session.basePts)) m)
        (parseLoopOrThrow data pts (findEnd data start))
    else parseLoopOrThrow data pts (pos + 1)
  else returning skip
termination_by data.length - pos

def parseAndSendFrameOrThrow (data : Bytes) (pts : ℤ) : MayThrow Machine Syscall :=
  parseLoopOrThrow toTimestamp data pts 0

/-- The end of `sendFrame`. -/
def reportOrThrow (timestamp : UInt32) (input : FrameInput) : MayThrow Machine Syscall := fun m ↦
  (if input.pts - m.session.lastRtcpPts ≥ 1000000 then
    sequence (sendRtcpSrOrThrow timestamp input.now) (onSession (noteReport input.pts))
  else returning skip) m

def sendFrameOrThrow (input : FrameInput) : MayThrow Machine Syscall :=
  sequence (onSession (latch input.pts)) fun m ↦
    sequence (parseAndSendFrameOrThrow toTimestamp input.data input.pts)
      (reportOrThrow (toTimestamp (input.pts - m.session.basePts)) input) m

/-- A call of `sendFrame` with the outcomes of its allocations. -/
structure Trial where
  input : FrameInput
  failures : List Bool

def Trial.attempt (trial : Trial) : MayThrow Session Syscall := fun s ↦
  let ((m, calls), returned) := sendFrameOrThrow toTimestamp trial.input ⟨s, trial.failures⟩
  ((m.session, calls), returned)

/-- Calls whose exceptions the caller catches. -/
def attempts (trials : List Trial) : Session → (Session × List Syscall) × List Bool :=
  tryEach (Trial.attempt toTimestamp) trials

/-! ## Invariants -/

section Costs

variable {inv : ℕ → Session → List Syscall → Prop}

/-- `inv` is kept by what succeeds, and a lost sequence number costs one. -/
structure Bears (inv : ℕ → Session → List Syscall → Prop) : Prop where
  weaken : ∀ budget s calls, inv budget s calls → inv (budget + 1) s calls
  latch : ∀ pts budget, Preserves (inv budget) (latch pts)
  packet : ∀ payload marker timestamp, payload.length ≤ rtpMtu → ∀ budget,
    Preserves (inv budget) (sendRtpPacket payload marker timestamp)
  lost : ∀ budget s calls, inv budget s calls →
    inv (budget + 1) { s with rtpSeq := s.rtpSeq + 1 } calls
  report : ∀ timestamp now budget, Preserves (inv budget) (sendRtcpSr timestamp now)
  note : ∀ pts budget, Preserves (inv budget) (noteReport pts)

/-- The invariant read on the machine. -/
def onMachine (inv : ℕ → Session → List Syscall → Prop) (budget : ℕ) (m : Machine)
    (calls : List Syscall) : Prop :=
  inv budget m.session calls

theorem costs_onSession {program : Emit Session Syscall}
    (h : ∀ budget, Preserves (inv budget) program) : Costs (onMachine inv) (onSession program) :=
  costs_returning fun budget m calls hinv ↦ h budget m.session calls hinv

theorem costs_skip : Costs (onMachine inv) (returning skip) :=
  costs_returning fun _ ↦ preserves_skip

/-- Either the packet is sent, or all that remains is its sequence number. -/
theorem sendRtpPacketOrThrow_cases (payload : Bytes) (marker : Bool) (timestamp : UInt32)
    (m : Machine) :
    (∃ failures, sendRtpPacketOrThrow payload marker timestamp m =
        (((⟨(sendRtpPacket payload marker timestamp m.session).1, failures⟩ : Machine),
          (sendRtpPacket payload marker timestamp m.session).2), true)) ∨
      ∃ failures, sendRtpPacketOrThrow payload marker timestamp m =
        (((⟨{ m.session with rtpSeq := m.session.rtpSeq + 1 }, failures⟩ : Machine), []),
          false) := by
  obtain ⟨s, failures⟩ := m
  rcases failures with _ | ⟨_ | _, _ | ⟨_ | _, failures⟩⟩
  · exact .inl ⟨[], rfl⟩
  · exact .inl ⟨[], rfl⟩
  · exact .inl ⟨failures, rfl⟩
  · exact .inr ⟨failures, rfl⟩
  · exact .inr ⟨[], rfl⟩
  · exact .inr ⟨false :: failures, rfl⟩
  · exact .inr ⟨true :: failures, rfl⟩

variable (h : Bears inv)
include h

theorem costs_allocate : Costs (onMachine inv) allocate := by
  intro budget m calls hinv
  rw [allocate, List.append_nil]
  cases m.failures.headD false with
  | false => exact hinv
  | true => exact h.weaken budget m.session calls hinv

theorem costs_sendRtpPacketOrThrow {payload : Bytes} (hpayload : payload.length ≤ rtpMtu)
    (marker : Bool) (timestamp : UInt32) :
    Costs (onMachine inv) (sendRtpPacketOrThrow payload marker timestamp) := by
  intro budget m calls hinv
  rcases sendRtpPacketOrThrow_cases payload marker timestamp m with
    ⟨failures, hsent⟩ | ⟨failures, hthrew⟩
  · rw [hsent]
    exact h.packet payload marker timestamp hpayload budget m.session calls hinv
  · rw [hthrew, List.append_nil]
    exact h.lost budget m.session calls hinv

theorem costs_fragmentLoopOrThrow (nalu : Bytes) (size : ℕ) (nalHeader : UInt8)
    (timestamp : UInt32) (pos : ℕ) :
    Costs (onMachine inv) (fragmentLoopOrThrow nalu size nalHeader timestamp pos) := by
  fun_induction fragmentLoopOrThrow nalu size nalHeader timestamp pos with
  | case1 pos hpos remaining payloadLen fuHeader buf ih =>
    have hbuf : buf.length ≤ rtpMtu := by
      have htake : ((nalu.drop pos).take payloadLen).length ≤ payloadLen := List.length_take_le ..
      have hmin : payloadLen ≤ rtpMtu - 2 := Nat.min_le_right ..
      simp only [buf, List.length_cons, rtpMtu] at htake hmin ⊢
      omega
    exact (costs_allocate h).sequence ((costs_sendRtpPacketOrThrow h hbuf _ _).sequence ih)
  | case2 => exact costs_skip

theorem costs_packetizeAndSendNaluOrThrow (nalu : Bytes) (size : ℕ) (timestamp : UInt32) :
    Costs (onMachine inv) (packetizeAndSendNaluOrThrow nalu size timestamp) := by
  unfold packetizeAndSendNaluOrThrow
  split
  · rename_i hsmall
    have htake : (nalu.take size).length ≤ rtpMtu := (List.length_take_le ..).trans hsmall
    exact costs_sendRtpPacketOrThrow h htake true timestamp
  · exact costs_fragmentLoopOrThrow h nalu size _ timestamp 1

theorem costs_parseLoopOrThrow (data : Bytes) (pts : ℤ) (pos : ℕ) :
    Costs (onMachine inv) (parseLoopOrThrow toTimestamp data pts pos) := by
  fun_induction parseLoopOrThrow toTimestamp data pts pos with
  | case1 pos hpos hcode start hend ih =>
    exact (costs_reading fun m ↦ costs_packetizeAndSendNaluOrThrow h _ _ _).sequence ih
  | case2 pos hpos hcode ih => exact ih
  | case3 => exact costs_skip

/-- The invariant of the steps is one of the calls. -/
theorem costs_sendFrameOrThrow (input : FrameInput) :
    Costs (onMachine inv) (sendFrameOrThrow toTimestamp input) := by
  have hreport (timestamp : UInt32) : Costs (onMachine inv) (reportOrThrow timestamp input) := by
    unfold reportOrThrow
    refine costs_reading fun m ↦ ?_
    split
    · exact ((costs_allocate h).sequence (costs_onSession (h.report timestamp input.now))).sequence
        (costs_onSession (h.note input.pts))
    · exact costs_skip
  have hrest := costs_reading fun m : Machine ↦
    (costs_parseLoopOrThrow toTimestamp h input.data input.pts 0).sequence
      (hreport (toTimestamp (input.pts - m.session.basePts)))
  exact (costs_onSession (h.latch input.pts)).sequence hrest

theorem costs_attempt (trial : Trial) : Costs inv (trial.attempt toTimestamp) :=
  fun budget s calls hinv ↦
    costs_sendFrameOrThrow toTimestamp h trial.input budget ⟨s, trial.failures⟩ calls hinv

theorem costs_attempts (trials : List Trial) {s : Session} {calls : List Syscall}
    (hinv : inv 0 s calls) :
    inv ((attempts toTimestamp trials s).2.count false) (attempts toTimestamp trials s).1.1
      (calls ++ (attempts toTimestamp trials s).1.2) := by
  have hrun := costs_tryEach (costs_attempt toTimestamp h) trials hinv
  rwa [Nat.zero_add] at hrun

end Costs

/-! ## Comparison with calls that return -/

section Stops

theorem stops_onSession (program : Emit Session Syscall) :
    Stops Machine.session (onSession program) program :=
  stops_returning fun _ ↦ rfl

theorem stops_skip : Stops Machine.session (returning skip) (skip : Emit Session Syscall) :=
  stops_returning fun _ ↦ rfl

theorem stops_allocate : Stops Machine.session allocate skip where
  returned _ _ := rfl
  threw _ _ := List.nil_prefix

theorem stops_sendRtpPacketOrThrow (payload : Bytes) (marker : Bool) (timestamp : UInt32) :
    Stops Machine.session (sendRtpPacketOrThrow payload marker timestamp)
      (sendRtpPacket payload marker timestamp) := by
  constructor
  · intro m hreturned
    rcases sendRtpPacketOrThrow_cases payload marker timestamp m with
      ⟨failures, hsent⟩ | ⟨failures, hthrew⟩
    · rw [hsent]
    · rw [hthrew] at hreturned
      cases hreturned
  · intro m hfailed
    rcases sendRtpPacketOrThrow_cases payload marker timestamp m with
      ⟨failures, hsent⟩ | ⟨failures, hthrew⟩
    · rw [hsent] at hfailed
      cases hfailed
    · rw [hthrew]
      exact List.nil_prefix

theorem stops_sendRtcpSrOrThrow (timestamp : UInt32) (now : Timeval) :
    Stops Machine.session (sendRtcpSrOrThrow timestamp now) (sendRtcpSr timestamp now) := by
  have hboth := stops_allocate.sequence (stops_onSession (sendRtcpSr timestamp now))
  rwa [skip_andThen] at hboth

theorem stops_fragmentLoopOrThrow (nalu : Bytes) (size : ℕ) (nalHeader : UInt8)
    (timestamp : UInt32) (pos : ℕ) :
    Stops Machine.session (fragmentLoopOrThrow nalu size nalHeader timestamp pos)
      (fragmentLoop nalu size nalHeader timestamp pos) := by
  fun_induction fragmentLoopOrThrow nalu size nalHeader timestamp pos with
  | case1 pos hpos remaining payloadLen fuHeader buf ih =>
    have hround := stops_allocate.sequence
      ((stops_sendRtpPacketOrThrow buf (fuHeader &&& 0x40 != 0) timestamp).sequence ih)
    rw [skip_andThen] at hround
    rw [fragmentLoop, if_pos hpos]
    exact hround
  | case2 pos hpos =>
    rw [fragmentLoop, if_neg hpos]
    exact stops_skip

theorem stops_packetizeAndSendNaluOrThrow (nalu : Bytes) (size : ℕ) (timestamp : UInt32) :
    Stops Machine.session (packetizeAndSendNaluOrThrow nalu size timestamp)
      (packetizeAndSendNalu nalu size timestamp) := by
  unfold packetizeAndSendNaluOrThrow packetizeAndSendNalu
  split
  · exact stops_sendRtpPacketOrThrow _ true timestamp
  · exact stops_fragmentLoopOrThrow nalu size _ timestamp 1

theorem stops_parseLoopOrThrow (data : Bytes) (pts : ℤ) (pos : ℕ) :
    Stops Machine.session (parseLoopOrThrow toTimestamp data pts pos)
      (parseLoop toTimestamp data pts pos) := by
  fun_induction parseLoopOrThrow toTimestamp data pts pos with
  | case1 pos hpos hcode start hend ih =>
    rw [parseLoop, dif_pos hpos, if_pos hcode]
    refine Stops.sequence ?_ ih
    exact stops_reading fun m ↦ stops_packetizeAndSendNaluOrThrow _ _ _
  | case2 pos hpos hcode ih =>
    rw [parseLoop, dif_pos hpos, if_neg hcode]
    exact ih
  | case3 pos hpos =>
    rw [parseLoop, dif_neg hpos]
    exact stops_skip

theorem stops_reportOrThrow (timestamp : UInt32) (input : FrameInput) :
    Stops Machine.session (reportOrThrow timestamp input) (reportIfDue timestamp input) := by
  unfold reportOrThrow reportIfDue
  refine stops_reading fun m ↦ ?_
  by_cases hdue : input.pts - m.session.lastRtcpPts ≥ 1000000
  · rw [if_pos hdue, if_pos hdue]
    exact (stops_sendRtcpSrOrThrow timestamp input.now).sequence (stops_onSession _)
  · rw [if_neg hdue, if_neg hdue]
    exact stops_skip

theorem stops_sendFrameOrThrow (input : FrameInput) :
    Stops Machine.session (sendFrameOrThrow toTimestamp input) (sendFrame toTimestamp input) := by
  rw [sendFrame_eq_andThen]
  refine (stops_onSession (latch input.pts)).sequence ?_
  refine stops_reading fun m ↦ ?_
  exact (stops_parseLoopOrThrow toTimestamp input.data input.pts 0).sequence
    (stops_reportOrThrow _ input)

/-- A call sends what `sendFrame` sends, or the beginning of it. -/
theorem stops_attempt (trial : Trial) :
    Stops id (trial.attempt toTimestamp) (sendFrame toTimestamp trial.input) where
  returned s := (stops_sendFrameOrThrow toTimestamp trial.input).returned ⟨s, trial.failures⟩
  threw s := (stops_sendFrameOrThrow toTimestamp trial.input).threw ⟨s, trial.failures⟩

end Stops

/-! ## What a receiver counts -/

/-- The sequence numbers on channel 0. -/
def sequenceNumbers (frames : List InterleavedFrame) : List UInt16 :=
  (rtpBodies frames).filterMap fun body ↦ (RtpHeader.read body).map fun read ↦ read.1.seq

/-- Every frame is a packet of channel 0 or a report of channel 1 that counts what came before. -/
def Reported (ssrc : UInt32) (frames : List InterleavedFrame) : Prop :=
  HistoryForall (fun before frame ↦
    (frame.channel = 0 ∧ ∃ index, IsRtpPacket ssrc index frame.body) ∨
      (frame.channel = 1 ∧
        IsSenderReport (rtpBodies before).length (rtpOctets before) frame.body)) frames

/-- In an unbroken numbering of the packets at most `lost` numbers are left out. -/
def NumberedUpTo (lost : ℕ) (frames : List InterleavedFrame) : Prop :=
  (sequenceNumbers frames).Sublist
    ((List.range ((rtpBodies frames).length + lost)).map UInt16.ofNat)

theorem sequenceNumbers_append (frames frames' : List InterleavedFrame) :
    sequenceNumbers (frames ++ frames') = sequenceNumbers frames ++ sequenceNumbers frames' := by
  rw [sequenceNumbers, rtpBodies_append, List.filterMap_append]
  rfl

theorem sequenceNumbers_frame_rtp (header : RtpHeader) (payload : Bytes)
    (h : (Packet.rtp header payload).WellFormed) :
    sequenceNumbers [(Packet.rtp header payload).frame h] = [header.seq] := by
  rw [sequenceNumbers, rtpBodies_frame_rtp, List.filterMap_cons, RtpHeader.read_bytes_append]
  rfl

theorem sequenceNumbers_frame_sr (report : RtcpHeader) (h : (Packet.sr report).WellFormed) :
    sequenceNumbers [(Packet.sr report).frame h] = [] := by
  rw [sequenceNumbers, rtpBodies_frame_sr, List.filterMap_nil]

/-- Of the `taken` sequence numbers at most `lost` belong to no packet. -/
structure AccountingUpTo (fd : ℕ) (ssrc : UInt32) (lost : ℕ) (s : Session)
    (calls : List Syscall) : Prop where
  sock : s.tcpSock = some fd
  ssrc_eq : s.rtpSsrc = ssrc
  counted : ∃ frames taken, wire calls = encodeAll InterleavedFrame.code frames ∧
    Reported ssrc frames ∧
    (sequenceNumbers frames).Sublist ((List.range taken).map UInt16.ofNat) ∧
    taken ≤ (rtpBodies frames).length + lost ∧
    s.rtpSeq = UInt16.ofNat taken ∧
    s.pktCount = UInt32.ofNat (rtpBodies frames).length ∧
    s.octetCount = UInt32.ofNat (rtpOctets frames)

section Accounting

variable {fd : ℕ} {ssrc : UInt32} {lost : ℕ}

/-- A further number of an unbroken numbering. -/
theorem map_range_succ (taken : ℕ) :
    (List.range (taken + 1)).map UInt16.ofNat =
      (List.range taken).map UInt16.ofNat ++ [UInt16.ofNat taken] := by
  rw [List.range_succ, List.map_append, List.map_singleton]

theorem accountingUpTo_sendRtpPacket (payload : Bytes) (marker : Bool) (timestamp : UInt32)
    (hpayload : payload.length ≤ rtpMtu) :
    Preserves (AccountingUpTo fd ssrc lost) (sendRtpPacket payload marker timestamp) := by
  intro s calls h
  obtain ⟨frames, taken, hwire, hreported, hnumbered, htaken, hseq, hpackets, hoctets⟩ := h.counted
  have hwell : (Packet.rtp (rtpHeader s marker timestamp) payload).WellFormed :=
    rtpPacket_wellFormed s marker timestamp hpayload
  have hcount : (rtpBodies (frames ++
      [(Packet.rtp (rtpHeader s marker timestamp) payload).frame hwell])).length =
        (rtpBodies frames).length + 1 := by
    rw [rtpBodies_append, rtpBodies_frame_rtp, List.length_append, List.length_singleton]
  refine ⟨h.sock, h.ssrc_eq,
    frames ++ [(Packet.rtp (rtpHeader s marker timestamp) payload).frame hwell], taken + 1,
    ?_, ?_, ?_, ?_, ?_, ?_, ?_⟩
  · rw [wire_append, sendRtpPacket_snd, h.sock, rtpPacket, wire_send fd _ hwell, hwire,
      encodeAll_append]
  · rw [Reported, historyForall_concat]
    constructor
    · exact hreported
    · left
      exact ⟨rfl, taken, rtpHeader s marker timestamp, payload, RtpHeader.read_bytes_append _ _,
        hwell.1, hwell.2.1, hseq, h.ssrc_eq, hpayload⟩
  · have hnew : (rtpHeader s marker timestamp).seq = UInt16.ofNat taken := hseq
    rw [sequenceNumbers_append, sequenceNumbers_frame_rtp, map_range_succ, hnew]
    exact hnumbered.append (List.Sublist.refl _)
  · rw [hcount]
    omega
  · calc s.rtpSeq + 1 = UInt16.ofNat taken + 1 := by rw [hseq]
      _ = UInt16.ofNat (taken + 1) := (UInt16.ofNat_add _ 1).symm
  · calc s.pktCount + 1 = UInt32.ofNat (rtpBodies frames).length + 1 := by rw [hpackets]
      _ = UInt32.ofNat ((rtpBodies frames).length + 1) := (UInt32.ofNat_add _ 1).symm
      _ = _ := by rw [hcount]
  · calc s.octetCount + UInt32.ofNat payload.length
        = UInt32.ofNat (rtpOctets frames) + UInt32.ofNat payload.length := by rw [hoctets]
      _ = UInt32.ofNat (rtpOctets frames + payload.length) := (UInt32.ofNat_add _ _).symm
      _ = _ := by rw [rtpOctets_append, rtpOctets_frame_rtp]

theorem accountingUpTo_sendRtcpSr (timestamp : UInt32) (now : Timeval) :
    Preserves (AccountingUpTo fd ssrc lost) (sendRtcpSr timestamp now) := by
  intro s calls h
  obtain ⟨frames, taken, hwire, hreported, hnumbered, htaken, hseq, hpackets, hoctets⟩ := h.counted
  have hwell := senderReport_wellFormed s timestamp now
  have hsent : (sendRtcpSr timestamp now s).2 =
      [.send s.tcpSock (Packet.sr (senderReport s timestamp now)).buffer] := rfl
  have hbodies : rtpBodies (frames ++ [(Packet.sr (senderReport s timestamp now)).frame hwell]) =
      rtpBodies frames := by
    rw [rtpBodies_append, rtpBodies_frame_sr, List.append_nil]
  refine ⟨h.sock, h.ssrc_eq,
    frames ++ [(Packet.sr (senderReport s timestamp now)).frame hwell], taken,
    ?_, ?_, ?_, ?_, hseq, ?_, ?_⟩
  · rw [wire_append, hsent, h.sock, wire_send fd _ hwell, hwire, encodeAll_append]
  · rw [Reported, historyForall_concat]
    constructor
    · exact hreported
    · right
      exact ⟨rfl, rfl, senderReport s timestamp now, RtcpHeader.read_bytes _ hwell, hpackets,
        hoctets⟩
  · rwa [sequenceNumbers_append, sequenceNumbers_frame_sr, List.append_nil]
  · rwa [hbodies]
  · rwa [hbodies]
  · rwa [rtpOctets_append, rtpOctets_frame_sr, Nat.add_zero]

/-- A number that is taken and not used is paid for. -/
theorem AccountingUpTo.lose {s : Session} {calls : List Syscall}
    (h : AccountingUpTo fd ssrc lost s calls) :
    AccountingUpTo fd ssrc (lost + 1) { s with rtpSeq := s.rtpSeq + 1 } calls := by
  obtain ⟨frames, taken, hwire, hreported, hnumbered, htaken, hseq, hcounts⟩ := h.counted
  refine ⟨h.sock, h.ssrc_eq, frames, taken + 1, hwire, hreported, ?_, by omega, ?_, hcounts⟩
  · rw [map_range_succ]
    exact hnumbered.trans (List.sublist_append_left _ _)
  · calc s.rtpSeq + 1 = UInt16.ofNat taken + 1 := by rw [hseq]
      _ = UInt16.ofNat (taken + 1) := (UInt16.ofNat_add _ 1).symm

theorem AccountingUpTo.weaken {s : Session} {calls : List Syscall}
    (h : AccountingUpTo fd ssrc lost s calls) : AccountingUpTo fd ssrc (lost + 1) s calls := by
  obtain ⟨frames, taken, hwire, hreported, hnumbered, htaken, hseq, hcounts⟩ := h.counted
  exact ⟨h.sock, h.ssrc_eq, frames, taken, hwire, hreported, hnumbered, by omega, hseq, hcounts⟩

theorem bears_accountingUpTo : Bears (AccountingUpTo fd ssrc) where
  weaken _ _ _ h := h.weaken
  latch pts lost s calls h := by
    rw [latch, List.append_nil, latchBase_eq]
    exact ⟨h.sock, h.ssrc_eq, h.counted⟩
  packet payload marker timestamp hpayload _ :=
    accountingUpTo_sendRtpPacket payload marker timestamp hpayload
  lost _ _ _ h := h.lose
  report timestamp now _ := accountingUpTo_sendRtcpSr timestamp now
  note pts lost s calls h := by
    rw [noteReport, List.append_nil]
    exact ⟨h.sock, h.ssrc_eq, h.counted⟩

/-- The invariant as a receiver sees it. -/
theorem AccountingUpTo.deframe {s : Session} {calls : List Syscall}
    (h : AccountingUpTo fd ssrc lost s calls) :
    ∃ frames, deframe (wire calls) = some frames ∧ Reported ssrc frames ∧
      NumberedUpTo lost frames := by
  obtain ⟨frames, taken, hwire, hreported, hnumbered, htaken, -⟩ := h.counted
  have hrange : (List.range taken).Sublist (List.range ((rtpBodies frames).length + lost)) :=
    List.range_sublist.mpr htaken
  exact ⟨frames, by rw [Wire.deframe, hwire, decodeAll_encodeAll], hreported,
    hnumbered.trans (hrange.map UInt16.ofNat)⟩

/-- **Accounting when memory runs out.** However many calls throw, the stream of a session that is
started after construction deframes without remainder, every report counts exactly what was sent
before it, and each call that throws leaves out at most one sequence number. -/
theorem accounted_attempts (toTimestamp : ℤ → UInt32) (rtpPort : ℤ) (rtpSsrc : UInt32)
    (ip : String) (port : ℤ) (streamId : String) (outcome : StartOutcome) (trials : List Trial)
    (hstarted : (start ip port streamId outcome (Session.construct rtpPort rtpSsrc)).2 = true) :
    ∃ frames, Wire.deframe (wire (attempts toTimestamp trials
        (start ip port streamId outcome (Session.construct rtpPort rtpSsrc)).1.1).1.2) =
          some frames ∧
      Reported outcome.ssrc frames ∧
      NumberedUpTo ((attempts toTimestamp trials
        (start ip port streamId outcome (Session.construct rtpPort rtpSsrc)).1.1).2.count false)
          frames := by
  obtain ⟨fd, hsock⟩ := (start_eq_true_iff ..).mp hstarted
  have hinit : AccountingUpTo fd outcome.ssrc 0
      (start ip port streamId outcome (Session.construct rtpPort rtpSsrc)).1.1 [] := by
    rw [start_session]
    exact ⟨hsock, rfl, [], 0, rfl, historyForall_nil, List.Sublist.refl _, Nat.le_refl _, rfl, rfl,
      rfl⟩
  have hrun := costs_attempts toTimestamp bears_accountingUpTo trials hinit
  rw [List.nil_append] at hrun
  exact hrun.deframe

theorem accounted_attempts_failed :
    ∃ frames, Wire.deframe (wire (attempts (fun _ ↦ 0)
        [⟨⟨[0, 0, 0, 1, 0x65, 7], 0, ⟨1, 0, by decide⟩⟩, [false, true]⟩,
          ⟨⟨[0, 0, 0, 1, 0x41, 8], 2000000, ⟨3, 0, by decide⟩⟩, []⟩]
        (start "10.0.0.1" 9000 "cam" ⟨7, by decide, some 3, true⟩
          (Session.construct 0 0)).1.1).1.2) = some frames ∧
      Reported 7 frames ∧
      NumberedUpTo ((attempts (fun _ ↦ 0)
        [⟨⟨[0, 0, 0, 1, 0x65, 7], 0, ⟨1, 0, by decide⟩⟩, [false, true]⟩,
          ⟨⟨[0, 0, 0, 1, 0x41, 8], 2000000, ⟨3, 0, by decide⟩⟩, []⟩]
        (start "10.0.0.1" 9000 "cam" ⟨7, by decide, some 3, true⟩
          (Session.construct 0 0)).1.1).2.count false) frames :=
  accounted_attempts _ 0 0 "10.0.0.1" 9000 "cam" ⟨7, by decide, some 3, true⟩ _ rfl

end Accounting

end RtpSender.RtpSendingSession
