import RtpSender.Session.TimeBase

/-!
# Restarted sessions

`start` and `stop` leave the time base, the counters and the time of the last report as they are.
What a restarted session sends is compared with what a new one sends for the same frames.  The
difference may be the SSRC and a constant in the sequence numbers, and it is no more than that
exactly when the earlier life of the session has left no trace in these four members.
-/

open RtpSender.Emitter RtpSender.Wire

namespace RtpSender.RtpSendingSession

/-! ## Comparing two streams -/

/-- The same packet from another source and at another place in its sequence. -/
def relabel (ssrc : UInt32) (offset : UInt16) : Packet → Packet
  | .rtp header payload => .rtp { header with seq := header.seq + offset, ssrc := ssrc } payload
  | .sr report => .sr { report with ssrc := ssrc }

/-- The calls write the same bytes up to the SSRC and a constant in the sequence numbers. -/
def SameUpToSource (calls calls' : List Syscall) : Prop :=
  ∃ (packets : List Packet) (ssrc : UInt32) (offset : UInt16),
    (∀ packet ∈ packets, packet.WellFormed) ∧
    wire calls = packets.flatMap Packet.buffer ∧
    wire calls' = (packets.map (relabel ssrc offset)).flatMap Packet.buffer

/-- After a successful `start` the session writes what a new one would write. -/
def RestartsFresh (toTimestamp : ℤ → UInt32) (s : Session) : Prop :=
  ∀ ip port streamId outcome outcome' rtpPort rtpSsrc inputs,
    (start ip port streamId outcome s).2 = true →
    (start ip port streamId outcome' (Session.construct rtpPort rtpSsrc)).2 = true →
    SameUpToSource
      (sendFrames toTimestamp inputs
        (start ip port streamId outcome' (Session.construct rtpPort rtpSsrc)).1.1).2
      (sendFrames toTimestamp inputs (start ip port streamId outcome s).1.1).2

/-- The four members as a constructor leaves them, as far as the code can tell. -/
structure NoTrace (s : Session) : Prop where
  base : s.basePts < 0
  packets : s.pktCount = 0
  octets : s.octetCount = 0
  lastRtcp : s.lastRtcpPts = 0

theorem wellFormed_relabel {packet : Packet} (h : packet.WellFormed) (ssrc : UInt32)
    (offset : UInt16) : (relabel ssrc offset packet).WellFormed := by
  cases packet with
  | rtp header payload => exact h
  | sr report => exact h

theorem timestampOf_relabel (ssrc : UInt32) (offset : UInt16) (packet : Packet) :
    timestampOf (relabel ssrc offset packet) = timestampOf packet := by
  cases packet <;> rfl

/-- The comparison can be made packet by packet. -/
theorem SameUpToSource.sentPackets {calls calls' : List Syscall} {fd fd' : ℕ}
    (h : SameUpToSource calls calls') (hcalls : SendsOn fd calls) (hcalls' : SendsOn fd' calls') :
    ∃ ssrc offset, sentPackets calls' = (sentPackets calls).map (relabel ssrc offset) := by
  obtain ⟨packets, ssrc, offset, hwell, hwire, hwire'⟩ := h
  rw [hcalls.wire_eq_flatMap_buffer] at hwire
  rw [hcalls'.wire_eq_flatMap_buffer] at hwire'
  have hrelabelled : ∀ packet ∈ packets.map (relabel ssrc offset), packet.WellFormed := by
    intro packet hmem
    obtain ⟨original, horiginal, rfl⟩ := List.mem_map.mp hmem
    exact wellFormed_relabel (hwell original horiginal) ssrc offset
  have hpackets := Packet.flatMap_buffer_injective hcalls.wellFormed hwell hwire
  have hpackets' := Packet.flatMap_buffer_injective hcalls'.wellFormed hrelabelled hwire'
  exact ⟨ssrc, offset, by rw [hpackets', hpackets]⟩

/-! ## A trace-free session simulates a new one -/

/-- The fields that decide what a session sends agree, up to the source. -/
structure Related (fd fd' : ℕ) (ssrc : UInt32) (offset : UInt16) (s s' : Session) : Prop where
  sock : s.tcpSock = some fd
  sock' : s'.tcpSock = some fd'
  ssrc_eq : s'.rtpSsrc = ssrc
  seq : s'.rtpSeq = s.rtpSeq + offset
  packets : s'.pktCount = s.pktCount
  octets : s'.octetCount = s.octetCount
  lastRtcp : s'.lastRtcpPts = s.lastRtcpPts
  base : s'.basePts = s.basePts ∨ (s'.basePts < 0 ∧ s.basePts < 0)

def SameCall (fd fd' : ℕ) (ssrc : UInt32) (offset : UInt16) (call call' : Syscall) : Prop :=
  ∃ packet : Packet, packet.WellFormed ∧ call = .send (some fd) packet.buffer ∧
    call' = .send (some fd') (relabel ssrc offset packet).buffer

variable {fd fd' : ℕ} {ssrc : UInt32} {offset : UInt16}

theorem sameUpToSource_of_forall₂ {calls calls' : List Syscall}
    (h : List.Forall₂ (SameCall fd fd' ssrc offset) calls calls') :
    SameUpToSource calls calls' := by
  refine ⟨sentPackets calls, ssrc, offset, ?_⟩
  induction h with
  | nil => exact ⟨by simp, rfl, rfl⟩
  | @cons call call' calls calls' hcall _ ih =>
    obtain ⟨packet, hwell, rfl, rfl⟩ := hcall
    obtain ⟨hall, hwire, hwire'⟩ := ih
    have hsent : sentPackets (.send (some fd) packet.buffer :: calls) =
        packet :: sentPackets calls := by
      rw [sentPackets, List.filterMap_cons_some (packet?_send _ packet hwell)]
      rfl
    rw [hsent]
    refine ⟨?_, ?_, ?_⟩
    · intro p hp
      rcases List.mem_cons.mp hp with rfl | hrest
      · exact hwell
      · exact hall p hrest
    · rw [List.flatMap_cons, ← hwire]
      rfl
    · rw [List.map_cons, List.flatMap_cons, ← hwire']
      rfl

theorem Related.latch {s s' : Session} (h : Related fd fd' ssrc offset s s') (pts : ℤ) :
    Related fd fd' ssrc offset (latchBase pts s) (latchBase pts s') ∧
      (latchBase pts s').basePts = (latchBase pts s).basePts := by
  have hbase : (latchBase pts s').basePts = (latchBase pts s).basePts := by
    rw [latchBase_basePts, latchBase_basePts]
    rcases h.base with heq | ⟨hneg', hneg⟩
    · rw [heq]
    · rw [if_pos hneg', if_pos hneg]
  refine ⟨?_, hbase⟩
  rw [latchBase_eq, latchBase_eq] at hbase ⊢
  exact ⟨h.sock, h.sock', h.ssrc_eq, h.seq, h.packets, h.octets, h.lastRtcp, .inl hbase⟩

theorem simulates_sendRtpPacket (payload : Bytes) (marker : Bool) (timestamp : UInt32)
    (hpayload : payload.length ≤ rtpMtu) :
    Simulates (Related fd fd' ssrc offset) (SameCall fd fd' ssrc offset)
      (sendRtpPacket payload marker timestamp) (sendRtpPacket payload marker timestamp) := by
  intro s s' h
  have hpacket : rtpPacket s' payload marker timestamp =
      relabel ssrc offset (rtpPacket s payload marker timestamp) := by
    simp only [rtpPacket, rtpHeader, relabel, h.ssrc_eq, h.seq]
  have hseq : s'.rtpSeq + 1 = s.rtpSeq + 1 + offset := by
    calc s'.rtpSeq + 1 = s.rtpSeq + (offset + 1) := by rw [h.seq, UInt16.add_assoc]
      _ = s.rtpSeq + (1 + offset) := by rw [UInt16.add_comm offset]
      _ = s.rtpSeq + 1 + offset := (UInt16.add_assoc _ _ _).symm
  refine ⟨⟨h.sock, h.sock', h.ssrc_eq, hseq, ?_, ?_, h.lastRtcp, h.base⟩, ?_⟩
  · exact congrArg (· + 1) h.packets
  · exact congrArg (· + UInt32.ofNat payload.length) h.octets
  · rw [sendRtpPacket_snd, sendRtpPacket_snd, h.sock, h.sock', hpacket]
    exact .cons ⟨_, rtpPacket_wellFormed s marker timestamp hpayload, rfl, rfl⟩ .nil

theorem simulates_sendReport (timestamp : UInt32) (input : FrameInput) :
    Simulates (Related fd fd' ssrc offset) (SameCall fd fd' ssrc offset)
      (sendReport timestamp input) (sendReport timestamp input) := by
  intro s s' h
  have hreport : Packet.sr (senderReport s' timestamp input.now) =
      relabel ssrc offset (.sr (senderReport s timestamp input.now)) := by
    simp only [senderReport, relabel, h.ssrc_eq, h.packets, h.octets]
  refine ⟨⟨h.sock, h.sock', h.ssrc_eq, h.seq, h.packets, h.octets, rfl, h.base⟩, ?_⟩
  rw [sendReport_snd, sendReport_snd, h.sock, h.sock', hreport]
  exact .cons ⟨_, senderReport_wellFormed s timestamp input.now, rfl, rfl⟩ .nil

variable (toTimestamp : ℤ → UInt32)

theorem simulates_sendFrame (input : FrameInput) :
    Simulates (Related fd fd' ssrc offset) (SameCall fd fd' ssrc offset)
      (sendFrame toTimestamp input) (sendFrame toTimestamp input) := by
  intro s s' h
  obtain ⟨hlatched, hbase⟩ := h.latch input.pts
  have htimestamp : frameTimestamp toTimestamp input s' = frameTimestamp toTimestamp input s := by
    rw [frameTimestamp, frameTimestamp, hbase]
  have hpackets : Simulates (Related fd fd' ssrc offset) (SameCall fd fd' ssrc offset)
      (sendRtpPackets (framePackets input.data) (frameTimestamp toTimestamp input s))
      (sendRtpPackets (framePackets input.data) (frameTimestamp toTimestamp input s)) := by
    apply simulates_forEach
    intro packet hmem
    exact simulates_sendRtpPacket _ _ _ (length_le_of_mem_framePackets hmem)
  rw [sendFrame_eq, sendFrame_eq, htimestamp, h.lastRtcp]
  split
  · exact hpackets.andThen (simulates_sendReport _ input) _ _ hlatched
  · exact hpackets.andThen simulates_skip _ _ hlatched

theorem simulates_sendFrames (inputs : List FrameInput) :
    Simulates (Related fd fd' ssrc offset) (SameCall fd fd' ssrc offset)
      (sendFrames toTimestamp inputs) (sendFrames toTimestamp inputs) :=
  simulates_forEach fun input _ ↦ simulates_sendFrame toTimestamp input

/-- Without a trace of its earlier life a session restarts as a new one. -/
theorem NoTrace.restartsFresh {s : Session} (h : NoTrace s) : RestartsFresh toTimestamp s := by
  intro ip port streamId outcome outcome' rtpPort rtpSsrc inputs hstarted hstarted'
  obtain ⟨fd, hfd⟩ := (start_eq_true_iff ..).mp hstarted
  obtain ⟨fd', hfd'⟩ := (start_eq_true_iff ..).mp hstarted'
  have hnew : (Session.construct rtpPort rtpSsrc).basePts < 0 := Int.negSucc_lt_zero 0
  have hrelated : Related fd' fd outcome.ssrc s.rtpSeq
      ((Session.construct rtpPort rtpSsrc).started ip port streamId outcome'.ssrc outcome'.sock)
      (s.started ip port streamId outcome.ssrc outcome.sock) :=
    ⟨hfd', hfd, rfl, (UInt16.zero_add _).symm, h.packets, h.octets, h.lastRtcp,
      .inr ⟨h.base, hnew⟩⟩
  rw [start_session, start_session]
  exact sameUpToSource_of_forall₂ (simulates_sendFrames toTimestamp inputs _ _ hrelated).2

/-! ## Traces that show -/

/-- A frame that holds no NAL unit is a probe for the reports. -/
theorem sentPackets_sendFrame_nil (pts : ℤ) (now : Timeval) (s : Session) :
    sentPackets (sendFrame toTimestamp ⟨[], pts, now⟩ s).2 =
      if pts - s.lastRtcpPts ≥ 1000000 then
        [.sr (senderReport (latchBase pts s) (frameTimestamp toTimestamp ⟨[], pts, now⟩ s) now)]
      else [] := by
  have hnone : framePackets [] = [] := by decide +kernel
  rw [sendFrame_eq, hnone, sendRtpPackets, forEach_nil, skip_andThen]
  split
  · rw [sendReport_snd, sentPackets_send _ _ (senderReport_wellFormed _ _ _)]
  · rfl

theorem sentPackets_sendFrame_nil_eq_nil (pts : ℤ) (now : Timeval) (s : Session) :
    sentPackets (sendFrame toTimestamp ⟨[], pts, now⟩ s).2 = [] ↔
      pts - s.lastRtcpPts < 1000000 := by
  rw [sentPackets_sendFrame_nil]
  split
  · simpa using ‹pts - s.lastRtcpPts ≥ 1000000›
  · simpa using ‹¬ pts - s.lastRtcpPts ≥ 1000000›

/-- A frame with a NAL unit is a probe for the time base. -/
theorem sentPackets_sendFrame_ne_nil (pts : ℤ) (now : Timeval) (s : Session) :
    sentPackets (sendFrame toTimestamp ⟨[0, 0, 0, 1, 0x65], pts, now⟩ s).2 ≠ [] := by
  have hone : framePackets [0, 0, 0, 1, 0x65] = [([0x65], true)] := by decide +kernel
  rw [sendFrame_eq, hone, sendRtpPackets, forEach_singleton, andThen_snd, sentPackets_append,
    sendRtpPacket_snd, sentPackets_send _ _ (rtpPacket_wellFormed _ _ _ (by decide))]
  exact List.cons_ne_nil _ _

variable {toTimestamp}

/-- What one frame shows of a session that restarts as a new one. -/
theorem RestartsFresh.probe {s : Session} (h : RestartsFresh toTimestamp s)
    (input : FrameInput) :
    ∃ ssrc offset,
      sentPackets (sendFrame toTimestamp input (s.started "" 0 "" 1 (some 0))).2 =
        (sentPackets (sendFrame toTimestamp input
          ((Session.construct 0 0).started "" 0 "" 1 (some 0))).2).map (relabel ssrc offset) := by
  have hsame := h "" 0 "" ⟨1, by decide, some 0, true⟩ ⟨1, by decide, some 0, true⟩ 0 0 [input]
    rfl rfl
  have hsends (state : Session) (hsock : state.tcpSock = some 0) :
      SendsOn 0 (sendFrame toTimestamp input state).2 := by
    have hrun := sendsOn_sendFrames toTimestamp hsock [input]
    rwa [sendFrames, forEach_singleton] at hrun
  rw [start_session, start_session, sendFrames, forEach_singleton] at hsame
  exact hsame.sentPackets (hsends _ rfl) (hsends _ rfl)

theorem RestartsFresh.basePts_neg {s : Session} (h : RestartsFresh toTimestamp s)
    (hconv : ∃ delta, toTimestamp delta ≠ toTimestamp 0) : s.basePts < 0 := by
  obtain ⟨delta, hdelta⟩ := hconv
  by_contra hset
  obtain ⟨ssrc, offset, hsent⟩ :=
    h.probe ⟨[0, 0, 0, 1, 0x65], s.basePts + delta, ⟨0, 0, by decide⟩⟩
  obtain ⟨packet, hpacket⟩ := List.exists_mem_of_ne_nil _
    (sentPackets_sendFrame_ne_nil toTimestamp (s.basePts + delta) ⟨0, 0, by decide⟩
      ((Session.construct 0 0).started "" 0 "" 1 (some 0)))
  have hmem := List.mem_map_of_mem (f := relabel ssrc offset) hpacket
  rw [← hsent] at hmem
  -- the new session has this frame as its base, the restarted one has the old base
  have hnew := timestampOf_sendFrame toTimestamp _ _ packet hpacket
  have hold := timestampOf_sendFrame toTimestamp _ _ _ hmem
  rw [timestampOf_relabel, hnew] at hold
  simp only [frameTimestamp, latchBase_basePts, Session.started, Session.construct,
    if_neg hset] at hold
  norm_num at hold
  exact hdelta hold.symm

theorem RestartsFresh.lastRtcpPts_eq_zero {s : Session} (h : RestartsFresh toTimestamp s) :
    s.lastRtcpPts = 0 := by
  have hquiet (pts : ℤ) : pts - s.lastRtcpPts < 1000000 ↔ pts - 0 < 1000000 := by
    obtain ⟨ssrc, offset, hsent⟩ := h.probe ⟨[], pts, ⟨0, 0, by decide⟩⟩
    have hempty := @List.map_eq_nil_iff _ _ (relabel ssrc offset)
      (sentPackets (sendFrame toTimestamp ⟨[], pts, ⟨0, 0, by decide⟩⟩
        ((Session.construct 0 0).started "" 0 "" 1 (some 0))).2)
    rw [← hsent, sentPackets_sendFrame_nil_eq_nil, sentPackets_sendFrame_nil_eq_nil] at hempty
    exact hempty
  have hlate := hquiet 1000000
  have hearly := hquiet (s.lastRtcpPts + 1000000)
  omega

theorem RestartsFresh.counts_eq_zero {s : Session} (h : RestartsFresh toTimestamp s) :
    s.pktCount = 0 ∧ s.octetCount = 0 := by
  have hlast := h.lastRtcpPts_eq_zero
  obtain ⟨ssrc, offset, hsent⟩ := h.probe ⟨[], 1000000, ⟨0, 0, by decide⟩⟩
  rw [sentPackets_sendFrame_nil, sentPackets_sendFrame_nil,
    if_pos (by simp [Session.started, hlast]), if_pos (by decide), latchBase_eq,
    latchBase_eq] at hsent
  have hreport := Packet.sr.inj (List.cons.inj hsent).1
  exact ⟨congrArg RtcpHeader.packetCount hreport, congrArg RtcpHeader.octetCount hreport⟩

theorem restartsFresh_iff (hconv : ∃ delta, toTimestamp delta ≠ toTimestamp 0) (s : Session) :
    RestartsFresh toTimestamp s ↔ NoTrace s := by
  constructor
  · intro h
    exact ⟨h.basePts_neg hconv, h.counts_eq_zero.1, h.counts_eq_zero.2, h.lastRtcpPts_eq_zero⟩
  · intro h
    exact h.restartsFresh toTimestamp

/-- **Restarts.** Whatever calls a session has been through, it restarts as a new one exactly when
they have left no trace. -/
theorem restartsFresh_history_iff (hconv : ∃ delta, toTimestamp delta ≠ toTimestamp 0)
    (rtpPort : ℤ) (rtpSsrc : UInt32) (operations : List Operation) :
    RestartsFresh toTimestamp
        (history toTimestamp operations (Session.construct rtpPort rtpSsrc)).1 ↔
      NoTrace (history toTimestamp operations (Session.construct rtpPort rtpSsrc)).1 :=
  restartsFresh_iff hconv _

/-- An empty frame with a negative time leaves no trace. -/
theorem restartsFresh_history_stopped :
    RestartsFresh exactTimestamp
      (history exactTimestamp
        [.start "10.0.0.1" 9000 "cam" ⟨7, by decide, some 3, true⟩,
          .sendFrame ⟨[], -1, ⟨0, 0, by decide⟩⟩, .stop]
        (Session.construct 0 0)).1 :=
  (restartsFresh_history_iff ⟨1000, by decide⟩ 0 0 _).mpr
    ⟨by decide +kernel, by decide +kernel, by decide +kernel, by decide +kernel⟩

/-- One frame at time `0` before the restart and one half a second later after it: the new stream
begins at `45000` ticks instead of `0`. -/
theorem not_restartsFresh_history :
    ¬ RestartsFresh exactTimestamp
      (history exactTimestamp
        [.start "10.0.0.1" 9000 "cam" ⟨7, by decide, some 3, true⟩,
          .sendFrame ⟨[0, 0, 0, 1, 0x65], 0, ⟨0, 0, by decide⟩⟩, .stop]
        (Session.construct 0 0)).1 := by
  intro h
  have hsame := h "10.0.0.1" 9000 "cam" ⟨8, by decide, some 3, true⟩ ⟨8, by decide, some 3, true⟩
    0 0 [⟨[0, 0, 0, 1, 0x65], 500000, ⟨10, 0, by decide⟩⟩] (by decide +kernel) rfl
  obtain ⟨ssrc, offset, hsent⟩ := hsame.sentPackets
    (@sendsOn_sendFrames exactTimestamp 3 _ rfl _)
    (@sendsOn_sendFrames exactTimestamp 3 _ (by decide +kernel) _)
  have htimes := congrArg (List.map timestampOf) hsent
  simp only [List.map_map, Function.comp_def, timestampOf_relabel] at htimes
  revert htimes
  decide +kernel

end RtpSender.RtpSendingSession
