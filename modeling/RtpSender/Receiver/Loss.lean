import RtpSender.Foundation.RecordReader
import RtpSender.Receiver.Gaps

/-!
# Receiving what the transport took

The receiver reads the connection in chunks as they arrive.  It keeps the bytes that make no whole
frame yet, and the fragments that make no whole unit yet.  Whatever the transport refused, and
wherever the session stopped, it gets the units all of whose packets were taken.
-/

open RtpSender.Emitter RtpSender.Wire RtpSender.RecordStream RtpSender.History
open RtpSender.RtpSendingSession

namespace RtpSender.Receiver

/-! ## Receiving as the bytes arrive -/

/-- The RTP packets in some frames. -/
def rtpParts? (frame : InterleavedFrame) : Option (RtpHeader × Bytes) :=
  if frame.channel = 0 then RtpHeader.read frame.body else none

/-- Take up some bytes of the connection.  The state is what the receiver keeps: bytes that make no
whole frame yet, and fragments that make no whole unit yet. -/
def receiveChunk (chunk : Bytes) : Emit (Bytes × Pending) Bytes := fun state ↦
  let (unread, frames) := readChunk InterleavedFrame.code chunk state.1
  let (pending, nals) := forEach depacketize (frames.filterMap rtpParts?) state.2
  ((unread, pending), nals)

theorem forEach_receiveChunk (chunks : List Bytes) (unread : Bytes) (pending : Pending) :
    (forEach receiveChunk chunks (unread, pending)).2 =
      (forEach depacketize ((readChunks InterleavedFrame.code chunks unread).2.filterMap rtpParts?)
        pending).2 := by
  induction chunks generalizing unread pending with
  | nil => rfl
  | cons chunk chunks ih =>
    have hread : readChunks InterleavedFrame.code (chunk :: chunks) =
        andThen (readChunk InterleavedFrame.code chunk)
          (readChunks InterleavedFrame.code chunks) := rfl
    rw [forEach_cons, andThen_snd, receiveChunk, ih, hread, andThen_snd, List.filterMap_append,
      forEach_append, andThen_snd]

theorem filterMap_pmap_frame (packets : List Packet) (h : ∀ packet ∈ packets, packet.WellFormed) :
    (packets.pmap Packet.frame h).filterMap rtpParts? = packets.filterMap rtpParts := by
  induction packets with
  | nil => rfl
  | cons packet packets ih =>
    rw [List.pmap_cons]
    cases packet with
    | rtp header payload =>
      simp [rtpParts?, Packet.frame, Packet.channel, Packet.body, rtpParts, ih]
    | sr report =>
      simp [rtpParts?, Packet.frame, Packet.channel, rtpParts, List.filterMap_cons, ih]

/-- The packets that were taken whole. -/
def takenPackets (log : List Exchange) : List Packet :=
  (log.filter Exchange.takenWhole).filterMap fun exchange ↦ exchange.call.packet?

theorem forEach_takenPackets (log : List Exchange) :
    forEach depacketize ((takenPackets log).filterMap rtpParts) =
      forEach listen (observed log) := by
  induction log with
  | nil => rfl
  | cons exchange log ih =>
    have htaken : takenPackets (exchange :: log) =
        (if exchange.takenWhole then exchange.call.packet?.toList else []) ++ takenPackets log := by
      cases hwhole : exchange.takenWhole <;>
        cases hpacket : exchange.call.packet? <;> simp [takenPackets, hwhole, hpacket]
    have hobserved : observed (exchange :: log) = (heard exchange).toList ++ observed log := by
      cases hheard : heard exchange <;> simp [observed, hheard]
    rw [htaken, hobserved, List.filterMap_append, forEach_append, forEach_append, ih]
    congr 1
    unfold heard
    match exchange.call.packet?, exchange.takenWhole with
    | none, true => rfl
    | none, false => rfl
    | some (.sr report), true => rfl
    | some (.sr report), false => rfl
    | some (.rtp header payload), true => rfl
    | some (.rtp header payload), false => rfl

theorem takenBuffers_eq {fd : ℕ} {log : List Exchange}
    (h : SendsOn fd (log.map Exchange.call)) :
    takenBuffers log = (takenPackets log).flatMap Packet.buffer ∧
      ∀ packet ∈ takenPackets log, packet.WellFormed := by
  induction log with
  | nil => exact ⟨rfl, fun packet hmem ↦ absurd hmem List.not_mem_nil⟩
  | cons exchange log ih =>
    obtain ⟨packet, hwell, hcall⟩ := h _ (List.mem_cons_self ..)
    obtain ⟨hbuffers, hpackets⟩ := ih fun call hmem ↦ h call (List.mem_cons_of_mem _ hmem)
    have hpacket : exchange.call.packet? = some packet := by rw [hcall, packet?_send _ _ hwell]
    cases hwhole : exchange.takenWhole with
    | false =>
      have hskip : takenPackets (exchange :: log) = takenPackets log := by
        simp [takenPackets, hwhole]
      rw [hskip, takenBuffers, List.filter_cons_of_neg (by simp [hwhole])]
      exact ⟨hbuffers, hpackets⟩
    | true =>
      have hcons : takenPackets (exchange :: log) = packet :: takenPackets log := by
        simp [takenPackets, hwhole, hpacket]
      have haccepted : exchange.accepted = packet.buffer := by
        rcases exchange.accepted_cases hcall with ⟨-, h⟩ | ⟨hnot, -⟩ | ⟨hnot, -⟩
        · exact h
        · exact absurd (hnot.symm.trans hwhole) Bool.false_ne_true
        · exact absurd (hnot.symm.trans hwhole) Bool.false_ne_true
      rw [hcons, takenBuffers, List.filter_cons_of_pos hwhole, List.flatMap_cons, haccepted,
        List.flatMap_cons, ← hbuffers]
      refine ⟨rfl, fun packet' hmem ↦ ?_⟩
      rcases List.mem_cons.mp hmem with rfl | hrest
      · exact hwell
      · exact hpackets packet' hrest

section Reading

variable {fd : ℕ} {program : Emit Session Syscall} {nals : List NalUnit} {s : Session}
  {log : List Exchange} {chunks : List Bytes}

theorem receiveChunks_of_resilient (hprogram : Resilient program nals)
    (hsends : SendsOn fd (program s).2) (hlog : log.map Exchange.call = (program s).2)
    (hsilent : SilentAfterCut log) (hgaps : ShortGaps 0 (taken log))
    (hchunks : chunks.flatten = carried log) :
    (forEach receiveChunk chunks ([], none)).2 = arrived nals (taken log) := by
  rw [← hlog] at hsends
  have hpackets : ∀ exchange ∈ log, ∃ fd packet, Packet.WellFormed packet ∧
      exchange.call = .send fd packet.buffer := by
    intro exchange hmem
    obtain ⟨packet, hwell, hcall⟩ := hsends exchange.call (List.mem_map_of_mem hmem)
    exact ⟨some fd, packet, hwell, hcall⟩
  obtain ⟨frames, tail, hframes, htail, hcarried, -⟩ :=
    inSync_of_silentAfterCut log hpackets hsilent
  obtain ⟨hbuffers, hwell⟩ := takenBuffers_eq hsends
  have hread : (readChunks InterleavedFrame.code chunks []).2 =
      (takenPackets log).pmap Packet.frame hwell := by
    rw [hbuffers, ← Packet.encodeAll_pmap_frame _ hwell] at hframes hcarried
    rw [readChunks_of_eq htail (incomplete_nil _) (hchunks.trans hcarried)]
  obtain ⟨-, hheard, -⟩ := hprogram s log 0 none hlog (stale_none _ _) hgaps
  rw [forEach_receiveChunk, hread, filterMap_pmap_frame, forEach_takenPackets, hheard]

/-- The exchange of a call that the transport refuses. -/
def refused (call : Syscall) : Exchange where
  call := call
  result := none
  permitted := by cases call <;> trivial

theorem accepted_refused (call : Syscall) : (refused call).accepted = [] := by
  cases call <;> rfl

theorem takenWhole_refused (call : Syscall) : (refused call).takenWhole = false := by
  cases call <;> rfl

theorem carried_refused (log : List Exchange) (calls : List Syscall) :
    carried (log ++ calls.map refused) = carried log := by
  have hnothing : (calls.map refused).flatMap Exchange.accepted = [] := by
    rw [List.flatMap_map, List.flatMap_eq_nil_iff]
    exact fun call _ ↦ accepted_refused call
  rw [carried, List.flatMap_append, hnothing, List.append_nil]
  rfl

theorem silentAfterCut_refused (h : SilentAfterCut log) (calls : List Syscall) :
    SilentAfterCut (log ++ calls.map refused) := by
  induction calls using List.reverseRecOn with
  | nil => rwa [List.map_nil, List.append_nil]
  | append_singleton calls call ih =>
    rw [List.map_append, ← List.append_assoc]
    exact historyForall_concat.mpr ⟨ih, fun _ ↦ accepted_refused call⟩

theorem exists_taken_refused (calls : List Syscall) :
    ∃ count, taken (calls.map refused) = List.replicate count false := by
  refine ⟨_, List.eq_replicate_iff.mpr ⟨rfl, fun flag hflag ↦ ?_⟩⟩
  obtain ⟨heard', hmem, rfl⟩ := List.mem_map.mp hflag
  obtain ⟨exchange, hexchange, hheard⟩ := List.mem_filterMap.mp hmem
  obtain ⟨call, -, rfl⟩ := List.mem_map.mp hexchange
  obtain ⟨parts, -, rfl⟩ := Option.map_eq_some_iff.mp hheard
  exact takenWhole_refused call

theorem shortGaps_replicate (gap count : ℕ) : ShortGaps gap (List.replicate count false) := by
  induction count generalizing gap with
  | zero => trivial
  | succ count ih => exact ih (gap + 1)

/-- Where only the first calls are made, the other packets count as refused. -/
theorem receiveChunks_of_prefix (hprogram : Resilient program nals)
    (hsends : SendsOn fd (program s).2) (hlog : log.map Exchange.call <+: (program s).2)
    (hsilent : SilentAfterCut log) (hgaps : ShortGaps 0 (taken log))
    (hchunks : chunks.flatten = carried log) :
    (forEach receiveChunk chunks ([], none)).2 =
      arrived nals (taken log ++ List.replicate (packetCount nals) false) := by
  obtain ⟨missing, hcalls⟩ := hlog
  obtain ⟨count, hmissing⟩ := exists_taken_refused missing
  have hwhole : (log ++ missing.map refused).map Exchange.call = (program s).2 := by
    have hcall : (missing.map refused).map Exchange.call = missing := by
      rw [List.map_map]
      exact List.map_id _
    rw [List.map_append, hcall, hcalls]
  have hshort : ShortGaps 0 (taken (log ++ missing.map refused)) := by
    rw [taken_append, hmissing]
    exact shortGaps_append.mpr ⟨hgaps, shortGaps_replicate _ _⟩
  have hlength := (hprogram s _ 0 none hwhole (stale_none _ _) hshort).1
  rw [taken_append, hmissing] at hlength
  have hroom : count ≤ packetCount nals := by
    rw [← hlength, List.length_append, List.length_replicate]
    exact Nat.le_add_left _ _
  have hpadded := arrived_append hlength [] (List.replicate (packetCount nals - count) false)
  rw [List.append_nil, arrived, List.append_nil] at hpadded
  calc (forEach receiveChunk chunks ([], none)).2
      = arrived nals (taken (log ++ missing.map refused)) :=
        receiveChunks_of_resilient hprogram hsends hwhole (silentAfterCut_refused hsilent missing)
          hshort (hchunks.trans (carried_refused log missing).symm)
    _ = arrived nals (taken log ++ List.replicate count false) := by
        rw [taken_append, hmissing]
    _ = arrived nals (taken log ++ List.replicate count false ++
          List.replicate (packetCount nals - count) false) := hpadded.symm
    _ = arrived nals (taken log ++ List.replicate (packetCount nals) false) := by
        rw [List.append_assoc, List.replicate_append_replicate, Nat.add_sub_cancel' hroom]

end Reading

/-- **Loss.** However the transport treats the packets and however the bytes arrive, the receiver
gets the units all of whose packets were taken, and nothing else. -/
theorem receiveChunks_sendFrames (toTimestamp : ℤ → UInt32) (fd : ℕ) (units : List AccessUnit)
    (s : Session) (hstarted : s.tcpSock = some fd)
    (htyped : ∀ unit ∈ units, ∀ nal ∈ unit.nals, nal.Typed) (log : List Exchange)
    (hlog : log.map Exchange.call = (sendFrames toTimestamp (units.map AccessUnit.input) s).2)
    (hsilent : SilentAfterCut log) (hgaps : ShortGaps 0 (taken log)) (chunks : List Bytes)
    (hchunks : chunks.flatten = carried log) :
    (forEach receiveChunk chunks ([], none)).2 =
      arrived (units.flatMap AccessUnit.nals) (taken log) :=
  receiveChunks_of_resilient (resilient_sendFrames toTimestamp units htyped)
    (sendsOn_sendFrames toTimestamp hstarted _) hlog hsilent hgaps hchunks

/-- The first of two packets is refused, and the other one arrives in two pieces. -/
theorem receiveChunks_sendFrames_refused :
    ∃ log : List Exchange, (log.map Exchange.result = [none, some 17] ∧
      log.map Exchange.call = (sendFrames exactTimestamp
        [(⟨[⟨0x67, [], by decide⟩, ⟨0x68, [], by decide⟩], 0, ⟨0, 0, by decide⟩⟩ :
          AccessUnit).input] { Session.construct 0 7 with tcpSock := some 3 }).2) ∧
      (forEach receiveChunk [(carried log).take 5, (carried log).drop 5] ([], none)).2 =
        arrived [⟨0x67, [], by decide⟩, ⟨0x68, [], by decide⟩] (taken log) := by
  refine ⟨[⟨.send (some 3) (tcpFrame 0 [0x80, 0xE2, 0, 0, 0, 0, 0, 0, 0, 0, 0, 7, 0x67]), none,
      by decide⟩,
    ⟨.send (some 3) (tcpFrame 0 [0x80, 0xE2, 0, 1, 0, 0, 0, 0, 0, 0, 0, 7, 0x68]), some 17,
      by decide⟩], by decide +kernel, ?_⟩
  have htaken : taken [⟨.send (some 3)
      (tcpFrame 0 [0x80, 0xE2, 0, 0, 0, 0, 0, 0, 0, 0, 0, 7, 0x67]), none, by decide⟩,
      ⟨.send (some 3) (tcpFrame 0 [0x80, 0xE2, 0, 1, 0, 0, 0, 0, 0, 0, 0, 7, 0x68]), some 17,
        by decide⟩] = [false, true] := by decide +kernel
  refine receiveChunks_sendFrames exactTimestamp 3
    [⟨[⟨0x67, [], by decide⟩, ⟨0x68, [], by decide⟩], 0, ⟨0, 0, by decide⟩⟩]
    { Session.construct 0 7 with tcpSock := some 3 } rfl (by unfold NalUnit.Typed; decide) _
    (by decide +kernel) ?_ ?_ _ ?_
  · exact historyForall_concat.mpr ⟨historyForall_concat.mpr ⟨historyForall_nil, by decide⟩,
      by decide⟩
  · rw [htaken]
    exact ⟨by decide, trivial⟩
  · rw [List.flatten_cons, List.flatten_singleton, List.take_append_drop]

end RtpSender.Receiver
