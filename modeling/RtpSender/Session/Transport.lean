import RtpSender.Foundation.History
import RtpSender.Session.Emission
import RtpSender.Session.TimeBase

/-!
# The transport

A stream socket may take a whole buffer, a part of it or nothing, and the session looks at none of
these results.  A log attaches to every system call of a run the result of its `send`.  After a
buffer was cut short the session goes on with the next packet, so the stream stays in step with the
frames only as long as the transport takes nothing more.
-/

open RtpSender.Emitter RtpSender.Wire RtpSender.RecordStream RtpSender.History

namespace RtpSender.RtpSendingSession

/-! ## Results of `send` -/

/-- `none` is the result `-1`, and of all calls that are not `send`; descriptor `-1` gives `-1`. -/
def Syscall.Permits : Syscall → Option ℕ → Prop
  | _, none => True
  | .send (some _) buffer, some taken => taken ≤ buffer.length
  | _, some _ => False

instance : (call : Syscall) → (result : Option ℕ) → Decidable (call.Permits result)
  | .send (some _) buffer, some taken => inferInstanceAs (Decidable (taken ≤ buffer.length))
  | .send none _, some _ | .socket _, some _ | .connect .., some _ | .close _, some _ =>
    .isFalse id
  | .send .., none | .socket _, none | .connect .., none | .close _, none => .isTrue trivial

/-- A system call with a result that the kernel may give to it. -/
structure Exchange where
  call : Syscall
  result : Option ℕ
  permitted : call.Permits result

namespace Exchange

/-- The bytes that the transport took. -/
def accepted (exchange : Exchange) : Bytes :=
  match exchange.call, exchange.result with
  | .send _ buffer, some taken => buffer.take taken
  | _, _ => []

def takenWhole (exchange : Exchange) : Bool :=
  match exchange.call, exchange.result with
  | .send _ buffer, some taken => taken == buffer.length
  | _, _ => false

def cutShort (exchange : Exchange) : Bool :=
  match exchange.call, exchange.result with
  | .send _ buffer, some taken => 0 < taken && taken < buffer.length
  | _, _ => false

/-- A buffer is taken whole, is cut short, or leaves no trace. -/
theorem accepted_cases (exchange : Exchange) {fd : Option ℕ} {buffer : Bytes}
    (hcall : exchange.call = .send fd buffer) :
    (exchange.takenWhole = true ∧ exchange.accepted = buffer) ∨
      (exchange.takenWhole = false ∧ exchange.cutShort = true ∧
        ∃ taken < buffer.length, exchange.accepted = buffer.take taken) ∨
      (exchange.takenWhole = false ∧ exchange.accepted = []) := by
  obtain ⟨call, result, hpermitted⟩ := exchange
  subst hcall
  match fd, result, hpermitted with
  | _, none, _ => exact .inr (.inr ⟨rfl, rfl⟩)
  | some fd, some taken, htaken =>
    have hle : taken ≤ buffer.length := htaken
    rcases Nat.eq_or_lt_of_le hle with hwhole | hpart
    · left
      simp [takenWhole, accepted, hwhole]
    · rcases Nat.eq_zero_or_pos taken with rfl | hpos
      · exact .inr (.inr ⟨by simpa [takenWhole] using hpart.ne, rfl⟩)
      · exact .inr (.inl ⟨by simpa [takenWhole] using hpart.ne, by simp [cutShort, hpos, hpart],
          taken, hpart, rfl⟩)

end Exchange

/-- The byte stream that a log puts on the connection. -/
def carried (log : List Exchange) : Bytes := log.flatMap Exchange.accepted

/-- The buffers that were taken whole. -/
def takenBuffers (log : List Exchange) : Bytes :=
  (log.filter Exchange.takenWhole).flatMap Exchange.accepted

/-- The log with one more call ends in this call. -/
theorem map_call_eq_concat {calls : List Syscall} {call : Syscall} {log : List Exchange}
    (h : log.map Exchange.call = calls ++ [call]) :
    ∃ earlier last, log = earlier ++ [last] ∧ earlier.map Exchange.call = calls ∧
      last.call = call := by
  obtain ⟨earlier, lasts, rfl, hearlier, hlasts⟩ := List.map_eq_append_iff.mp h
  obtain ⟨last, rfl, hlast⟩ := List.map_eq_singleton_iff.mp hlasts
  exact ⟨earlier, last, rfl, hearlier, hlast⟩

theorem carried_concat (log : List Exchange) (exchange : Exchange) :
    carried (log ++ [exchange]) = carried log ++ exchange.accepted := by
  simp [carried]

theorem takenBuffers_concat (log : List Exchange) (exchange : Exchange) :
    takenBuffers (log ++ [exchange]) =
      takenBuffers log ++ if exchange.takenWhole then exchange.accepted else [] := by
  cases h : exchange.takenWhole <;> simp [takenBuffers, List.filter_append, h]

/-! ## Synchronisation -/

/-- The stream consists of the buffers taken whole, each of them one frame, and of at most one
buffer that was cut short, behind all of them. -/
def InSync (log : List Exchange) : Prop :=
  ∃ frames tail, takenBuffers log = encodeAll InterleavedFrame.code frames ∧
    Incomplete InterleavedFrame.code tail ∧ carried log = takenBuffers log ++ tail ∧
    (tail = [] ∨ ∃ exchange ∈ log, exchange.cutShort = true ∧ exchange.accepted = tail)

theorem InSync.synchronised {log : List Exchange} (h : InSync log) :
    Synchronised InterleavedFrame.code (carried log) := by
  obtain ⟨frames, tail, hframes, htail, hcarried, -⟩ := h
  exact ⟨frames, tail, htail, by rw [hcarried, hframes]⟩

/-- Once a buffer was cut short, the transport takes no further byte. -/
def SilentAfterCut (log : List Exchange) : Prop :=
  HistoryForall (fun before exchange ↦
    before.any Exchange.cutShort = true → exchange.accepted = []) log

theorem inSync_nil : InSync [] := ⟨[], [], rfl, incomplete_nil _, rfl, .inl rfl⟩

/-- A further packet keeps a stream in step if nothing is taken after a cut. -/
theorem InSync.concat {log : List Exchange} {exchange : Exchange} {fd : Option ℕ} {packet : Packet}
    (h : InSync log) (hwell : packet.WellFormed) (hcall : exchange.call = .send fd packet.buffer)
    (hsilent : log.any Exchange.cutShort = true → exchange.accepted = []) :
    InSync (log ++ [exchange]) := by
  obtain ⟨frames, tail, hframes, htail, hcarried, horigin⟩ := h
  unfold InSync
  rw [carried_concat, takenBuffers_concat, hcarried]
  rcases horigin with rfl | ⟨cut, hmem, hcut, haccepted⟩
  · rw [List.append_nil]
    rcases exchange.accepted_cases hcall with
      ⟨hwhole, htaken⟩ | ⟨hpart, hshort, taken, hlt, htaken⟩ | ⟨hnone, htaken⟩
    · refine ⟨frames ++ [packet.frame hwell], [], ?_, incomplete_nil _, ?_, .inl rfl⟩
      · rw [if_pos hwhole, htaken, hframes, encodeAll_append, encodeAll_cons, encodeAll_nil,
          List.append_nil, Packet.encode_frame]
      · rw [if_pos hwhole, List.append_nil]
    · refine ⟨frames, exchange.accepted, ?_, ?_, ?_, .inr ⟨exchange, by simp, hshort, rfl⟩⟩
      · rw [hpart, if_neg Bool.false_ne_true, List.append_nil, hframes]
      · refine ⟨packet.frame hwell, packet.buffer.drop taken, by simpa using hlt, ?_⟩
        rw [htaken, List.take_append_drop, Packet.encode_frame]
      · rw [hpart, if_neg Bool.false_ne_true, List.append_nil]
    · rw [htaken, ite_self, List.append_nil]
      exact ⟨frames, [], hframes, incomplete_nil _, (List.append_nil _).symm, .inl rfl⟩
  · -- nothing more is taken, so the stream stays as it is
    rw [hsilent (List.any_eq_true.mpr ⟨cut, hmem, hcut⟩), ite_self, List.append_nil,
      List.append_nil]
    exact ⟨frames, tail, hframes, htail, rfl,
      .inr ⟨cut, List.mem_append_left _ hmem, hcut, haccepted⟩⟩

theorem inSync_of_silentAfterCut (log : List Exchange)
    (hpackets : ∀ exchange ∈ log, ∃ fd packet, Packet.WellFormed packet ∧
      exchange.call = .send fd packet.buffer) (hsilent : SilentAfterCut log) : InSync log := by
  induction log using List.reverseRecOn with
  | nil => exact inSync_nil
  | append_singleton log exchange ih =>
    obtain ⟨hbefore, hnow⟩ := historyForall_concat.mp hsilent
    obtain ⟨fd, packet, hwell, hcall⟩ := hpackets exchange (by simp)
    have hlog := ih (fun earlier hmem ↦ hpackets earlier (List.mem_append_left _ hmem)) hbefore
    exact hlog.concat hwell hcall hnow

/-- **Framing.** On a connection that takes nothing after it has cut a buffer short, the stream is
at every moment in step with the frames. -/
theorem inSync_sendFrames (toTimestamp : ℤ → UInt32) (fd : ℕ) (inputs : List FrameInput)
    (s : Session) (hstarted : s.tcpSock = some fd) (log : List Exchange)
    (hlog : log.map Exchange.call = (sendFrames toTimestamp inputs s).2)
    (hsilent : SilentAfterCut log) (before : List Exchange) (hbefore : before <+: log) :
    Synchronised InterleavedFrame.code (carried before) ∧ InSync before := by
  have hsends := sendsOn_sendFrames toTimestamp hstarted inputs
  rw [← hlog] at hsends
  obtain ⟨after, rfl⟩ := hbefore
  have hpackets : ∀ exchange ∈ before, ∃ fd packet, Packet.WellFormed packet ∧
      exchange.call = .send fd packet.buffer := by
    intro exchange hmem
    obtain ⟨packet, hwell, hcall⟩ := hsends exchange.call
      (List.mem_map_of_mem (List.mem_append_left _ hmem))
    exact ⟨some fd, packet, hwell, hcall⟩
  have hsync := inSync_of_silentAfterCut before hpackets hsilent.of_append
  exact ⟨hsync.synchronised, hsync⟩

/-- The second of two packets is cut short. -/
theorem inSync_sendFrames_cut :
    ∃ log : List Exchange, (log.map Exchange.result = [some 17, some 5] ∧
      log.map Exchange.call = (sendFrames exactTimestamp
        [⟨[0, 0, 0, 1, 0x67, 0, 0, 0, 1, 0x68], 0, ⟨0, 0, by decide⟩⟩]
        (start "10.0.0.1" 9000 "cam" ⟨7, by decide, some 3, true⟩ (Session.construct 0 0)).1.1).2) ∧
      Synchronised InterleavedFrame.code (carried log) ∧ InSync log := by
  refine ⟨[⟨.send (some 3) (tcpFrame 0 [0x80, 0xE2, 0, 0, 0, 0, 0, 0, 0, 0, 0, 7, 0x67]), some 17,
      by decide⟩,
    ⟨.send (some 3) (tcpFrame 0 [0x80, 0xE2, 0, 1, 0, 0, 0, 0, 0, 0, 0, 7, 0x68]), some 5,
      by decide⟩], by decide +kernel, ?_⟩
  refine inSync_sendFrames exactTimestamp 3
    [⟨[0, 0, 0, 1, 0x67, 0, 0, 0, 1, 0x68], 0, ⟨0, 0, by decide⟩⟩]
    (start "10.0.0.1" 9000 "cam" ⟨7, by decide, some 3, true⟩ (Session.construct 0 0)).1.1 rfl
    _ (by decide +kernel) ?_ _ List.prefix_rfl
  exact historyForall_concat.mpr ⟨historyForall_concat.mpr
    ⟨historyForall_nil, by decide⟩, by decide⟩

/-- The first of two packets is cut short and the second one taken whole: the receiver reads the
second header as the payload of the first packet and then finds no frame. -/
theorem not_synchronised_sendFrames :
    ∃ log : List Exchange,
      log.map Exchange.call = (sendFrames exactTimestamp
        [⟨[0, 0, 0, 1, 0x67, 0, 0, 0, 1, 0x68], 0, ⟨0, 0, by decide⟩⟩]
        (start "10.0.0.1" 9000 "cam" ⟨7, by decide, some 3, true⟩ (Session.construct 0 0)).1.1).2 ∧
      ¬ Synchronised InterleavedFrame.code (carried log) := by
  refine ⟨[⟨.send (some 3) (tcpFrame 0 [0x80, 0xE2, 0, 0, 0, 0, 0, 0, 0, 0, 0, 7, 0x67]), some 5,
      by decide⟩,
    ⟨.send (some 3) (tcpFrame 0 [0x80, 0xE2, 0, 1, 0, 0, 0, 0, 0, 0, 0, 7, 0x68]), some 17,
      by decide⟩], by decide +kernel, fun hsync ↦ ?_⟩
  have hrest : Synchronised InterleavedFrame.code [0, 0, 0, 7, 0x68] := hsync.next _ rfl
  obtain ⟨frame, word, hword⟩ := hrest.exists_encode_eq_cons
  have hmagic : (0x24 : UInt8) = 0 := (List.cons.inj hword).1
  exact absurd hmagic (by decide)

end RtpSender.RtpSendingSession
