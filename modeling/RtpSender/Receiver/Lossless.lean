import RtpSender.Receiver.Depacketizer
import RtpSender.Session.AccessUnit

/-!
# End-to-end losslessness

A program of the session delivers a list of NAL units when a receiver recovers exactly this list
from the RTP packets it sends, whatever the session was before and whatever fragment the receiver
had pending.  Delivery composes, so it is enough to look at the packets of one unit: a unit sent
whole is read back at once, and the fragments of a large unit carry consecutive sequence numbers,
also across the wrap at `2 ^ 16`.
-/

open RtpSender.Emitter RtpSender.Wire RtpSender.Chunks RtpSender.RtpSendingSession

namespace RtpSender.Receiver

/-! ## The header bytes of FU-A fragments -/

theorem fuIndicator_type (nalHeader : UInt8) : fuIndicator nalHeader &&& 0x1F = 28 := by
  revert nalHeader
  exact forall_byte (by decide +kernel)

/-- Indicator and FU header together hold all bits of the NAL header. -/
theorem reconstruct_nalHeader (nalHeader : UInt8) :
    (fuIndicator nalHeader &&& 0xE0) ||| (fuHeaderStart nalHeader &&& 0x1F) = nalHeader := by
  revert nalHeader
  exact forall_byte (by decide +kernel)

theorem fuHeaderStart_start (nalHeader : UInt8) :
    (fuHeaderStart nalHeader &&& 0x80 != 0) = true := by
  revert nalHeader
  exact forall_byte (by decide +kernel)

theorem fuHeaderMid_start (nalHeader : UInt8) :
    (fuHeaderMid nalHeader &&& 0x80 != 0) = false := by
  revert nalHeader
  exact forall_byte (by decide +kernel)

theorem fuHeaderEnd_start (nalHeader : UInt8) :
    (fuHeaderEnd nalHeader &&& 0x80 != 0) = false := by
  revert nalHeader
  exact forall_byte (by decide +kernel)

/-! ## Depacketizing one packet -/

theorem depacketize_single (header : RtpHeader) (nal : NalUnit) (htyped : nal.Typed)
    (pending : Pending) : depacketize (header, nal.bytes) pending = (none, [nal.bytes]) := by
  simp [depacketize, NalUnit.bytes, htyped.1, htyped.2]

theorem depacketize_fuPayload (header : RtpHeader) (nalHeader fuHeader : UInt8) (body : Bytes)
    (pending : Pending) :
    depacketize (header, fuPayload nalHeader fuHeader body) pending =
      joinFragment header.seq (fuIndicator nalHeader) fuHeader body pending := by
  have hrange : ¬ ((1 : UInt8) ≤ 28 ∧ (28 : UInt8) ≤ 23) := by decide
  simp only [depacketize, fuPayload, fuIndicator_type, if_neg hrange, if_true]

theorem joinFragment_start (seq : UInt16) (nalHeader : UInt8) (body : Bytes) (pending : Pending) :
    joinFragment seq (fuIndicator nalHeader) (fuHeaderStart nalHeader) body pending =
      (some (seq + 1, nalHeader :: body), []) := by
  simp only [joinFragment, fuHeaderStart_start, fuHeaderStart_marker, reconstruct_nalHeader,
    Bool.false_eq_true, if_false]

theorem joinFragment_mid (seq : UInt16) (nalHeader : UInt8) (body nal : Bytes) :
    joinFragment seq (fuIndicator nalHeader) (fuHeaderMid nalHeader) body (some (seq, nal)) =
      (some (seq + 1, nal ++ body), []) := by
  simp only [joinFragment, fuHeaderMid_start, fuHeaderMid_marker, Bool.false_eq_true, if_false,
    if_true]

theorem joinFragment_end (seq : UInt16) (nalHeader : UInt8) (body nal : Bytes) :
    joinFragment seq (fuIndicator nalHeader) (fuHeaderEnd nalHeader) body (some (seq, nal)) =
      (none, [nal ++ body]) := by
  simp only [joinFragment, fuHeaderEnd_start, fuHeaderEnd_marker, if_true]

/-! ## The packets of one NAL unit -/

/-- What the receiver does with the first of several planned packets. -/
theorem depacketize_sendRtpPackets_cons (payload : Bytes) (marker : Bool)
    (packets : List (Bytes × Bool)) (timestamp : UInt32) (s : Session)
    (hpayload : payload.length ≤ rtpMtu) :
    forEach depacketize
        (rtpPackets (sendRtpPackets ((payload, marker) :: packets) timestamp s).2) =
      andThen (depacketize (rtpHeader s marker timestamp, payload))
        (forEach depacketize (rtpPackets
          (sendRtpPackets packets timestamp (sendRtpPacket payload marker timestamp s).1).2)) := by
  rw [sendRtpPackets, forEach_cons, andThen_snd, rtpPackets_append,
    rtpPackets_sendRtpPacket payload marker timestamp s hpayload, List.singleton_append,
    forEach_cons]
  rfl

/-- The later fragments complete the pending unit when they continue its sequence numbers. -/
theorem depacketize_laterFragments (nalHeader : UInt8) (bodies : List Bytes) (hne : bodies ≠ [])
    (hbodies : ∀ body ∈ bodies, body.length ≤ rtpMtu - 2) (timestamp : UInt32) (s : Session)
    (nal : Bytes) :
    forEach depacketize
        (rtpPackets (sendRtpPackets (laterFragments nalHeader bodies) timestamp s).2)
        (some (s.rtpSeq, nal)) = (none, [nal ++ bodies.flatten]) := by
  have hfits (fuHeader : UInt8) {body : Bytes} (hbody : body ∈ bodies) :
      (fuPayload nalHeader fuHeader body).length ≤ rtpMtu := by
    have hlength := hbodies body hbody
    simp only [length_fuPayload, rtpMtu] at hlength ⊢
    omega
  fun_induction laterFragments nalHeader bodies generalizing s nal with
  | case1 => exact absurd rfl hne
  | case2 body =>
    rw [depacketize_sendRtpPackets_cons _ _ _ _ _ (hfits _ (List.mem_cons_self ..)),
      andThen_apply, depacketize_fuPayload]
    simp [rtpHeader, joinFragment_end, sendRtpPackets]
  | case3 body next rest ih =>
    -- the pending unit now expects the sequence number that the next packet gets
    have hrest := ih (List.cons_ne_nil _ _) (fun b hb ↦ hbodies b (List.mem_cons_of_mem _ hb))
      (sendRtpPacket (fuPayload nalHeader (fuHeaderMid nalHeader) body) false timestamp s).1
      (nal ++ body) (fun fuHeader _ hb ↦ hfits fuHeader (List.mem_cons_of_mem _ hb))
    rw [depacketize_sendRtpPackets_cons _ _ _ _ _ (hfits _ (List.mem_cons_self ..)),
      andThen_apply, depacketize_fuPayload]
    have hjoin : joinFragment (rtpHeader s false timestamp).seq (fuIndicator nalHeader)
        (fuHeaderMid nalHeader) body (some (s.rtpSeq, nal)) =
          (some (s.rtpSeq + 1, nal ++ body), []) :=
      joinFragment_mid s.rtpSeq nalHeader body nal
    have hseq : (sendRtpPacket (fuPayload nalHeader (fuHeaderMid nalHeader) body) false timestamp
        s).1.rtpSeq = s.rtpSeq + 1 := rfl
    rw [hseq] at hrest
    simp only [hjoin, hrest, List.nil_append, List.flatten_cons, List.append_assoc]

/-- The fragments of a large unit are joined again, whatever was pending before. -/
theorem depacketize_nalPackets_of_large (nal : NalUnit) (hlarge : rtpMtu < nal.bytes.length)
    (timestamp : UInt32) (s : Session) (pending : Pending) :
    forEach depacketize
        (rtpPackets (sendRtpPackets (nalPackets nal.bytes) timestamp s).2) pending =
      (none, [nal.bytes]) := by
  have hfirst : (fuPayload nal.nalHeader (fuHeaderStart nal.nalHeader)
      (nal.rest.take (rtpMtu - 2))).length ≤ rtpMtu := by
    have htake := List.length_take_le (rtpMtu - 2) nal.rest
    simp only [length_fuPayload, rtpMtu] at htake ⊢
    omega
  have htail := depacketize_laterFragments nal.nalHeader
    (chunks (rtpMtu - 2) (nal.rest.drop (rtpMtu - 2))) (laterChunks_ne_nil hlarge)
    (fun _ hbody ↦ length_le_of_mem_chunks hbody) timestamp
    (sendRtpPacket (fuPayload nal.nalHeader (fuHeaderStart nal.nalHeader)
      (nal.rest.take (rtpMtu - 2))) false timestamp s).1
    (nal.nalHeader :: nal.rest.take (rtpMtu - 2))
  have hhead : joinFragment (rtpHeader s false timestamp).seq (fuIndicator nal.nalHeader)
      (fuHeaderStart nal.nalHeader) (nal.rest.take (rtpMtu - 2)) pending =
        (some (s.rtpSeq + 1, nal.nalHeader :: nal.rest.take (rtpMtu - 2)), []) :=
    joinFragment_start s.rtpSeq nal.nalHeader _ pending
  have hseq : (sendRtpPacket (fuPayload nal.nalHeader (fuHeaderStart nal.nalHeader)
      (nal.rest.take (rtpMtu - 2))) false timestamp s).1.rtpSeq = s.rtpSeq + 1 := rfl
  have hplan : nalPackets nal.bytes =
      (fuPayload nal.nalHeader (fuHeaderStart nal.nalHeader) (nal.rest.take (rtpMtu - 2)),
        false) ::
      laterFragments nal.nalHeader (chunks (rtpMtu - 2) (nal.rest.drop (rtpMtu - 2))) :=
    nalPackets_of_large hlarge
  rw [hplan, depacketize_sendRtpPackets_cons _ _ _ _ _ hfirst, andThen_apply,
    depacketize_fuPayload, hhead]
  rw [hseq] at htail
  simp only [htail, flatten_chunks (by decide : 0 < rtpMtu - 2), List.nil_append,
    List.cons_append, List.take_append_drop, NalUnit.bytes]

/-- However a unit is packetized, the receiver gets it back whole and has nothing pending. -/
theorem depacketize_nalPackets (nal : NalUnit) (htyped : nal.Typed) (timestamp : UInt32)
    (s : Session) (pending : Pending) :
    forEach depacketize
        (rtpPackets (sendRtpPackets (nalPackets nal.bytes) timestamp s).2) pending =
      (none, [nal.bytes]) := by
  by_cases hsmall : nal.bytes.length ≤ rtpMtu
  · rw [nalPackets_of_small hsmall, depacketize_sendRtpPackets_cons _ _ _ _ _ hsmall,
      andThen_apply, depacketize_single _ _ htyped]
    simp [sendRtpPackets]
  · exact depacketize_nalPackets_of_large nal (Nat.lt_of_not_le hsmall) timestamp s pending

/-! ## Delivery -/

/-- From the packets of `program` a receiver recovers exactly `nals`. -/
def Delivers (program : Emit Session Syscall) (nals : List Bytes) : Prop :=
  ∀ s pending, (forEach depacketize (rtpPackets (program s).2) pending).2 = nals

theorem delivers_skip : Delivers skip [] := fun _ _ ↦ rfl

theorem Delivers.andThen {first second : Emit Session Syscall} {nals nals' : List Bytes}
    (hfirst : Delivers first nals) (hsecond : Delivers second nals') :
    Delivers (andThen first second) (nals ++ nals') := by
  intro s pending
  rw [andThen_snd, rtpPackets_append, forEach_append, andThen_snd, hfirst s pending,
    hsecond _ _]

theorem delivers_forEach {α : Type*} {body : α → Emit Session Syscall} {nals : α → List Bytes}
    {as : List α} (hbody : ∀ a ∈ as, Delivers (body a) (nals a)) :
    Delivers (forEach body as) (as.flatMap nals) := by
  induction as with
  | nil => exact delivers_skip
  | cons a as ih =>
    have hhead := hbody a (List.mem_cons_self ..)
    have htail := ih fun b hb ↦ hbody b (List.mem_cons_of_mem _ hb)
    rw [List.flatMap_cons, forEach_cons]
    exact hhead.andThen htail

theorem delivers_sendReport (timestamp : UInt32) (input : FrameInput) :
    Delivers (sendReport timestamp input) [] := by
  intro s pending
  rw [rtpPackets_sendReport]
  rfl

/-- A unit by itself, sent whole or in fragments. -/
theorem delivers_nalPackets (nal : NalUnit) (htyped : nal.Typed) (timestamp : UInt32) :
    Delivers (sendRtpPackets (nalPackets nal.bytes) timestamp) [nal.bytes] := by
  intro s pending
  rw [depacketize_nalPackets nal htyped timestamp s pending]

/-- The packets of a frame are sent one unit after the other. -/
theorem sendRtpPackets_frameBytes (nals : List NalUnit) (timestamp : UInt32) :
    sendRtpPackets (framePackets (frameBytes nals)) timestamp =
      forEach (fun nal ↦ sendRtpPackets (nalPackets nal.bytes) timestamp) nals := by
  rw [framePackets, nalus_frameBytes, List.flatMap_map, sendRtpPackets, forEach_flatMap]
  rfl

/-- The planned packets of a frame deliver its units. -/
theorem delivers_framePackets (nals : List NalUnit) (htyped : ∀ nal ∈ nals, nal.Typed)
    (timestamp : UInt32) :
    Delivers (sendRtpPackets (framePackets (frameBytes nals)) timestamp)
      (nals.map NalUnit.bytes) := by
  have hunits : Delivers (forEach (fun nal : NalUnit ↦
      sendRtpPackets (nalPackets nal.bytes) timestamp) nals) (nals.flatMap fun nal ↦ [nal.bytes]) :=
    delivers_forEach fun nal hnal ↦ delivers_nalPackets nal (htyped nal hnal) timestamp
  rw [sendRtpPackets_frameBytes, List.map_eq_flatMap]
  exact hunits

/-! ## Runs -/

variable (toTimestamp : ℤ → UInt32)

theorem delivers_sendFrame (unit : AccessUnit) (htyped : ∀ nal ∈ unit.nals, nal.Typed) :
    Delivers (sendFrame toTimestamp unit.input) (unit.nals.map NalUnit.bytes) := by
  intro s pending
  rw [sendFrame_eq]
  have hpackets := delivers_framePackets unit.nals htyped (frameTimestamp toTimestamp unit.input s)
  have htail : Delivers (if unit.input.pts - s.lastRtcpPts ≥ 1000000 then
      sendReport (frameTimestamp toTimestamp unit.input s) unit.input else skip) [] := by
    split
    · exact delivers_sendReport _ _
    · exact delivers_skip
  have hboth := hpackets.andThen htail
  rw [List.append_nil] at hboth
  exact hboth _ pending

/-- **Losslessness.** On an open connection whose transport takes every byte, a receiver recovers
the units of all frames in order, from any state of the session on. -/
theorem receive_wire_sendFrames (fd : ℕ) (units : List AccessUnit) (s : Session)
    (hstarted : s.tcpSock = some fd) (htyped : ∀ unit ∈ units, ∀ nal ∈ unit.nals, nal.Typed) :
    receive (wire (sendFrames toTimestamp (units.map AccessUnit.input) s).2) =
      some (units.flatMap fun unit ↦ unit.nals.map NalUnit.bytes) := by
  have hsends := sendsOn_sendFrames toTimestamp hstarted (units.map AccessUnit.input)
  have hdelivers : Delivers (sendFrames toTimestamp (units.map AccessUnit.input))
      (units.flatMap fun unit ↦ unit.nals.map NalUnit.bytes) := by
    rw [sendFrames, forEach_map]
    exact delivers_forEach fun unit hunit ↦ delivers_sendFrame toTimestamp unit (htyped unit hunit)
  rw [receive_wire hsends, hdelivers s none]

/-- Two units in a frame, with the sequence number about to wrap. -/
theorem receive_wire_sendFrames_wrap :
    receive (wire (sendFrames (fun _ ↦ 0)
        [(⟨[⟨0x67, [0x42], by decide⟩, ⟨0x65, [0x00, 0x00], by decide⟩], 0, ⟨0, 0, by decide⟩⟩ :
          AccessUnit).input]
        { Session.construct 0 1 with tcpSock := some 3, rtpSeq := 0xFFFF }).2) =
      some [[0x67, 0x42], [0x65, 0x00, 0x00]] :=
  receive_wire_sendFrames _ 3
    [⟨[⟨0x67, [0x42], by decide⟩, ⟨0x65, [0x00, 0x00], by decide⟩], 0, ⟨0, 0, by decide⟩⟩] _ rfl
    (by unfold NalUnit.Typed; decide)

end RtpSender.Receiver
