import RtpSender.Foundation.Chunks
import RtpSender.Session.RtpSendingSession

/-!
# Fragmentation of NAL units

`packetizeAndSendNalu` sends a NAL unit whole or cuts it into FU-A fragments.  The packets that it
sends depend on the bytes of the unit only; `nalPackets` computes them in advance as payloads with
their marker bits, and the loop of the source is an iteration of `sendRtpPacket` over this list.
-/

open RtpSender.Emitter RtpSender.Wire RtpSender.Chunks

namespace RtpSender.RtpSendingSession

/-- A fact about bytes follows from its 256 cases. -/
theorem forall_byte {p : UInt8 → Prop} (h : ∀ n : Fin (2 ^ 8), p (UInt8.ofFin n)) (b : UInt8) :
    p b := by
  have hb := h b.toFin
  rwa [UInt8.ofFin_toFin] at hb

/-! ## The planned packets -/

/-- The payload of one FU-A packet. -/
def fuPayload (nalHeader fuHeader : UInt8) (body : Bytes) : Bytes :=
  fuIndicator nalHeader :: fuHeader :: body

/-- The fragments after the first one; the last of them carries the end bit and the marker. -/
def laterFragments (nalHeader : UInt8) : List Bytes → List (Bytes × Bool)
  | [] => []
  | [body] => [(fuPayload nalHeader (fuHeaderEnd nalHeader) body, true)]
  | body :: rest@(_ :: _) =>
    (fuPayload nalHeader (fuHeaderMid nalHeader) body, false) :: laterFragments nalHeader rest

def fuFragments (nalHeader : UInt8) : List Bytes → List (Bytes × Bool)
  | [] => []
  | body :: rest =>
    (fuPayload nalHeader (fuHeaderStart nalHeader) body, false) :: laterFragments nalHeader rest

/-- Payloads and markers of the packets that carry one NAL unit. -/
def nalPackets (nal : Bytes) : List (Bytes × Bool) :=
  if nal.length ≤ rtpMtu then [(nal, true)]
  else fuFragments (nal.headD 0) (chunks (rtpMtu - 2) nal.tail)

/-- Send planned packets one after the other with one timestamp. -/
def sendRtpPackets (packets : List (Bytes × Bool)) (timestamp : UInt32) : Emit Session Syscall :=
  forEach (fun packet ↦ sendRtpPacket packet.1 packet.2 timestamp) packets

section Plan

variable {nal : Bytes}

theorem nalPackets_of_small (h : nal.length ≤ rtpMtu) : nalPackets nal = [(nal, true)] := if_pos h

/-- A large unit has a first fragment. -/
theorem nalPackets_of_large (h : rtpMtu < nal.length) :
    nalPackets nal =
      (fuPayload (nal.headD 0) (fuHeaderStart (nal.headD 0)) (nal.tail.take (rtpMtu - 2)), false) ::
        laterFragments (nal.headD 0) (chunks (rtpMtu - 2) (nal.tail.drop (rtpMtu - 2))) := by
  have htail : nal.tail ≠ [] := by
    apply List.ne_nil_of_length_pos
    rw [List.length_tail]
    simp only [rtpMtu] at h
    omega
  rw [nalPackets, if_neg (Nat.not_le.mpr h), chunks_of_ne_nil (by decide) htail, fuFragments]

/-- A large unit has later fragments. -/
theorem laterChunks_ne_nil (h : rtpMtu < nal.length) :
    chunks (rtpMtu - 2) (nal.tail.drop (rtpMtu - 2)) ≠ [] := by
  rw [ne_eq, chunks_eq_nil (by decide), List.drop_eq_nil_iff, List.length_tail]
  simp only [rtpMtu] at h ⊢
  omega

theorem exists_of_mem_laterFragments {nalHeader : UInt8} {bodies : List Bytes}
    {packet : Bytes × Bool} (h : packet ∈ laterFragments nalHeader bodies) :
    ∃ fuHeader, ∃ body ∈ bodies, packet.1 = fuPayload nalHeader fuHeader body := by
  fun_induction laterFragments nalHeader bodies with
  | case1 => cases h
  | case2 body =>
    rw [List.mem_singleton.mp h]
    exact ⟨_, body, List.mem_cons_self .., rfl⟩
  | case3 body next rest ih =>
    rcases List.mem_cons.mp h with rfl | htail
    · exact ⟨_, body, List.mem_cons_self .., rfl⟩
    · obtain ⟨fuHeader, later, hlater, hpayload⟩ := ih htail
      exact ⟨fuHeader, later, List.mem_cons_of_mem _ hlater, hpayload⟩

/-- A planned packet is the unit itself or one chunk behind two octets. -/
theorem exists_of_mem_nalPackets {packet : Bytes × Bool} (h : packet ∈ nalPackets nal) :
    (packet.1 = nal ∧ nal.length ≤ rtpMtu) ∨
      ∃ fuHeader body, packet.1 = fuPayload (nal.headD 0) fuHeader body ∧
        body.length ≤ rtpMtu - 2 := by
  by_cases hsmall : nal.length ≤ rtpMtu
  · rw [nalPackets_of_small hsmall, List.mem_singleton] at h
    exact .inl ⟨by rw [h], hsmall⟩
  · apply Or.inr
    rw [nalPackets_of_large (Nat.lt_of_not_le hsmall)] at h
    rcases List.mem_cons.mp h with rfl | hlater
    · exact ⟨_, _, rfl, List.length_take_le ..⟩
    · obtain ⟨fuHeader, body, hbody, hpayload⟩ := exists_of_mem_laterFragments hlater
      exact ⟨fuHeader, body, hpayload, length_le_of_mem_chunks hbody⟩

end Plan

/-! ## The end bit decides the marker -/

theorem fuHeaderStart_marker (nalHeader : UInt8) :
    (fuHeaderStart nalHeader &&& 0x40 != 0) = false := by
  revert nalHeader
  exact forall_byte (by decide +kernel)

theorem fuHeaderMid_marker (nalHeader : UInt8) :
    (fuHeaderMid nalHeader &&& 0x40 != 0) = false := by
  revert nalHeader
  exact forall_byte (by decide +kernel)

theorem fuHeaderEnd_marker (nalHeader : UInt8) :
    (fuHeaderEnd nalHeader &&& 0x40 != 0) = true := by
  revert nalHeader
  exact forall_byte (by decide +kernel)

/-! ## The loop follows the plan -/

/-- What the loop copies at `pos` is the next chunk of the unit. -/
theorem take_drop_eq_chunk (nalu : Bytes) (size pos : ℕ) :
    (nalu.drop pos).take (min (size - pos) (rtpMtu - 2)) =
      ((nalu.take size).drop pos).take (rtpMtu - 2) := by
  rw [List.drop_take, List.take_take, Nat.min_comm]

/-- One round sends one chunk and leaves the loop at the next one. -/
theorem fragmentLoop_step (nalu : Bytes) (size : ℕ) (nalHeader : UInt8) (timestamp : UInt32)
    (pos : ℕ) (hpos : pos < size) :
    fragmentLoop nalu size nalHeader timestamp pos =
      andThen
        (sendRtpPacket
          (fuPayload nalHeader
            (if pos = 1 then fuHeaderStart nalHeader
              else if size ≤ pos + (rtpMtu - 2) then fuHeaderEnd nalHeader
              else fuHeaderMid nalHeader)
            (((nalu.take size).drop pos).take (rtpMtu - 2)))
          (decide (pos ≠ 1 ∧ size ≤ pos + (rtpMtu - 2))) timestamp)
        (fragmentLoop nalu size nalHeader timestamp (pos + min (size - pos) (rtpMtu - 2))) := by
  have hlast : size - pos - min (size - pos) (rtpMtu - 2) = 0 ↔ size ≤ pos + (rtpMtu - 2) := by
    omega
  rw [fragmentLoop, if_pos hpos]
  simp only [hlast, take_drop_eq_chunk, fuPayload]
  congr 2
  by_cases hfirst : pos = 1
  · simp [hfirst, fuHeaderStart_marker]
  · by_cases hend : size ≤ pos + (rtpMtu - 2)
    · simp [hfirst, hend, fuHeaderEnd_marker]
    · simp [hfirst, hend, fuHeaderMid_marker]

theorem fragmentLoop_done (nalu : Bytes) (size : ℕ) (nalHeader : UInt8) (timestamp : UInt32)
    (pos : ℕ) (hpos : size ≤ pos) : fragmentLoop nalu size nalHeader timestamp pos = skip := by
  rw [fragmentLoop, if_neg (by omega)]

/-- What the loop has not sent yet. -/
theorem drop_take_eq_nil {nalu : Bytes} {size : ℕ} (hsize : size ≤ nalu.length) (pos : ℕ) :
    (nalu.take size).drop pos = [] ↔ size ≤ pos := by
  rw [List.drop_eq_nil_iff, List.length_take, Nat.min_eq_left hsize]

/-- After the first fragment the loop sends the later fragments of what is left. -/
theorem fragmentLoop_later (nalu : Bytes) (size : ℕ) (nalHeader : UInt8) (timestamp : UInt32)
    (hsize : size ≤ nalu.length) (pos : ℕ) (hpos : 1 < pos) :
    fragmentLoop nalu size nalHeader timestamp pos =
      sendRtpPackets
        (laterFragments nalHeader (chunks (rtpMtu - 2) ((nalu.take size).drop pos))) timestamp := by
  have hchunk : 0 < rtpMtu - 2 := by decide
  induction hleft : size - pos using Nat.strongRecOn generalizing pos with
  | ind left ih =>
    by_cases hdone : size ≤ pos
    · rw [fragmentLoop_done nalu size nalHeader timestamp pos hdone,
        (drop_take_eq_nil hsize pos).mpr hdone, chunks_nil]
      simp [laterFragments, sendRtpPackets]
    · have hne : (nalu.take size).drop pos ≠ [] := mt (drop_take_eq_nil hsize pos).mp hdone
      have hfirst : pos ≠ 1 := by omega
      rw [fragmentLoop_step nalu size nalHeader timestamp pos (by omega),
        chunks_of_ne_nil hchunk hne, List.drop_drop]
      by_cases hend : size ≤ pos + (rtpMtu - 2)
      · rw [fragmentLoop_done nalu size nalHeader timestamp _ (by omega),
          (drop_take_eq_nil hsize _).mpr hend, chunks_nil]
        simp [hfirst, hend, laterFragments, sendRtpPackets]
      · have hmin : min (size - pos) (rtpMtu - 2) = rtpMtu - 2 := by omega
        rw [hmin, ih (size - (pos + (rtpMtu - 2))) (by omega) _ (by omega) rfl]
        -- the rest is not empty, so this fragment is a middle one
        have hrest : (nalu.take size).drop (pos + (rtpMtu - 2)) ≠ [] :=
          mt (drop_take_eq_nil hsize _).mp hend
        rw [chunks_of_ne_nil hchunk hrest]
        simp [hfirst, hend, laterFragments, sendRtpPackets, forEach_cons]

/-- `packetizeAndSendNalu` sends exactly the planned packets of the unit it is given. -/
theorem packetizeAndSendNalu_eq (nalu : Bytes) (size : ℕ) (timestamp : UInt32)
    (hsize : size ≤ nalu.length) :
    packetizeAndSendNalu nalu size timestamp =
      sendRtpPackets (nalPackets (nalu.take size)) timestamp := by
  have hlength : (nalu.take size).length = size := by
    rw [List.length_take, Nat.min_eq_left hsize]
  by_cases hsmall : size ≤ rtpMtu
  · simp [packetizeAndSendNalu, nalPackets, sendRtpPackets, hlength, hsmall]
  · have hlarge : 1400 < size := Nat.lt_of_not_le hsmall
    have hhead : (nalu.take size).headD 0 = nalu.headD 0 := by
      cases nalu with
      | nil => simp
      | cons b rest => cases size with
        | zero => omega
        | succ size => rfl
    have hmin : min (size - 1) (rtpMtu - 2) = rtpMtu - 2 := by simp only [rtpMtu]; omega
    have hmany : ¬ size ≤ 1 + (rtpMtu - 2) := by simp only [rtpMtu]; omega
    rw [packetizeAndSendNalu, if_neg hsmall, fragmentLoop_step nalu size _ timestamp 1 (by omega),
      hmin, fragmentLoop_later nalu size _ timestamp hsize _ (by decide)]
    rw [nalPackets_of_large (hlength.symm ▸ hlarge), hhead, ← List.drop_one, List.drop_drop]
    simp [sendRtpPackets, forEach_cons]

end RtpSender.RtpSendingSession
