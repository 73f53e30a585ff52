import RtpSender.Receiver.Marker

/-!
# The fragments of a NAL unit

What `packetizeAndSendNalu` emits for a unit of any size, as a receiver sees it.  Up to the MTU this
is one packet with the unit as its payload.  A larger unit becomes the smallest number of FU-A
packets: all but the last are full, the first has the start bit, and the last has the end bit and
the marker.
-/

open RtpSender.Emitter RtpSender.Wire RtpSender.Chunks RtpSender.RtpSendingSession

namespace RtpSender.Receiver

/-! ## Fragments as RFC 6184 asks for them -/

/-- Indicator and FU header of a fragment of a unit with the given header. -/
structure FuOctets (nalHeader indicator fuHeader : UInt8) (isFirst isLast : Prop) : Prop where
  indicatorType : indicator &&& 0x1F = 28
  importance : indicator &&& 0xE0 = nalHeader &&& 0xE0
  nalType : fuHeader &&& 0x1F = nalHeader &&& 0x1F
  reserved : fuHeader &&& 0x20 = 0
  startBit : fuHeader &&& 0x80 ≠ 0 ↔ isFirst
  endBit : fuHeader &&& 0x40 ≠ 0 ↔ isLast
  apart : ¬ (fuHeader &&& 0x80 ≠ 0 ∧ fuHeader &&& 0x40 ≠ 0)

/-- The packet with the given body is the fragment at `index` of `count`. -/
structure IsFragment (nalHeader : UInt8) (count index : ℕ) (body : Bytes)
    (packet : RtpHeader × Bytes) : Prop where
  layout : ∃ indicator fuHeader, packet.2 = indicator :: fuHeader :: body ∧
    FuOctets nalHeader indicator fuHeader (index = 0) (index + 1 = count)
  low : 3 ≤ packet.2.length
  high : packet.2.length ≤ 1400
  full : index + 1 < count → body.length = 1398
  marker : packet.1.marker = true ↔ index + 1 = count

/-- The packets are the fragments of a unit, with these bodies. -/
structure IsFragmentation (nal : Bytes) (packets : List (RtpHeader × Bytes))
    (bodies : List Bytes) : Prop where
  count : packets.length = (nal.length - 1 + 1397) / 1398
  two_le : 2 ≤ packets.length
  length_bodies : bodies.length = packets.length
  flatten_bodies : bodies.flatten = nal.tail
  fragment : ∀ index packet body, packets[index]? = some packet → bodies[index]? = some body →
    IsFragment (nal.headD 0) packets.length index body packet

/-! ## The planned fragments by their index -/

/-- The FU header at `index` of `count`. -/
def fuHeaderAt (nalHeader : UInt8) (count index : ℕ) : UInt8 :=
  if index = 0 then fuHeaderStart nalHeader
  else if index + 1 = count then fuHeaderEnd nalHeader
  else fuHeaderMid nalHeader

/-- The planned packet at `index` of `count`. -/
def fragmentAt (nalHeader : UInt8) (count index : ℕ) (body : Bytes) : Bytes × Bool :=
  (fuPayload nalHeader (fuHeaderAt nalHeader count index) body, decide (index + 1 = count))

theorem laterFragments_eq_mapIdx (nalHeader : UInt8) (bodies : List Bytes) (earlier : ℕ) :
    laterFragments nalHeader bodies = bodies.mapIdx fun index body ↦
      fragmentAt nalHeader (earlier + 1 + bodies.length) (earlier + 1 + index) body := by
  fun_induction laterFragments nalHeader bodies generalizing earlier with
  | case1 => rfl
  | case2 body => simp [fragmentAt, fuHeaderAt]
  | case3 body next rest ih =>
    have hrest := ih (earlier + 1)
    rw [List.mapIdx_cons, hrest]
    congr 1
    · simp [fragmentAt, fuHeaderAt]
    · apply List.mapIdx_eq_mapIdx_iff.mpr
      intro index _
      congr 1
      · simp only [List.length_cons]
        omega
      · omega

theorem fuFragments_eq_mapIdx (nalHeader : UInt8) {bodies : List Bytes} (h : 2 ≤ bodies.length) :
    fuFragments nalHeader bodies =
      bodies.mapIdx fun index body ↦ fragmentAt nalHeader bodies.length index body := by
  obtain ⟨body, rest, rfl⟩ := List.exists_cons_of_length_pos (Nat.lt_of_lt_of_le Nat.two_pos h)
  have hrest : rest ≠ [] := by
    rintro rfl
    rw [List.length_singleton] at h
    omega
  rw [fuFragments, List.mapIdx_cons, laterFragments_eq_mapIdx nalHeader rest 0]
  congr 1
  · simp [fragmentAt, fuHeaderAt, hrest]
  · apply List.mapIdx_eq_mapIdx_iff.mpr
    intro index _
    congr 1
    · rw [List.length_cons]
      omega
    · omega

/-! ## The octets of a fragment -/

theorem fuOctets_start (nalHeader : UInt8) :
    FuOctets nalHeader (fuIndicator nalHeader) (fuHeaderStart nalHeader) True False := by
  constructor <;> revert nalHeader <;> exact forall_byte (by decide +kernel)

theorem fuOctets_mid (nalHeader : UInt8) :
    FuOctets nalHeader (fuIndicator nalHeader) (fuHeaderMid nalHeader) False False := by
  constructor <;> revert nalHeader <;> exact forall_byte (by decide +kernel)

theorem fuOctets_end (nalHeader : UInt8) :
    FuOctets nalHeader (fuIndicator nalHeader) (fuHeaderEnd nalHeader) False True := by
  constructor <;> revert nalHeader <;> exact forall_byte (by decide +kernel)

theorem fuOctets_at (nalHeader : UInt8) {count index : ℕ} (hcount : 2 ≤ count) :
    FuOctets nalHeader (fuIndicator nalHeader) (fuHeaderAt nalHeader count index) (index = 0)
      (index + 1 = count) := by
  unfold fuHeaderAt
  by_cases hfirst : index = 0
  · have hlast : index + 1 ≠ count := by omega
    rw [if_pos hfirst, eq_true hfirst, eq_false hlast]
    exact fuOctets_start nalHeader
  · rw [if_neg hfirst, eq_false hfirst]
    by_cases hlast : index + 1 = count
    · rw [if_pos hlast, eq_true hlast]
      exact fuOctets_end nalHeader
    · rw [if_neg hlast, eq_false hlast]
      exact fuOctets_mid nalHeader

/-! ## What is emitted -/

/-- Payloads and markers of the packets that `packetizeAndSendNalu` emits. -/
theorem rtpPackets_packetizeAndSendNalu (nalu : Bytes) (size : ℕ) (timestamp : UInt32)
    (s : Session) (hsize : size ≤ nalu.length) :
    (rtpPackets (packetizeAndSendNalu nalu size timestamp s).2).map
      (fun packet ↦ (packet.2, marked packet)) = nalPackets (nalu.take size) := by
  rw [packetizeAndSendNalu_eq nalu size timestamp hsize]
  apply rtpPackets_sendRtpPackets
  intro packet hpacket
  exact length_le_of_mem_nalPackets hpacket

/-- A packet with the payload and the marker planned for an index is the fragment there. -/
theorem isFragment_of_plan {nalHeader : UInt8} {count index : ℕ} {body : Bytes}
    {packet : RtpHeader × Bytes} (hcount : 2 ≤ count)
    (hplan : (packet.2, marked packet) = fragmentAt nalHeader count index body)
    (hlow : 0 < body.length) (hhigh : body.length ≤ 1398)
    (hfull : index + 1 < count → body.length = 1398) :
    IsFragment nalHeader count index body packet := by
  obtain ⟨hpayload, hmarked⟩ := Prod.mk.inj hplan
  constructor
  · exact ⟨_, _, hpayload, fuOctets_at _ hcount⟩
  · rw [hpayload, length_fuPayload]
    omega
  · rw [hpayload, length_fuPayload]
    omega
  · exact hfull
  · rw [← marked, hmarked, decide_eq_true_eq]

/-- Packets with the planned payloads and markers are a fragmentation. -/
theorem isFragmentation_of_plan {nal : Bytes} (hlarge : 1400 < nal.length)
    {packets : List (RtpHeader × Bytes)}
    (hplan : packets.map (fun packet ↦ (packet.2, marked packet)) = nalPackets nal) :
    IsFragmentation nal packets (chunks (rtpMtu - 2) nal.tail) := by
  have hchunk : 0 < rtpMtu - 2 := by decide
  have hmtu : ¬ nal.length ≤ rtpMtu := Nat.not_le.mpr hlarge
  have hcount := length_chunks hchunk nal.tail
  have hmany : 2 ≤ (chunks (rtpMtu - 2) nal.tail).length := by
    rw [hcount, List.length_tail]
    simp only [rtpMtu]
    omega
  rw [nalPackets, if_neg hmtu, fuFragments_eq_mapIdx _ hmany] at hplan
  have hlength : packets.length = (chunks (rtpMtu - 2) nal.tail).length := by
    have hboth := congrArg List.length hplan
    rwa [List.length_map, List.length_mapIdx] at hboth
  constructor
  · rw [hlength, hcount, List.length_tail]
    simp only [rtpMtu]
    omega
  · rw [hlength]
    exact hmany
  · exact hlength.symm
  · exact flatten_chunks hchunk nal.tail
  · intro index packet body hpacket hbody
    have hat : (packet.2, marked packet) = fragmentAt (nal.headD 0) packets.length index body := by
      have hentry := congrArg (fun list ↦ list[index]?) hplan
      simp only [List.getElem?_map, List.getElem?_mapIdx, hpacket, hbody, Option.map_some,
        Option.some.injEq] at hentry
      rw [hentry, hlength]
    have hmem := List.mem_of_getElem? hbody
    apply isFragment_of_plan (by omega) hat
    · exact List.length_pos_iff.mpr (ne_nil_of_mem_chunks hmem)
    · exact length_le_of_mem_chunks hmem
    · intro hinner
      rw [hlength] at hinner
      exact length_of_getElem?_chunks hbody hinner

/-- **Fragments.** Whatever the size of a unit and its first byte, it is emitted as one packet or as
a minimal sequence of well-formed fragments. -/
theorem isFragmentation_packetizeAndSendNalu (nalu : Bytes) (size : ℕ) (timestamp : UInt32)
    (s : Session) (hsize : size ≤ nalu.length) :
    (size ≤ 1400 → ∃ header, header.marker = true ∧
      rtpPackets (packetizeAndSendNalu nalu size timestamp s).2 = [(header, nalu.take size)]) ∧
    (1400 < size → ∃ bodies, IsFragmentation (nalu.take size)
      (rtpPackets (packetizeAndSendNalu nalu size timestamp s).2) bodies) := by
  have hplan := rtpPackets_packetizeAndSendNalu nalu size timestamp s hsize
  have hlength : (nalu.take size).length = size := by
    rw [List.length_take, Nat.min_eq_left hsize]
  constructor
  · intro hsmall
    have hmtu : (nalu.take size).length ≤ rtpMtu := hlength.trans_le hsmall
    rw [nalPackets_of_small hmtu] at hplan
    obtain ⟨⟨header, payload⟩, hpackets, hpacket⟩ := List.map_eq_singleton_iff.mp hplan
    obtain ⟨hpayload, hmarked⟩ := Prod.mk.inj hpacket
    exact ⟨header, hmarked, by rw [hpackets, ← hpayload]⟩
  · intro hlarge
    rw [← hlength] at hlarge
    exact ⟨_, isFragmentation_of_plan hlarge hplan⟩

/-- The smallest unit that is cut: two fragments, of 1398 bytes and of 2. -/
theorem isFragmentation_1401 :
    ∃ bodies, IsFragmentation ((List.replicate 1401 0x65).take 1401)
      (rtpPackets (packetizeAndSendNalu (List.replicate 1401 0x65) 1401 0
        (Session.construct 0 0)).2) bodies :=
  (isFragmentation_packetizeAndSendNalu (List.replicate 1401 0x65) 1401 0 (Session.construct 0 0)
    (by rw [List.length_replicate])).2 (by decide)

end RtpSender.Receiver
