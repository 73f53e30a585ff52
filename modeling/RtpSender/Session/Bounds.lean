import RtpSender.Foundation.Checked
import RtpSender.Session.Segmentation

/-!
# Bounds and termination

A second translation of `parseAndSendFrame` and `packetizeAndSendNalu`, in which every `int`
expression is checked for overflow, every byte that is read or copied is checked to lie in the
buffer, and every loop consumes fuel.  Logged steps record how the loops move, which ranges are
packetized and what is given to `sendRtpPacket`.

The bit operations on a byte promoted to `int` stay below 256 and carry no check.  The timestamp is
no `int` expression; it is left to the translation without checks, which this one refines.
-/

open RtpSender.Checked RtpSender.Emitter RtpSender.Wire
open RtpSender.RtpSendingSession (Session Syscall fuIndicator fuHeaderStart fuHeaderMid fuHeaderEnd
  sendRtpPacket sendRtpPackets sendRtpPackets_basePts le_findEnd findEnd_le naluRanges
  naluRanges_bounds naluRanges_pairwise naluRanges_of_startCode parseLoop_of_startCode)

namespace RtpSender.Bounds

/-- What a run does; `round` and `fragment` hold the position before and after. -/
inductive Step where
  | round (pos next : ℤ)
  | range (start size : ℤ)
  | fragment (pos next : ℤ)
  | packet (payload : Bytes) (marker : Bool)
  deriving DecidableEq

/-! ## The checked functions -/

def byteIs (data : Bytes) (index : ℤ) (byte : UInt8) : Program Step Bool := do
  return (← readAt data index) == byte

/-- A later byte is read only if the earlier ones match. -/
def startCodeAt (data : Bytes) (pos : ℤ) : Program Step Bool :=
  byteIs data pos 0x00 <&&> (do byteIs data (← int (pos + 1)) 0x00) <&&>
    (do byteIs data (← int (pos + 2)) 0x00) <&&> (do byteIs data (← int (pos + 3)) 0x01)

/-- One round of the inner `for` loop; its result is `end`. -/
def searchRound (data : Bytes) (len i : ℤ) : Program Step (Round ℤ ℤ) := do
  if (← int (i + 4)) < len then
    if ← startCodeAt data i then return .done i
    else return .again (← int (i + 1))
  else return .done len

def findEnd (data : Bytes) (len : ℤ) (fuel : ℕ) (start : ℤ) : Program Step ℤ :=
  loop (searchRound data len) fuel start

def selectFuHeader (nalHeader : UInt8) (pos remaining payloadLen : ℤ) : Program Step UInt8 := do
  if pos = 1 then return fuHeaderStart nalHeader
  else if (← int (remaining - payloadLen)) = 0 then return fuHeaderEnd nalHeader
  else return fuHeaderMid nalHeader

/-- One round of `while (pos < size)`; the unit begins at index `nalu` of the buffer. -/
def fragmentRound (data : Bytes) (nalu size : ℤ) (nalHeader : UInt8) (pos : ℤ) :
    Program Step (Round ℤ Unit) := do
  if pos < size then
    let remaining ← int (size - pos)
    let payloadLen := min remaining (← int (rtpMtu - 2))
    let fuHeader ← selectFuHeader nalHeader pos remaining payloadLen
    -- the size of `buf`
    let _ ← int (2 + payloadLen)
    let body ← copy data (nalu + pos) payloadLen
    tell [.packet (fuIndicator nalHeader :: fuHeader :: body) (fuHeader &&& 0x40 != 0)]
    let next ← int (pos + payloadLen)
    tell [.fragment pos next]
    return .again next
  else return .done ()

def packetizeAndSendNalu (data : Bytes) (nalu size : ℤ) (fuel : ℕ) : Program Step Unit := do
  -- `nalu[0]` is read before the size is looked at
  let nalHeader ← readAt data nalu
  if size ≤ rtpMtu then
    let payload ← copy data nalu size
    tell [.packet payload true]
  else loop (fragmentRound data nalu size nalHeader) fuel 1

/-- One round of `while (pos + 4 < len)`. -/
def parseRound (data : Bytes) (len : ℤ) (fuel : ℕ) (pos : ℤ) : Program Step (Round ℤ Unit) := do
  if (← int (pos + 4)) < len then
    if ← startCodeAt data pos then
      let start ← int (pos + 4)
      let last ← findEnd data len fuel start
      let size ← int (last - start)
      tell [.range start size]
      packetizeAndSendNalu data start size fuel
      tell [.round pos last]
      return .again last
    else
      let next ← int (pos + 1)
      tell [.round pos next]
      return .again next
  else return .done ()

/-- Every loop gets the same fuel. -/
def parseAndSendFrame (data : Bytes) (len : ℤ) (fuel : ℕ) : Program Step Unit :=
  loop (parseRound data len fuel) fuel 0

/-! ## What a log says -/

/-- Positions only grow. -/
def Step.Advances : Step → Prop
  | .round pos next => pos < next
  | .fragment pos next => pos < next
  | .range _ _ | .packet _ _ => True

def Step.range? : Step → Option (ℤ × ℤ)
  | .range start size => some (start, size)
  | _ => none

def Step.packet? : Step → Option (Bytes × Bool)
  | .packet payload marker => some (payload, marker)
  | _ => none

/-- Start and size of the ranges given to `packetizeAndSendNalu`. -/
def ranges (log : List Step) : List (ℤ × ℤ) := log.filterMap Step.range?

/-- Payloads and markers given to `sendRtpPacket`. -/
def packets (log : List Step) : List (Bytes × Bool) := log.filterMap Step.packet?

/-- What is left of the search from `i` on has one result, and it logs nothing. -/
def Searched (data : Bytes) (i result : ℤ) (log : List Step) : Prop :=
  result = RtpSendingSession.findEnd data i.toNat ∧ log = []

/-- The log of packetizing one range: its packets are those that `send` sends. -/
structure Packetized (send : UInt32 → Emit Session Syscall) (log : List Step) : Prop where
  advances : ∀ step ∈ log, step.Advances
  ranges_eq : ranges log = []
  packets_eq : ∀ timestamp, sendRtpPackets (packets log) timestamp = send timestamp

theorem Packetized.done : Packetized (fun _ ↦ skip) [] where
  advances _ hstep := absurd hstep List.not_mem_nil
  ranges_eq := rfl
  packets_eq _ := rfl

theorem Packetized.whole (payload : Bytes) :
    Packetized (sendRtpPacket payload true) [.packet payload true] where
  advances := by
    intro step hstep
    rw [List.mem_singleton.mp hstep]
    trivial
  ranges_eq := rfl
  packets_eq timestamp := forEach_singleton _ _

/-- One more fragment in front of the log. -/
theorem Packetized.fragment {send : UInt32 → Emit Session Syscall} {log : List Step}
    (h : Packetized send log) (payload : Bytes) (marker : Bool) {pos next : ℤ}
    (hnext : pos < next) :
    Packetized (fun timestamp ↦ andThen (sendRtpPacket payload marker timestamp) (send timestamp))
      (.packet payload marker :: .fragment pos next :: log) where
  advances := by
    intro step hstep
    rcases List.mem_cons.mp hstep with rfl | hstep
    · trivial
    rcases List.mem_cons.mp hstep with rfl | hstep
    · exact hnext
    · exact h.advances step hstep
  ranges_eq := h.ranges_eq
  packets_eq timestamp := congrArg (andThen (sendRtpPacket payload marker timestamp))
    (h.packets_eq timestamp)

/-- The log of the loop from `pos` on: its ranges and packets are those of the loop without
checks. -/
structure Parsed (data : Bytes) (pos : ℕ) (log : List Step) : Prop where
  advances : ∀ step ∈ log, step.Advances
  ranges_eq : ranges log = (naluRanges data pos).map (Prod.map Nat.cast Nat.cast)
  packets_eq : ∀ (toTimestamp : ℤ → UInt32) (pts : ℤ) (s : Session),
    sendRtpPackets (packets log) (toTimestamp (pts - s.basePts)) s =
      RtpSendingSession.parseLoop toTimestamp data pts pos s

section Parsed

variable {data : Bytes} {pos : ℕ} {log : List Step}

theorem Parsed.done (hpos : ¬ pos + 4 < data.length) : Parsed data pos [] where
  advances _ hstep := absurd hstep List.not_mem_nil
  ranges_eq := by
    rw [naluRanges, dif_neg hpos]
    rfl
  packets_eq toTimestamp pts s := by
    rw [RtpSendingSession.parseLoop, dif_neg hpos]
    rfl

/-- A round without a start code moves by one byte. -/
theorem Parsed.skip (hpos : pos + 4 < data.length)
    (hcode : ¬ RtpSendingSession.startCodeAt data pos = true) (h : Parsed data (pos + 1) log) :
    Parsed data pos (.round pos (pos + 1) :: log) where
  advances := by
    intro step hstep
    rcases List.mem_cons.mp hstep with rfl | hstep
    · exact Int.lt_succ _
    · exact h.advances step hstep
  ranges_eq := by
    rw [naluRanges, dif_pos hpos, if_neg hcode]
    exact h.ranges_eq
  packets_eq toTimestamp pts s := by
    rw [RtpSendingSession.parseLoop, dif_pos hpos, if_neg hcode]
    exact h.packets_eq toTimestamp pts s

/-- A round at a start code moves to where the search has ended. -/
theorem Parsed.unit {last : ℕ} (hpos : pos + 4 < data.length)
    (hcode : RtpSendingSession.startCodeAt data pos = true)
    (hlast : last = RtpSendingSession.findEnd data (pos + 4)) {unit : List Step}
    (hunit : Packetized (RtpSendingSession.packetizeAndSendNalu (data.drop (pos + 4))
      (last - (pos + 4))) unit)
    (h : Parsed data last log) :
    Parsed data pos
      (.range (pos + 4 : ℕ) (last - (pos + 4) : ℕ) :: (unit ++ .round pos last :: log)) where
  advances := by
    have hmore : pos < last := by
      have hend := le_findEnd data (pos + 4) (by omega)
      omega
    intro step hstep
    rcases List.mem_cons.mp hstep with rfl | hstep
    · trivial
    rcases List.mem_append.mp hstep with hstep | hstep
    · exact hunit.advances step hstep
    rcases List.mem_cons.mp hstep with rfl | hstep
    · exact Int.ofNat_lt.mpr hmore
    · exact h.advances step hstep
  ranges_eq := by
    have hlog : ranges (.range (pos + 4 : ℕ) (last - (pos + 4) : ℕ) ::
        (unit ++ .round pos last :: log)) =
          (((pos + 4 : ℕ) : ℤ), ((last - (pos + 4) : ℕ) : ℤ)) :: (ranges unit ++ ranges log) :=
      congrArg (List.cons _) List.filterMap_append
    rw [hlog, hunit.ranges_eq, h.ranges_eq, naluRanges_of_startCode hpos hcode, ← hlast]
    rfl
  packets_eq toTimestamp pts s := by
    have hlog : packets (.range (pos + 4 : ℕ) (last - (pos + 4) : ℕ) ::
        (unit ++ .round pos last :: log)) = packets unit ++ packets log :=
      List.filterMap_append
    calc
      _ = andThen (sendRtpPackets (packets unit) (toTimestamp (pts - s.basePts)))
          (sendRtpPackets (packets log) (toTimestamp (pts - s.basePts))) s := by
        rw [hlog, sendRtpPackets, forEach_append]
        rfl
      _ = andThen (sendRtpPackets (packets unit) (toTimestamp (pts - s.basePts)))
          (RtpSendingSession.parseLoop toTimestamp data pts last) s := by
        -- the packets of the unit leave the time base as it is
        rw [andThen_apply, andThen_apply, ← h.packets_eq, sendRtpPackets_basePts]
      _ = _ := by
        rw [parseLoop_of_startCode toTimestamp hpos hcode, ← hlast, hunit.packets_eq]
        rfl

end Parsed

/-! ## The header of a fragment -/

theorem selectFuHeader_eq (nalHeader : UInt8) {pos remaining payloadLen : ℕ}
    (hle : payloadLen ≤ remaining) (hremaining : remaining ≤ intMax) :
    selectFuHeader nalHeader pos remaining payloadLen =
      pure (if pos = 1 then fuHeaderStart nalHeader
        else if remaining - payloadLen = 0 then fuHeaderEnd nalHeader
        else fuHeaderMid nalHeader) := by
  by_cases hfirst : pos = 1
  · rw [selectFuHeader, if_pos (by omega), if_pos hfirst]
  · rw [selectFuHeader, if_neg (by omega), if_neg hfirst,
      int_of_nonneg (by omega) (by omega), pure_bind_apply]
    by_cases hlast : remaining - payloadLen = 0
    · rw [if_pos (by omega), if_pos hlast]
    · rw [if_neg (by omega), if_neg hlast]

section Run

variable {data : Bytes} {nalu size : ℕ}

/-- One round of the loop without checks, its locals as arguments. -/
theorem fragmentLoop_round (data : Bytes) (nalu : ℕ) (nalHeader fuHeader : UInt8)
    {pos payloadLen : ℕ} (hpos : pos < size)
    (hpayloadLen : payloadLen = min (size - pos) (rtpMtu - 2))
    (hfuHeader : fuHeader =
      if pos = 1 then fuHeaderStart nalHeader
      else if size - pos - payloadLen = 0 then fuHeaderEnd nalHeader
      else fuHeaderMid nalHeader) (timestamp : UInt32) :
    RtpSendingSession.fragmentLoop (data.drop nalu) size nalHeader timestamp pos =
      andThen
        (sendRtpPacket
          (fuIndicator nalHeader :: fuHeader :: (data.drop (nalu + pos)).take payloadLen)
          (fuHeader &&& 0x40 != 0) timestamp)
        (RtpSendingSession.fragmentLoop (data.drop nalu) size nalHeader timestamp
          (pos + payloadLen)) := by
  rw [RtpSendingSession.fragmentLoop, if_pos hpos, hfuHeader, hpayloadLen, List.drop_drop]

/-! ## Reading the buffer -/

theorem byteIs_eq {index : ℕ} (hindex : index < data.length) (byte : UInt8) :
    byteIs data index byte = pure (data[index]? == some byte) := by
  have hread : data[index]? = some data[index] := List.getElem?_eq_getElem hindex
  rw [byteIs, readAt_natCast hread, pure_bind_apply, hread]
  rfl

variable (hlen : (data.length : ℤ) ≤ intMax - 4)

include hlen

theorem byteIs_int_eq {value : ℤ} {index : ℕ} (hvalue : value = index)
    (hindex : index < data.length) (byte : UInt8) :
    (do byteIs data (← int value) byte) = pure (data[index]? == some byte) := by
  rw [hvalue, int_of_nonneg (by omega) (by omega), pure_bind_apply, byteIs_eq hindex]

/-- The four comparisons stay in the buffer when a byte follows them. -/
theorem startCodeAt_eq {pos : ℕ} (hpos : pos + 4 < data.length) :
    startCodeAt data pos = pure (RtpSendingSession.startCodeAt data pos) := by
  have hone : (pos : ℤ) + 1 = (pos + 1 : ℕ) := rfl
  have htwo : (pos : ℤ) + 2 = (pos + 2 : ℕ) := rfl
  have hthree : (pos : ℤ) + 3 = (pos + 3 : ℕ) := rfl
  rw [startCodeAt, byteIs_eq (by omega), byteIs_int_eq hlen hone (by omega),
    byteIs_int_eq hlen htwo (by omega), byteIs_int_eq hlen hthree (by omega)]
  simp only [pure_andM, RtpSendingSession.startCodeAt, Bool.and_assoc]
  cases data[pos]? == some 0x00 <;> cases data[pos + 1]? == some 0x00 <;>
    cases data[pos + 2]? == some 0x00 <;> rfl

/-! ## The inner search -/

theorem ensures_searchRound (i : ℤ) (hi : 0 ≤ i ∧ i ≤ data.length) :
    Ensures (searchRound data data.length i)
      (Progress (fun i ↦ 0 ≤ i ∧ i ≤ data.length) (fun i ↦ data.length - i.toNat)
        (Searched data) i) := by
  obtain ⟨hlow, hhigh⟩ := hi
  lift i to ℕ using hlow
  rw [searchRound, int_of_nonneg (by omega) (by omega), pure_bind_apply]
  by_cases hlt : i + 4 < data.length
  · rw [if_pos (by omega), startCodeAt_eq hlen hlt, pure_bind_apply]
    by_cases hcode : RtpSendingSession.startCodeAt data i = true
    · have hend : RtpSendingSession.findEnd data i = i := by
        rw [RtpSendingSession.findEnd, if_pos hlt, if_pos hcode]
      rw [if_pos hcode]
      apply ensures_pure
      exact ⟨by rw [Int.toNat_natCast, hend], rfl⟩
    · have hend : RtpSendingSession.findEnd data i = RtpSendingSession.findEnd data (i + 1) := by
        rw [RtpSendingSession.findEnd, if_pos hlt, if_neg hcode]
      rw [if_neg hcode, int_of_nonneg (by omega) (by omega), pure_bind_apply]
      have hless : data.length - ((i : ℤ) + 1).toNat < data.length - (i : ℤ).toNat := by omega
      apply ensures_pure
      refine ⟨by omega, hless, ?_⟩
      rintro result rest ⟨hresult, rfl⟩
      exact ⟨hresult.trans (congrArg Nat.cast hend.symm), rfl⟩
  · have hend : RtpSendingSession.findEnd data i = data.length := by
      rw [RtpSendingSession.findEnd, if_neg hlt]
    rw [if_neg (by omega)]
    apply ensures_pure
    exact ⟨by rw [Int.toNat_natCast, hend], rfl⟩

/-- The search reads inside the buffer only and finds what the loop without checks finds. -/
theorem findEnd_eq {start fuel : ℕ} (hstart : start ≤ data.length)
    (hfuel : data.length - start < fuel) :
    findEnd data data.length fuel start = pure (RtpSendingSession.findEnd data start : ℤ) := by
  apply Ensures.eq_pure
  exact ensures_loop (ensures_searchRound hlen) ⟨by omega, by omega⟩ hfuel

/-! ## Fragments -/

/-- With room in the unit no check of a round fails. -/
theorem fragmentRound_eq (hrange : nalu + size ≤ data.length) (nalHeader fuHeader : UInt8)
    {pos payloadLen : ℕ} (hpos : pos < size)
    (hpayloadLen : payloadLen = min (size - pos) (rtpMtu - 2))
    (hfuHeader : fuHeader =
      if pos = 1 then fuHeaderStart nalHeader
      else if size - pos - payloadLen = 0 then fuHeaderEnd nalHeader
      else fuHeaderMid nalHeader) :
    fragmentRound data nalu size nalHeader pos = do
      tell [.packet (fuIndicator nalHeader :: fuHeader ::
        (data.drop (nalu + pos)).take payloadLen) (fuHeader &&& 0x40 != 0)]
      tell [.fragment pos (pos + payloadLen)]
      return .again ((pos : ℤ) + payloadLen) := by
  have hremaining : (size : ℤ) - pos = (size - pos : ℕ) := by omega
  have hmax : (rtpMtu : ℤ) - 2 = (rtpMtu - 2 : ℕ) := rfl
  have hmin : min ((size - pos : ℕ) : ℤ) (rtpMtu - 2 : ℕ) = payloadLen := by omega
  have hstart : (nalu : ℤ) + pos = (nalu + pos : ℕ) := rfl
  rw [fragmentRound, if_pos (by omega), int_of_nonneg (by omega) (by omega), pure_bind_apply,
    hremaining, hmax, int_of_nonneg (by omega) (by decide), pure_bind_apply]
  simp only [hmin]
  rw [selectFuHeader_eq nalHeader (by omega) (by omega), pure_bind_apply,
    int_of_nonneg (by omega) (by omega), pure_bind_apply, hstart, copy_natCast (by omega),
    pure_bind_apply, int_of_nonneg (by omega) (by omega), pure_bind_apply, ← hfuHeader]

/-- A round copies at least one byte of the unit, and none behind it. -/
theorem ensures_fragmentRound (hrange : nalu + size ≤ data.length) (nalHeader : UInt8) (pos : ℤ)
    (hpos : 1 ≤ pos ∧ pos ≤ size) :
    Ensures (fragmentRound data nalu size nalHeader pos)
      (Progress (fun pos ↦ 1 ≤ pos ∧ pos ≤ size) (fun pos ↦ size - pos.toNat)
        (fun pos _ ↦ Packetized fun timestamp ↦
          RtpSendingSession.fragmentLoop (data.drop nalu) size nalHeader timestamp pos.toNat)
        pos) := by
  obtain ⟨hlow, hhigh⟩ := hpos
  lift pos to ℕ using by omega
  by_cases hlt : pos < size
  · obtain ⟨payloadLen, hpayloadLen⟩ : ∃ length, length = min (size - pos) (rtpMtu - 2) :=
      ⟨_, rfl⟩
    have hone : 0 < payloadLen := by
      rw [hpayloadLen, lt_min_iff]
      exact ⟨by omega, by decide⟩
    have hless : size - ((pos : ℤ) + payloadLen).toNat < size - (pos : ℤ).toNat := by omega
    have hloop := funext (fragmentLoop_round data nalu nalHeader _ hlt hpayloadLen rfl)
    rw [fragmentRound_eq hlen hrange nalHeader _ hlt hpayloadLen rfl]
    apply Ensures.tell_bind
    apply Ensures.tell_bind
    apply ensures_pure
    refine ⟨⟨by omega, by omega⟩, hless, ?_⟩
    intro _ rest hrest
    rw [Int.toNat_natCast, hloop]
    exact hrest.fragment _ _ (by omega)
  · have hdone : ∀ timestamp, RtpSendingSession.fragmentLoop (data.drop nalu) size nalHeader
        timestamp pos = skip := by
      intro timestamp
      rw [RtpSendingSession.fragmentLoop, if_neg hlt]
    rw [fragmentRound, if_neg (by omega)]
    apply ensures_pure
    change Packetized (fun timestamp ↦ RtpSendingSession.fragmentLoop _ size _ timestamp pos) []
    rw [funext hdone]
    exact .done

/-- `nalu[0]` lies in the buffer even when the size is zero. -/
theorem ensures_packetizeAndSendNalu (hnalu : nalu < data.length)
    (hrange : nalu + size ≤ data.length) {fuel : ℕ} (hfuel : size < fuel) :
    Ensures (packetizeAndSendNalu data nalu size fuel) fun _ ↦
      Packetized (RtpSendingSession.packetizeAndSendNalu (data.drop nalu) size) := by
  have hread : data[nalu]? = some data[nalu] := List.getElem?_eq_getElem hnalu
  have hhead : (data.drop nalu).headD 0 = data[nalu] := by
    rw [List.drop_eq_getElem_cons hnalu, List.headD_cons]
  rw [packetizeAndSendNalu, readAt_natCast hread, pure_bind_apply]
  by_cases hsmall : size ≤ rtpMtu
  · have hsend : RtpSendingSession.packetizeAndSendNalu (data.drop nalu) size =
        sendRtpPacket ((data.drop nalu).take size) true := by
      funext timestamp
      rw [RtpSendingSession.packetizeAndSendNalu, if_pos hsmall]
    rw [if_pos (by omega), copy_natCast hrange, pure_bind_apply, hsend]
    apply ensures_tell
    exact .whole _
  · have hsend : RtpSendingSession.packetizeAndSendNalu (data.drop nalu) size = fun timestamp ↦
        RtpSendingSession.fragmentLoop (data.drop nalu) size data[nalu] timestamp 1 := by
      funext timestamp
      rw [RtpSendingSession.packetizeAndSendNalu, if_neg hsmall, hhead]
    have hone : 1 ≤ size := by
      simp only [rtpMtu] at hsmall
      omega
    have hless : size - (1 : ℤ).toNat < fuel := by omega
    rw [if_neg (by omega), hsend]
    exact ensures_loop (ensures_fragmentRound hlen hrange data[nalu]) ⟨by omega, by omega⟩ hless

/-! ## Frames -/

/-- At a start code no check of a round fails, and the search decides where it ends. -/
theorem parseRound_unit {pos last fuel : ℕ} (hfuel : data.length < fuel)
    (hpos : pos + 4 < data.length) (hcode : RtpSendingSession.startCodeAt data pos = true)
    (hlast : last = RtpSendingSession.findEnd data (pos + 4)) :
    parseRound data data.length fuel pos = do
      tell [.range (pos + 4 : ℕ) (last - (pos + 4) : ℕ)]
      packetizeAndSendNalu data (pos + 4 : ℕ) (last - (pos + 4) : ℕ) fuel
      tell [.round pos last]
      return .again (last : ℤ) := by
  have hend : pos + 4 ≤ last := hlast ▸ le_findEnd data (pos + 4) (by omega)
  have hinside : last ≤ data.length := hlast ▸ findEnd_le data (pos + 4) (by omega)
  have hstart : (pos : ℤ) + 4 = (pos + 4 : ℕ) := rfl
  have hsize : (last : ℤ) - (pos + 4 : ℕ) = (last - (pos + 4) : ℕ) := by omega
  rw [parseRound, int_of_nonneg (by omega) (by omega), pure_bind_apply, if_pos (by omega),
    startCodeAt_eq hlen hpos, pure_bind_apply, if_pos hcode, pure_bind_apply, hstart,
    findEnd_eq hlen (by omega) (by omega), ← hlast, pure_bind_apply,
    int_of_nonneg (by omega) (by omega), pure_bind_apply, hsize]

/-- Away from start codes a round moves by one byte. -/
theorem parseRound_skip {pos fuel : ℕ} (hpos : pos + 4 < data.length)
    (hcode : ¬ RtpSendingSession.startCodeAt data pos = true) :
    parseRound data data.length fuel pos = do
      tell [.round pos (pos + 1)]
      return .again ((pos : ℤ) + 1) := by
  rw [parseRound, int_of_nonneg (by omega) (by omega), pure_bind_apply, if_pos (by omega),
    startCodeAt_eq hlen hpos, pure_bind_apply, if_neg hcode, int_of_nonneg (by omega) (by omega),
    pure_bind_apply]

theorem ensures_parseRound {fuel : ℕ} (hfuel : data.length < fuel) (pos : ℤ)
    (hpos : 0 ≤ pos ∧ pos ≤ data.length) :
    Ensures (parseRound data data.length fuel pos)
      (Progress (fun pos ↦ 0 ≤ pos ∧ pos ≤ data.length) (fun pos ↦ data.length - pos.toNat)
        (fun pos _ ↦ Parsed data pos.toNat) pos) := by
  obtain ⟨hlow, hhigh⟩ := hpos
  lift pos to ℕ using hlow
  by_cases hlt : pos + 4 < data.length
  · by_cases hcode : RtpSendingSession.startCodeAt data pos = true
    · obtain ⟨last, hlast⟩ : ∃ last, last = RtpSendingSession.findEnd data (pos + 4) := ⟨_, rfl⟩
      have hend : pos + 4 ≤ last := hlast ▸ le_findEnd data (pos + 4) (by omega)
      have hinside : last ≤ data.length := hlast ▸ findEnd_le data (pos + 4) (by omega)
      have hless : data.length - (last : ℤ).toNat < data.length - (pos : ℤ).toNat := by omega
      have hsize : pos + 4 + (last - (pos + 4)) ≤ data.length := by omega
      rw [parseRound_unit hlen hfuel hlt hcode hlast]
      apply Ensures.tell_bind
      apply (ensures_packetizeAndSendNalu hlen hlt hsize (by omega)).bind
      intro _ unit hunit
      apply Ensures.tell_bind
      apply ensures_pure
      refine ⟨by omega, hless, ?_⟩
      intro _ rest hrest
      rw [List.append_nil, List.append_assoc, List.append_assoc]
      exact .unit hlt hcode hlast hunit hrest
    · have hless : data.length - ((pos : ℤ) + 1).toNat < data.length - (pos : ℤ).toNat := by omega
      rw [parseRound_skip hlen hlt hcode]
      apply Ensures.tell_bind
      apply ensures_pure
      refine ⟨by omega, hless, ?_⟩
      intro _ rest hrest
      exact hrest.skip hlt hcode
  · rw [parseRound, int_of_nonneg (by omega) (by omega), pure_bind_apply, if_neg (by omega)]
    apply ensures_pure
    exact .done hlt

end Run

/-- The run has no fault, and it does what the functions without checks do. -/
theorem ensures_parsed {data : Bytes} {len : ℤ} (hdata : data.length = len.toNat)
    (hlen : len ≤ intMax - 4) {fuel : ℕ} (hfuel : len.toNat < fuel) :
    Ensures (parseAndSendFrame data len fuel) fun _ ↦ Parsed data 0 := by
  by_cases hneg : len < 0
  · cases fuel with
    | zero => omega
    | succ fuel =>
      rw [parseAndSendFrame, loop, parseRound, int_of_nonneg (by omega) (by decide),
        pure_bind_apply, if_neg (by omega), pure_bind_apply]
      apply ensures_pure
      exact .done (by omega)
  · obtain rfl : len = data.length := by omega
    exact ensures_loop (ensures_parseRound hlen hfuel) ⟨by omega, by omega⟩ (by omega)

/-- For every buffer of `len` bytes and enough fuel there is no fault: the functions return, they
read bytes of the buffer only, and no `int` overflows.  Positions grow in both loops, the ranges
are disjoint and in order, and the packets are those that the frame is sent as. -/
theorem parseAndSendFrame_safe (data : Bytes) (len : ℤ) (hdata : data.length = len.toNat)
    (hlen : len ≤ intMax - 4) (fuel : ℕ) (hfuel : len.toNat < fuel) :
    Ensures (parseAndSendFrame data len fuel) fun _ log ↦
      (∀ pos next, .round pos next ∈ log → pos < next) ∧
      (∀ pos next, .fragment pos next ∈ log → pos + 1 ≤ next) ∧
      (∀ range ∈ ranges log, 0 ≤ range.1 ∧ 0 ≤ range.2 ∧ range.1 + range.2 ≤ len) ∧
      (ranges log).Pairwise
        (fun range later ↦ range.1 < later.1 ∧ range.1 + range.2 ≤ later.1) ∧
      ∀ (toTimestamp : ℤ → UInt32) (pts : ℤ) (s : Session),
        sendRtpPackets (packets log) (toTimestamp (pts - s.basePts)) s =
          RtpSendingSession.parseAndSendFrame toTimestamp data pts s := by
  apply (ensures_parsed hdata hlen hfuel).mono
  intro _ log h
  refine ⟨fun pos next hstep ↦ h.advances _ hstep, fun pos next hstep ↦ h.advances _ hstep,
    ?_, ?_, h.packets_eq⟩
  · intro range hrange
    rw [h.ranges_eq] at hrange
    obtain ⟨natRange, hmem, rfl⟩ := List.mem_map.mp hrange
    have hbounds := naluRanges_bounds hmem
    simp only [Prod.map_fst, Prod.map_snd]
    omega
  · rw [h.ranges_eq, List.pairwise_map]
    apply (naluRanges_pairwise data 0).imp
    intro range later hlater
    simp only [Prod.map_fst, Prod.map_snd]
    omega

/-- Two start codes in a row: the first range is empty, and its `nalu[0]` is a byte of the second
start code. -/
theorem parseAndSendFrame_safe_emptyUnit :
    Ensures
      (parseAndSendFrame [0x00, 0x00, 0x00, 0x01, 0x00, 0x00, 0x00, 0x01, 0x41] 9 10)
      fun _ log ↦ ∀ range ∈ ranges log, 0 ≤ range.1 ∧ 0 ≤ range.2 ∧ range.1 + range.2 ≤ 9 :=
  (parseAndSendFrame_safe _ 9 rfl (by decide) 10 (by decide)).mono fun _ _ h ↦ h.2.2.1

example :
    (parseAndSendFrame [0x00, 0x00, 0x00, 0x01, 0x00, 0x00, 0x00, 0x01, 0x41] 9 10).run =
      .ok ((), [.range 4 0, .packet [] true, .round 0 4, .range 8 1, .packet [0x41] true,
        .round 4 9]) := rfl

-- a length that promises more bytes than there are
example : (parseAndSendFrame [0x00, 0x00, 0x00, 0x01] 9 10).run = .error (.outOfBounds 4) := rfl

end RtpSender.Bounds
