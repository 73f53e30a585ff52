import RtpSender.Foundation.RecordStream

/-!
# The wire format of the sender

The two packed structs of `RTPSendingSession.cpp`, the interleaved frame that carries them over one
TCP connection, and the readers of a receiver that follows the same layouts.  Struct fields hold the
host values; `bytes` lays them out in network order, as `htons`, `htonl` and `memcpy` do in the
source.
-/

open RtpSender.RecordStream

namespace RtpSender.Wire

abbrev Bytes := List UInt8

/-! ## Network byte order -/

/-- The two bytes that the result of `htons` occupies in memory. -/
def htons (value : UInt16) : Bytes :=
  [UInt8.ofNat (value.toNat / 2 ^ 8), UInt8.ofNat value.toNat]

/-- The four bytes that the result of `htonl` occupies in memory. -/
def htonl (value : UInt32) : Bytes :=
  [UInt8.ofNat (value.toNat / 2 ^ 24), UInt8.ofNat (value.toNat / 2 ^ 16),
    UInt8.ofNat (value.toNat / 2 ^ 8), UInt8.ofNat value.toNat]

def readByte : Bytes → Option (UInt8 × Bytes)
  | b :: rest => some (b, rest)
  | [] => none

def readShort : Bytes → Option (UInt16 × Bytes)
  | b₁ :: b₀ :: rest => some (UInt16.ofNat (b₁.toNat * 2 ^ 8 + b₀.toNat), rest)
  | _ => none

def readLong : Bytes → Option (UInt32 × Bytes)
  | b₃ :: b₂ :: b₁ :: b₀ :: rest =>
    some (UInt32.ofNat (b₃.toNat * 2 ^ 24 + b₂.toNat * 2 ^ 16 + b₁.toNat * 2 ^ 8 + b₀.toNat), rest)
  | _ => none

@[simp]
theorem readByte_cons (b : UInt8) (rest : Bytes) : readByte (b :: rest) = some (b, rest) := rfl

@[simp]
theorem readShort_htons (value : UInt16) (rest : Bytes) :
    readShort (htons value ++ rest) = some (value, rest) := by
  have hlt := value.toNat_lt
  have hsum : value.toNat / 2 ^ 8 % 2 ^ 8 * 2 ^ 8 + value.toNat % 2 ^ 8 = value.toNat := by omega
  simp only [htons, List.cons_append, List.nil_append, readShort, UInt8.toNat_ofNat', hsum,
    UInt16.ofNat_toNat]

@[simp]
theorem readLong_htonl (value : UInt32) (rest : Bytes) :
    readLong (htonl value ++ rest) = some (value, rest) := by
  have hlt := value.toNat_lt
  have hsum : value.toNat / 2 ^ 24 % 2 ^ 8 * 2 ^ 24 + value.toNat / 2 ^ 16 % 2 ^ 8 * 2 ^ 16 +
      value.toNat / 2 ^ 8 % 2 ^ 8 * 2 ^ 8 + value.toNat % 2 ^ 8 = value.toNat := by omega
  simp only [htonl, List.cons_append, List.nil_append, readLong, UInt8.toNat_ofNat', hsum,
    UInt32.ofNat_toNat]

/-! ## RTP packets -/

def rtpVersion : UInt8 := 2
def rtpPayloadTypeH264 : UInt8 := 98
def rtpMtu : ℕ := 1400

structure RtpHeader where
  vpxcc : UInt8
  mpt : UInt8
  seq : UInt16
  timestamp : UInt32
  ssrc : UInt32
  deriving DecidableEq, Repr

namespace RtpHeader

def bytes (header : RtpHeader) : Bytes :=
  header.vpxcc :: header.mpt ::
    (htons header.seq ++ (htonl header.timestamp ++ htonl header.ssrc))

/-- The two most significant bits of the first byte. -/
def version (header : RtpHeader) : UInt8 := header.vpxcc >>> 6

def marker (header : RtpHeader) : Bool := header.mpt &&& 0x80 != 0

def payloadType (header : RtpHeader) : UInt8 := header.mpt &&& 0x7F

/-- Split a channel-0 body into its 12-byte header and its payload. -/
def read (body : Bytes) : Option (RtpHeader × Bytes) := do
  let (vpxcc, rest) ← readByte body
  let (mpt, rest) ← readByte rest
  let (seq, rest) ← readShort rest
  let (timestamp, rest) ← readLong rest
  let (ssrc, payload) ← readLong rest
  some (⟨vpxcc, mpt, seq, timestamp, ssrc⟩, payload)

@[simp]
theorem length_bytes (header : RtpHeader) : header.bytes.length = 12 := rfl

@[simp]
theorem read_bytes_append (header : RtpHeader) (payload : Bytes) :
    read (header.bytes ++ payload) = some (header, payload) := by
  simp [read, bytes, List.append_assoc]

end RtpHeader

/-! ## RTCP sender reports -/

structure RtcpHeader where
  versionPCount : UInt8
  packetType : UInt8
  length : UInt16
  ssrc : UInt32
  ntpSec : UInt32
  ntpFrac : UInt32
  rtpTimestamp : UInt32
  packetCount : UInt32
  octetCount : UInt32
  deriving DecidableEq, Repr

namespace RtcpHeader

def bytes (report : RtcpHeader) : Bytes :=
  report.versionPCount :: report.packetType ::
    (htons report.length ++ (htonl report.ssrc ++ (htonl report.ntpSec ++ (htonl report.ntpFrac ++
      (htonl report.rtpTimestamp ++ (htonl report.packetCount ++ htonl report.octetCount))))))

/-- A channel-1 body that is exactly one sender report without report blocks. -/
def read (body : Bytes) : Option RtcpHeader := do
  let (versionPCount, rest) ← readByte body
  let (packetType, rest) ← readByte rest
  let (length, rest) ← readShort rest
  let (ssrc, rest) ← readLong rest
  let (ntpSec, rest) ← readLong rest
  let (ntpFrac, rest) ← readLong rest
  let (rtpTimestamp, rest) ← readLong rest
  let (packetCount, rest) ← readLong rest
  let (octetCount, rest) ← readLong rest
  if rest = [] ∧ versionPCount = 0x80 ∧ packetType = 200 ∧ length = 6 then
    some ⟨versionPCount, packetType, length, ssrc, ntpSec, ntpFrac, rtpTimestamp, packetCount,
      octetCount⟩
  else none

@[simp]
theorem length_bytes (report : RtcpHeader) : report.bytes.length = 28 := rfl

/-- The version, the type and the length in words that a receiver looks for. -/
def WellFormed (report : RtcpHeader) : Prop :=
  report.versionPCount = 0x80 ∧ report.packetType = 200 ∧ report.length = 6

theorem read_bytes (report : RtcpHeader) (h : report.WellFormed) :
    read report.bytes = some report := by
  have hlast : readLong (htonl report.octetCount) = some (report.octetCount, []) := by
    simpa using readLong_htonl report.octetCount []
  rw [read, bytes]
  refine Option.bind_eq_some_iff.mpr ⟨_, readByte_cons .., ?_⟩
  refine Option.bind_eq_some_iff.mpr ⟨_, readByte_cons .., ?_⟩
  refine Option.bind_eq_some_iff.mpr ⟨_, readShort_htons .., ?_⟩
  refine Option.bind_eq_some_iff.mpr ⟨_, readLong_htonl .., ?_⟩
  refine Option.bind_eq_some_iff.mpr ⟨_, readLong_htonl .., ?_⟩
  refine Option.bind_eq_some_iff.mpr ⟨_, readLong_htonl .., ?_⟩
  refine Option.bind_eq_some_iff.mpr ⟨_, readLong_htonl .., ?_⟩
  refine Option.bind_eq_some_iff.mpr ⟨_, readLong_htonl .., ?_⟩
  refine Option.bind_eq_some_iff.mpr ⟨_, hlast, ?_⟩
  -- nothing is left, and the report passes the reader's check
  exact if_pos ⟨rfl, h⟩

end RtcpHeader

/-! ## Interleaved frames -/

/-- One frame of the interleaved connection; its body fits the 16-bit length field. -/
structure InterleavedFrame where
  channel : UInt8
  body : Bytes
  body_lt : body.length < 2 ^ 16

/-- What both send sites put into `tcpFrame`: `'$'`, the channel, the length and the body. -/
def tcpFrame (channel : UInt8) (body : Bytes) : Bytes :=
  0x24 :: channel :: (htons (UInt16.ofNat body.length) ++ body)

namespace InterleavedFrame

def encode (frame : InterleavedFrame) : Bytes := tcpFrame frame.channel frame.body

def next (stream : Bytes) : Option (InterleavedFrame × Bytes) := do
  let (magic, rest) ← readByte stream
  let (channel, rest) ← readByte rest
  let (length, rest) ← readShort rest
  if magic = 0x24 ∧ length.toNat ≤ rest.length then
    some (⟨channel, rest.take length.toNat,
      Nat.lt_of_le_of_lt (List.length_take_le ..) length.toNat_lt⟩, rest.drop length.toNat)
  else none

theorem next_encode (frame : InterleavedFrame) (rest : Bytes) :
    next (frame.encode ++ rest) = some (frame, rest) := by
  obtain ⟨channel, body, hbody⟩ := frame
  have hlength : (UInt16.ofNat body.length).toNat = body.length := by
    rw [UInt16.toNat_ofNat', Nat.mod_eq_of_lt hbody]
  simp [next, encode, tcpFrame, List.append_assoc, hlength]

theorem next_append {stream : Bytes} {frame : InterleavedFrame} {rest : Bytes}
    (h : next stream = some (frame, rest)) (more : Bytes) :
    next (stream ++ more) = some (frame, rest ++ more) := by
  match stream with
  | [] | [_] | [_, _] | [_, _, _] => simp [next, readByte, readShort] at h
  | magic :: channel :: b₁ :: b₀ :: body =>
    simp only [List.cons_append, next, readByte_cons, readShort, Option.bind_eq_bind,
      Option.bind_some, Option.ite_none_right_eq_some, Option.some.injEq, Prod.mk.injEq] at h ⊢
    obtain ⟨⟨hmagic, hlength⟩, rfl, rfl⟩ := h
    refine ⟨⟨hmagic, ?_⟩, ?_, List.drop_append_of_le_length hlength⟩
    · rw [List.length_append]
      omega
    · simp only [List.take_append_of_le_length hlength]

/-- The framing of the connection as a record code. -/
def code : RecordCode InterleavedFrame UInt8 where
  encode := encode
  next := next
  encode_ne_nil _ := List.cons_ne_nil _ _
  next_encode := next_encode
  next_append := next_append

instance : Nonempty InterleavedFrame := ⟨⟨0, [], by decide⟩⟩

end InterleavedFrame

/-- Every frame of a connection; `none` when it does not deframe without remainder. -/
def deframe (stream : Bytes) : Option (List InterleavedFrame) :=
  decodeAll InterleavedFrame.code stream

/-! ## Packets -/

/-- What one frame of the sender carries. -/
inductive Packet where
  | rtp (header : RtpHeader) (payload : Bytes)
  | sr (report : RtcpHeader)
  deriving DecidableEq, Repr

namespace Packet

def channel : Packet → UInt8
  | rtp _ _ => 0
  | sr _ => 1

def body : Packet → Bytes
  | rtp header payload => header.bytes ++ payload
  | sr report => report.bytes

/-- Interpret the body of a frame by its channel. -/
def read (frame : InterleavedFrame) : Option Packet :=
  if frame.channel = 0 then
    (RtpHeader.read frame.body).map fun parts ↦ rtp parts.1 parts.2
  else if frame.channel = 1 then (RtcpHeader.read frame.body).map sr
  else none

/-- The constants a receiver of this stream relies on, and a payload that fits one frame. -/
def WellFormed : Packet → Prop
  | rtp header payload =>
    header.version = rtpVersion ∧ header.payloadType = rtpPayloadTypeH264 ∧
      payload.length ≤ rtpMtu
  | sr report => report.WellFormed

theorem WellFormed.body_lt {packet : Packet} (h : packet.WellFormed) :
    packet.body.length < 2 ^ 16 := by
  cases packet with
  | rtp header payload =>
    have hpayload := h.2.2
    simp only [body, List.length_append, RtpHeader.length_bytes, rtpMtu] at hpayload ⊢
    omega
  | sr report => simp [body]

def frame (packet : Packet) (h : packet.WellFormed) : InterleavedFrame :=
  ⟨packet.channel, packet.body, h.body_lt⟩

theorem read_frame (packet : Packet) (h : packet.WellFormed) :
    read (packet.frame h) = some packet := by
  cases packet with
  | rtp header payload => simp [read, frame, channel, body]
  | sr report => simp [read, frame, channel, body, RtcpHeader.read_bytes report h]

/-- The buffer handed to `send` for a packet. -/
def buffer (packet : Packet) : Bytes := tcpFrame packet.channel packet.body

theorem encode_frame (packet : Packet) (h : packet.WellFormed) :
    InterleavedFrame.code.encode (packet.frame h) = packet.buffer := rfl

theorem deframe_buffer (packet : Packet) (h : packet.WellFormed) :
    deframe packet.buffer = some [packet.frame h] := by
  have hall := decodeAll_encodeAll InterleavedFrame.code [packet.frame h]
  simpa [deframe, encode_frame packet h] using hall

theorem encodeAll_pmap_frame (packets : List Packet) (h : ∀ packet ∈ packets, packet.WellFormed) :
    encodeAll InterleavedFrame.code (packets.pmap frame h) = packets.flatMap buffer := by
  induction packets with
  | nil => rfl
  | cons packet packets ih =>
    rw [List.pmap_cons, encodeAll_cons, ih, List.flatMap_cons, encode_frame]

theorem filterMap_read_pmap_frame (packets : List Packet)
    (h : ∀ packet ∈ packets, packet.WellFormed) :
    (packets.pmap frame h).filterMap read = packets := by
  induction packets with
  | nil => rfl
  | cons packet packets ih =>
    rw [List.pmap_cons, List.filterMap_cons_some (read_frame packet _), ih]

/-- The packets of a connection can be told from its bytes. -/
theorem flatMap_buffer_injective {packets packets' : List Packet}
    (h : ∀ packet ∈ packets, packet.WellFormed) (h' : ∀ packet ∈ packets', packet.WellFormed)
    (hbytes : packets.flatMap buffer = packets'.flatMap buffer) : packets = packets' := by
  have hframes : packets.pmap frame h = packets'.pmap frame h' := by
    apply encodeAll_injective InterleavedFrame.code
    rw [encodeAll_pmap_frame, encodeAll_pmap_frame, hbytes]
  calc packets = (packets.pmap frame h).filterMap read := (filterMap_read_pmap_frame packets h).symm
    _ = (packets'.pmap frame h').filterMap read := by rw [hframes]
    _ = packets' := filterMap_read_pmap_frame packets' h'

end Packet

end RtpSender.Wire
