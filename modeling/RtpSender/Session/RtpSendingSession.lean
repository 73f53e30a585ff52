import Mathlib.Data.Int.Notation
import Mathlib.Order.Basic
import RtpSender.Foundation.Emitter
import RtpSender.Session.Wire

/-!
# The sending session

A translation of `RTPSendingSession.cpp`.  Every member function maps the session to its successor
and to the system calls it makes.  What the world decides is an argument: the SSRC drawn and the
results of `socket` and `connect` in `start`, the clock reading in `sendFrame`.  The result of
`send` is not an argument, since the code discards it; `Transport` attaches results to the calls.

Presentation timestamps are integers, so differences are those of the code whenever they do not
overflow `int64_t`.  The conversion of a difference of microseconds to RTP ticks, which the source
computes in `double`, is the parameter `toTimestamp`.  A buffer is the list of its bytes; a pointer
into it is the suffix that starts there.
-/

open RtpSender.Emitter RtpSender.Wire

namespace RtpSender.RtpSendingSession

/-! ## The world -/

/-- A reading of `gettimeofday`. -/
structure Timeval where
  tvSec : ℕ
  tvUsec : ℕ
  tvUsec_lt : tvUsec < 1000000

/-- System calls with the results that the session looks at; `none` is the descriptor `-1`. -/
inductive Syscall where
  | socket (fd : Option ℕ)
  | connect (fd : ℕ) (address : UInt32) (port : UInt16) (ok : Bool)
  | close (fd : ℕ)
  | send (fd : Option ℕ) (buffer : Bytes)
  deriving DecidableEq

/-- What `start` gets from the random device and from the kernel. -/
structure StartOutcome where
  ssrc : UInt32
  ssrc_ne_zero : ssrc ≠ 0
  socketFd : Option ℕ
  connected : Bool

/-- One field of a dotted quad: one to three digits without a leading zero, at most 255. -/
def dottedField (digits : List Char) : Option ℕ :=
  let value := digits.foldl (fun value digit ↦ value * 10 + (digit.toNat - '0'.toNat)) 0
  if digits.all Char.isDigit ∧ digits.length ∈ [1, 2, 3] ∧
      (digits.head? = some '0' → digits.length = 1) ∧ value ≤ 255 then some value
  else none

/-- The address that `inet_pton` writes for a dotted quad; it writes nothing otherwise. -/
def inetPton (ip : List Char) : Option UInt32 :=
  match (ip.splitOn '.').mapM dottedField with
  | some [a, b, c, d] => some (UInt32.ofNat (a * 2 ^ 24 + b * 2 ^ 16 + c * 2 ^ 8 + d))
  | _ => none

/-- What a C function sees of a string: the characters up to the first null character. -/
def cStr (string : String) : List Char := string.toList.takeWhile fun char ↦ char.toNat != 0

/-! ## The session object -/

structure Session where
  tcpSock : Option ℕ
  serverIp : String
  rtpPort : ℤ
  streamId : String
  rtpSeq : UInt16
  rtpSsrc : UInt32
  basePts : ℤ
  pktCount : UInt32
  octetCount : UInt32
  lastRtcpPts : ℤ
  deriving DecidableEq

/-- The constructor sets the members with initialisers; `rtpPort_` and `rtpSsrc_` have none and
hold whatever the memory held. -/
def Session.construct (rtpPort : ℤ) (rtpSsrc : UInt32) : Session where
  tcpSock := none
  serverIp := ""
  rtpPort := rtpPort
  streamId := ""
  rtpSeq := 0
  rtpSsrc := rtpSsrc
  basePts := -1
  pktCount := 0
  octetCount := 0
  lastRtcpPts := 0

/-- The second component is the value that the function returns. -/
def createSockets (outcome : StartOutcome) (s : Session) : (Session × List Syscall) × Bool :=
  match outcome.socketFd with
  | none => (({ s with tcpSock := none }, [.socket none]), false)
  | some fd =>
    -- `servAddr` is zeroed and the result of `inet_pton` is not looked at
    let address := (inetPton (cStr s.serverIp)).getD 0
    let port := UInt16.ofInt s.rtpPort
    if outcome.connected then
      (({ s with tcpSock := some fd },
        [.socket (some fd), .connect fd address port true]), true)
    else
      (({ s with tcpSock := none },
        [.socket (some fd), .connect fd address port false, .close fd]), false)

def start (ip : String) (port : ℤ) (streamId : String) (outcome : StartOutcome) (s : Session) :
    (Session × List Syscall) × Bool :=
  createSockets outcome
    { s with serverIp := ip, rtpPort := port, streamId := streamId, rtpSsrc := outcome.ssrc }

/-- The destructor does the same. -/
def stop : Emit Session Syscall := fun s ↦
  match s.tcpSock with
  | some fd => ({ s with tcpSock := none }, [.close fd])
  | none => (s, [])

/-! ## Packets -/

def rtpHeader (s : Session) (marker : Bool) (timestamp : UInt32) : RtpHeader where
  vpxcc := rtpVersion <<< 6
  mpt := (if marker then 0x80 else 0x00) ||| (rtpPayloadTypeH264 &&& 0x7F)
  seq := s.rtpSeq
  timestamp := timestamp
  ssrc := s.rtpSsrc

def sendRtpPacket (payload : Bytes) (marker : Bool) (timestamp : UInt32) :
    Emit Session Syscall := fun s ↦
  let packet := (rtpHeader s marker timestamp).bytes ++ payload
  ({ s with
      rtpSeq := s.rtpSeq + 1
      pktCount := s.pktCount + 1
      octetCount := s.octetCount + UInt32.ofNat payload.length },
    [.send s.tcpSock (tcpFrame 0 packet)])

def senderReport (s : Session) (timestamp : UInt32) (now : Timeval) : RtcpHeader where
  versionPCount := rtpVersion <<< 6
  packetType := 200
  length := 6
  ssrc := s.rtpSsrc
  ntpSec := UInt32.ofNat (now.tvSec + 2208988800)
  ntpFrac := UInt32.ofNat (now.tvUsec * 2 ^ 32 / 1000000)
  rtpTimestamp := timestamp
  packetCount := s.pktCount
  octetCount := s.octetCount

def sendRtcpSr (timestamp : UInt32) (now : Timeval) : Emit Session Syscall := fun s ↦
  (s, [.send s.tcpSock (tcpFrame 1 (senderReport s timestamp now).bytes)])

/-! ## Fragmentation -/

def fuIndicator (nalHeader : UInt8) : UInt8 := (nalHeader &&& 0xE0) ||| 28
def fuHeaderStart (nalHeader : UInt8) : UInt8 := 0x80 ||| (nalHeader &&& 0x1F)
def fuHeaderMid (nalHeader : UInt8) : UInt8 := nalHeader &&& 0x1F
def fuHeaderEnd (nalHeader : UInt8) : UInt8 := 0x40 ||| (nalHeader &&& 0x1F)

/-- The `while (pos < size)` loop of `packetizeAndSendNalu`. -/
def fragmentLoop (nalu : Bytes) (size : ℕ) (nalHeader : UInt8) (timestamp : UInt32) (pos : ℕ) :
    Emit Session Syscall :=
  if pos < size then
    let remaining := size - pos
    let payloadLen := min remaining (rtpMtu - 2)
    let fuHeader :=
      if pos = 1 then fuHeaderStart nalHeader
      else if remaining - payloadLen = 0 then fuHeaderEnd nalHeader
      else fuHeaderMid nalHeader
    let buf := fuIndicator nalHeader :: fuHeader :: (nalu.drop pos).take payloadLen
    andThen (sendRtpPacket buf (fuHeader &&& 0x40 != 0) timestamp)
      (fragmentLoop nalu size nalHeader timestamp (pos + payloadLen))
  else skip
termination_by size - pos
decreasing_by simp only [rtpMtu]; omega

/-- `nalu` is the pointer into the frame, so `nalu[0]` exists even when `size` is zero. -/
def packetizeAndSendNalu (nalu : Bytes) (size : ℕ) (timestamp : UInt32) : Emit Session Syscall :=
  let nalHeader := nalu.headD 0
  if size ≤ rtpMtu then sendRtpPacket (nalu.take size) true timestamp
  else fragmentLoop nalu size nalHeader timestamp 1

/-! ## Frames -/

/-- The four comparisons that recognise `00 00 00 01` at a position. -/
def startCodeAt (data : Bytes) (pos : ℕ) : Bool :=
  data[pos]? == some 0x00 && data[pos + 1]? == some 0x00 && data[pos + 2]? == some 0x00 &&
    data[pos + 3]? == some 0x01

/-- The inner `for` loop of `parseAndSendFrame`, from `i` on. -/
def findEnd (data : Bytes) (i : ℕ) : ℕ :=
  if i + 4 < data.length then
    if startCodeAt data i then i else findEnd data (i + 1)
  else data.length
termination_by data.length - i

theorem le_findEnd (data : Bytes) (i : ℕ) (hi : i ≤ data.length) : i ≤ findEnd data i := by
  fun_induction findEnd data i with
  | case1 i => exact Nat.le_refl i
  | case2 i hlt _ ih =>
    have hstep := ih (by omega)
    omega
  | case3 => exact hi

variable (toTimestamp : ℤ → UInt32)

/-- The outer `while (pos + 4 < len)` loop of `parseAndSendFrame`. -/
def parseLoop (data : Bytes) (pts : ℤ) (pos : ℕ) : Emit Session Syscall :=
  if hpos : pos + 4 < data.length then
    if startCodeAt data pos then
      let start := pos + 4
      have hend : pos + 4 ≤ findEnd data (pos + 4) := le_findEnd data (pos + 4) (by omega)
      andThen
        (fun s ↦ packetizeAndSendNalu (data.drop start) (findEnd data start - start)
          (toTimestamp (pts - s.basePts)) s)
        (parseLoop data pts (findEnd data start))
    else parseLoop data pts (pos + 1)
  else skip
termination_by data.length - pos

def parseAndSendFrame (data : Bytes) (pts : ℤ) : Emit Session Syscall :=
  parseLoop toTimestamp data pts 0

/-- A call of `sendFrame`, with the clock reading that `sendRtcpSr` gets if it is reached. -/
structure FrameInput where
  data : Bytes
  pts : ℤ
  now : Timeval

def latchBase (pts : ℤ) (s : Session) : Session :=
  if s.basePts < 0 then { s with basePts := pts } else s

def sendFrame (input : FrameInput) : Emit Session Syscall := fun s₀ ↦
  let s := latchBase input.pts s₀
  let delta := input.pts - s.basePts
  let timestamp := toTimestamp delta
  let (s, frameCalls) := parseAndSendFrame toTimestamp input.data input.pts s
  if input.pts - s.lastRtcpPts ≥ 1000000 then
    let (s, reportCalls) := sendRtcpSr timestamp input.now s
    ({ s with lastRtcpPts := input.pts }, frameCalls ++ reportCalls)
  else (s, frameCalls)

/-! ## Runs -/

def sendFrames (inputs : List FrameInput) : Emit Session Syscall :=
  forEach (sendFrame toTimestamp) inputs

/-- The calls of the public interface. -/
inductive Operation where
  | start (ip : String) (port : ℤ) (streamId : String) (outcome : StartOutcome)
  | stop
  | sendFrame (input : FrameInput)

def Operation.perform : Operation → Emit Session Syscall
  | .start ip port streamId outcome => fun s ↦
      (RtpSendingSession.start ip port streamId outcome s).1
  | .stop => RtpSendingSession.stop
  | .sendFrame input => RtpSendingSession.sendFrame toTimestamp input

def history (operations : List Operation) : Emit Session Syscall :=
  forEach (Operation.perform toTimestamp) operations

end RtpSender.RtpSendingSession
