import RtpSender.Foundation.Threads
import RtpSender.Main.Dispatch

/-!
# The member functions with their locks

`sendFrame`, `setCallback` and `pushFrame` as several threads run them: `sendFrame` holds
`sendMutex_` of its session, `setCallback` and `pushFrame` hold `mutex_` of their source, and the
callback of a source runs while the source is locked.  Every access to the members of an object is
a step of its own.

Two things of the source are left out.  `start` and `stop` access the members of a session without
any lock and are not among the calls: `main` makes them before and after.  A callback may be any
function in the source; here it calls `sendFrame` of one session, as the lambda of `main` does.

Run by a single thread the code of a call does what the call does in the sequential model
(`solo_code`), and every call is two-phase with the locks of sources below those of sessions
(`growing_code`).
-/

open RtpSender.Emitter RtpSender.Threads RtpSender.Wire
open RtpSender.RtpSendingSession (FrameInput Session Syscall Timeval fuHeaderEnd fuHeaderMid
  fuHeaderStart fuIndicator findEnd latch latchBase le_findEnd reportIfDue reportIfDue_of_due
  reportIfDue_of_not_due rtpHeader sendFrame_eq_andThen startCodeAt)
open RtpSender.Source (CustomFramedSource Frame evicted maxQueueSize withRoom)
open RtpSender.Main (Action Program)

namespace RtpSender.Locking

/-! ## Objects -/

/-- The mutexes, one for each source and one for each session. -/
inductive Lock (channels : ℕ) where
  | source (chn : Fin channels)
  | session (chn : Fin channels)
  deriving DecidableEq

/-- A source with the frames that it has dropped, or a session with its system calls. -/
abbrev Object (channels : ℕ) : Lock channels → Type
  | .source _ => CustomFramedSource (Fin channels) × List Frame
  | .session _ => Session × List Syscall

abbrev State (channels : ℕ) := ∀ lock, Object channels lock

def Lock.rank {channels : ℕ} : Lock channels → ℕ
  | .source _ => 0
  | .session _ => 1

theorem source_ne_session {channels : ℕ} (chn chn' : Fin channels) :
    (.source chn : Lock channels) ≠ .session chn' := fun heq ↦ nomatch heq

/-- A program on an object that keeps its events. -/
def recorded {σ ε : Type} (program : Emit σ ε) (object : σ × List ε) : σ × List ε :=
  ((program object.1).1, object.2 ++ (program object.1).2)

variable {channels : ℕ} (chn : Fin channels)

def onSession (program : Emit Session Syscall) (next : Session → Code (Object channels)) :
    Code (Object channels) :=
  .act (.session chn) (recorded program) fun found ↦ next found.1

def onSource (program : Emit (CustomFramedSource (Fin channels)) Frame)
    (next : CustomFramedSource (Fin channels) → Code (Object channels)) : Code (Object channels) :=
  .act (.source chn) (recorded program) fun found ↦ next found.1

/-! ## Sessions -/

def sendRtpPacket (payload : Bytes) (marker : Bool) (timestamp : UInt32)
    (next : Code (Object channels)) : Code (Object channels) :=
  onSession chn (fun s ↦ ({ s with rtpSeq := s.rtpSeq + 1 }, [])) fun counted ↦
  onSession chn skip fun s ↦
  let header := { rtpHeader counted marker timestamp with ssrc := s.rtpSsrc }
  onSession chn (fun s ↦ (s, [.send s.tcpSock (tcpFrame 0 (header.bytes ++ payload))])) fun _ ↦
  onSession chn (fun s ↦ ({ s with pktCount := s.pktCount + 1 }, [])) fun _ ↦
  onSession chn (fun s ↦
    ({ s with octetCount := s.octetCount + UInt32.ofNat payload.length }, [])) fun _ ↦
  next

def sendRtcpSr (timestamp : UInt32) (now : Timeval) (next : Code (Object channels)) :
    Code (Object channels) :=
  onSession chn skip fun identified ↦
  onSession chn skip fun packets ↦
  onSession chn skip fun octets ↦
  let report := { RtpSendingSession.senderReport identified timestamp now with
    packetCount := packets.pktCount
    octetCount := octets.octetCount }
  onSession chn (fun s ↦ (s, [.send s.tcpSock (tcpFrame 1 report.bytes)])) fun _ ↦
  next

def fragmentLoop (nalu : Bytes) (size : ℕ) (nalHeader : UInt8) (timestamp : UInt32) (pos : ℕ)
    (next : Code (Object channels)) : Code (Object channels) :=
  if pos < size then
    let remaining := size - pos
    let payloadLen := min remaining (rtpMtu - 2)
    let fuHeader :=
      if pos = 1 then fuHeaderStart nalHeader
      else if remaining - payloadLen = 0 then fuHeaderEnd nalHeader
      else fuHeaderMid nalHeader
    let buf := fuIndicator nalHeader :: fuHeader :: (nalu.drop pos).take payloadLen
    sendRtpPacket chn buf (fuHeader &&& 0x40 != 0) timestamp
      (fragmentLoop nalu size nalHeader timestamp (pos + payloadLen) next)
  else next
termination_by size - pos
decreasing_by simp only [rtpMtu]; omega

def packetizeAndSendNalu (nalu : Bytes) (size : ℕ) (timestamp : UInt32)
    (next : Code (Object channels)) : Code (Object channels) :=
  let nalHeader := nalu.headD 0
  if size ≤ rtpMtu then sendRtpPacket chn (nalu.take size) true timestamp next
  else fragmentLoop chn nalu size nalHeader timestamp 1 next

variable (toTimestamp : ℤ → UInt32)

def parseLoop (data : Bytes) (pts : ℤ) (pos : ℕ) (next : Code (Object channels)) :
    Code (Object channels) :=
  if hpos : pos + 4 < data.length then
    if startCodeAt data pos then
      let start := pos + 4
      have _hend : pos + 4 ≤ findEnd data (pos + 4) := le_findEnd data (pos + 4) hpos.le
      onSession chn skip fun s ↦
      packetizeAndSendNalu chn (data.drop start) (findEnd data start - start)
        (toTimestamp (pts - s.basePts)) (parseLoop data pts (findEnd data start) next)
    else parseLoop data pts (pos + 1) next
  else next
termination_by data.length - pos

/-- What `sendFrame` does after it has set `basePts_`. -/
def sendTimed (input : FrameInput) (next : Code (Object channels)) : Code (Object channels) :=
  onSession chn skip fun s ↦
  let timestamp := toTimestamp (input.pts - s.basePts)
  parseLoop chn toTimestamp input.data input.pts 0 <|
  onSession chn skip fun s ↦
  if input.pts - s.lastRtcpPts ≥ 1000000 then
    sendRtcpSr chn timestamp input.now <|
    onSession chn (fun s ↦ ({ s with lastRtcpPts := input.pts }, [])) fun _ ↦
    next
  else next

def sendFrame (input : FrameInput) (next : Code (Object channels)) : Code (Object channels) :=
  .acquire (.session chn) <|
  onSession chn skip fun s ↦
  let unlock := .release (.session chn) next
  if s.basePts < 0 then
    onSession chn (fun s ↦ ({ s with basePts := input.pts }, [])) fun _ ↦
    sendTimed chn toTimestamp input unlock
  else sendTimed chn toTimestamp input unlock

/-! ## Sources -/

def setCallback (callback : Option (Fin channels)) : Code (Object channels) :=
  .acquire (.source chn) <|
  onSource chn (fun s ↦ ({ s with callback := callback }, [])) fun _ ↦
  .release (.source chn) .done

/-- `deliverNext` calls the callback on the front of the queue before it removes it. -/
def deliverNext (now : Timeval) (next : Code (Object channels)) : Code (Object channels) :=
  onSource chn skip fun s ↦
  match s.callback with
  | none => next
  | some callback =>
    onSource chn skip fun s ↦
    match s.frameQueue with
    | [] => next
    | frame :: _ =>
      sendFrame callback toTimestamp ⟨frame.buff, frame.pts, now⟩ <|
      onSource chn (fun s ↦ ({ s with frameQueue := s.frameQueue.tail }, [])) fun _ ↦
      next

/-- What `pushFrame` does once there is room. -/
def enqueue (frame : Frame) (now : Timeval) (next : Code (Object channels)) :
    Code (Object channels) :=
  onSource chn (fun s ↦ ({ s with frameQueue := s.frameQueue ++ [frame] }, [])) fun _ ↦
  deliverNext chn toTimestamp now next

def pushFrame (data : Bytes) (pts number streamType frameType : ℤ) (now : Timeval) :
    Code (Object channels) :=
  .acquire (.source chn) <|
  onSource chn skip fun s ↦
  let unlock := .release (.source chn) .done
  let frame := ⟨data, pts, number, streamType, frameType⟩
  if s.frameQueue.length ≥ maxQueueSize then
    onSource chn (fun s ↦ ({ s with frameQueue := s.frameQueue.tail }, s.frameQueue.take 1)) fun _ ↦
    enqueue chn toTimestamp frame now unlock
  else enqueue chn toTimestamp frame now unlock

/-! ## Calls -/

/-- The calls that threads may make at the same time.  A callback is the channel whose session it
sends on. -/
inductive Call (channels : ℕ) where
  | sendFrame (chn : Fin channels) (input : FrameInput)
  | setCallback (chn : Fin channels) (callback : Option (Fin channels))
  | pushFrame (chn : Fin channels) (data : Bytes) (pts number streamType frameType : ℤ)
      (now : Timeval)

def Call.code : Call channels → Code (Object channels)
  | .sendFrame chn input => Locking.sendFrame chn toTimestamp input .done
  | .setCallback chn callback => Locking.setCallback chn callback
  | .pushFrame chn data pts number streamType frameType now =>
    Locking.pushFrame chn toTimestamp data pts number streamType frameType now

/-! ## A single thread -/

/-- The session of a channel runs a program. -/
def applySession (program : Emit Session Syscall) (state : State channels) : State channels :=
  Function.update state (.session chn) (recorded program (state (.session chn)))

def applySource (program : Emit (CustomFramedSource (Fin channels)) Frame)
    (state : State channels) : State channels :=
  Function.update state (.source chn) (recorded program (state (.source chn)))

variable {chn toTimestamp}

theorem solo_onSession (program : Emit Session Syscall) (next : Session → Code (Object channels))
    (state : State channels) :
    (onSession chn program next).solo state =
      (next (state (.session chn)).1).solo (applySession chn program state) := rfl

theorem applySession_session (program : Emit Session Syscall) (state : State channels) :
    applySession chn program state (.session chn) = recorded program (state (.session chn)) :=
  Function.update_self _ _ _

theorem applySession_of_ne (program : Emit Session Syscall) (state : State channels)
    {lock : Lock channels} (h : lock ≠ .session chn) :
    applySession chn program state lock = state lock := Function.update_of_ne h _ _

theorem applySession_skip (state : State channels) : applySession chn skip state = state := by
  unfold applySession recorded
  simp

theorem applySession_andThen (first second : Emit Session Syscall) (state : State channels) :
    applySession chn (andThen first second) state =
      applySession chn second (applySession chn first state) := by
  simp [applySession, recorded, andThen_apply]

variable {next : Code (Object channels)} {state : State channels}

theorem solo_sendRtpPacket (payload : Bytes) (marker : Bool) (timestamp : UInt32) :
    (sendRtpPacket chn payload marker timestamp next).solo state =
      next.solo (applySession chn (RtpSendingSession.sendRtpPacket payload marker timestamp)
        state) := by
  unfold sendRtpPacket
  simp only [solo_onSession]
  simp [applySession, recorded, RtpSendingSession.sendRtpPacket, rtpHeader]

theorem solo_sendRtcpSr (timestamp : UInt32) (now : Timeval) :
    (sendRtcpSr chn timestamp now next).solo state =
      next.solo (applySession chn (RtpSendingSession.sendRtcpSr timestamp now) state) := by
  unfold sendRtcpSr
  simp only [solo_onSession]
  simp [applySession, recorded, RtpSendingSession.sendRtcpSr, RtpSendingSession.senderReport]

theorem solo_fragmentLoop (nalu : Bytes) (size : ℕ) (nalHeader : UInt8) (timestamp : UInt32)
    (pos : ℕ) :
    (fragmentLoop chn nalu size nalHeader timestamp pos next).solo state =
      next.solo (applySession chn
        (RtpSendingSession.fragmentLoop nalu size nalHeader timestamp pos) state) := by
  fun_induction fragmentLoop chn nalu size nalHeader timestamp pos next generalizing state with
  | case1 pos hpos remaining payloadLen fuHeader buf =>
    rename_i ih
    conv_rhs => rw [RtpSendingSession.fragmentLoop, if_pos hpos, applySession_andThen]
    rw [solo_sendRtpPacket, ih]
    rfl
  | case2 pos hpos =>
    conv_rhs => rw [RtpSendingSession.fragmentLoop, if_neg hpos, applySession_skip]

theorem solo_packetizeAndSendNalu (nalu : Bytes) (size : ℕ) (timestamp : UInt32) :
    (packetizeAndSendNalu chn nalu size timestamp next).solo state =
      next.solo (applySession chn (RtpSendingSession.packetizeAndSendNalu nalu size timestamp)
        state) := by
  unfold packetizeAndSendNalu RtpSendingSession.packetizeAndSendNalu
  split
  · exact solo_sendRtpPacket _ _ _
  · exact solo_fragmentLoop _ _ _ _ _

theorem solo_parseLoop (data : Bytes) (pts : ℤ) (pos : ℕ) :
    (parseLoop chn toTimestamp data pts pos next).solo state =
      next.solo (applySession chn (RtpSendingSession.parseLoop toTimestamp data pts pos)
        state) := by
  fun_induction parseLoop chn toTimestamp data pts pos next generalizing state with
  | case1 pos hpos hcode start hend =>
    rename_i ih
    conv_rhs => rw [RtpSendingSession.parseLoop, dif_pos hpos, if_pos hcode, applySession_andThen]
    rw [solo_onSession, applySession_skip, solo_packetizeAndSendNalu, ih]
    rfl
  | case2 pos hpos hcode ih =>
    conv_rhs => rw [RtpSendingSession.parseLoop, dif_pos hpos, if_neg hcode]
    exact ih
  | case3 pos hpos =>
    conv_rhs => rw [RtpSendingSession.parseLoop, dif_neg hpos, applySession_skip]

/-- What `sendFrame` does after it has set `basePts_`. -/
def timed (toTimestamp : ℤ → UInt32) (input : FrameInput) : Emit Session Syscall := fun s ↦
  andThen (RtpSendingSession.parseAndSendFrame toTimestamp input.data input.pts)
    (reportIfDue (toTimestamp (input.pts - s.basePts)) input) s

theorem sendFrame_eq_timed (input : FrameInput) :
    RtpSendingSession.sendFrame toTimestamp input =
      andThen (latch input.pts) (timed toTimestamp input) := sendFrame_eq_andThen toTimestamp input

theorem applySession_congr {program program' : Emit Session Syscall}
    (h : program (state (.session chn)).1 = program' (state (.session chn)).1) :
    applySession chn program state = applySession chn program' state := by
  unfold applySession recorded
  rw [h]

theorem solo_sendTimed (input : FrameInput) :
    (sendTimed chn toTimestamp input next).solo state =
      next.solo (applySession chn (timed toTimestamp input) state) := by
  have hsplit : applySession chn (timed toTimestamp input) state =
      applySession chn (reportIfDue (toTimestamp (input.pts - (state (.session chn)).1.basePts))
        input) (applySession chn
          (RtpSendingSession.parseLoop toTimestamp input.data input.pts 0) state) :=
    applySession_andThen _ _ _
  unfold sendTimed
  rw [hsplit, solo_onSession, applySession_skip, solo_parseLoop, solo_onSession, applySession_skip]
  generalize applySession chn (RtpSendingSession.parseLoop toTimestamp input.data input.pts 0)
    state = parsed
  generalize toTimestamp (input.pts - (state (.session chn)).1.basePts) = timestamp
  by_cases hdue : input.pts - (parsed (.session chn)).1.lastRtcpPts ≥ 1000000
  · rw [if_pos hdue, solo_sendRtcpSr, solo_onSession,
      applySession_congr (reportIfDue_of_due hdue), applySession_andThen]
    rfl
  · rw [if_neg hdue, applySession_congr (reportIfDue_of_not_due hdue), applySession_skip]

theorem solo_sendFrame (input : FrameInput) :
    (sendFrame chn toTimestamp input next).solo state =
      next.solo (applySession chn (RtpSendingSession.sendFrame toTimestamp input) state) := by
  unfold sendFrame
  rw [Code.solo, solo_onSession, applySession_skip, sendFrame_eq_timed, applySession_andThen]
  by_cases hbase : (state (.session chn)).1.basePts < 0
  · have hlatch : applySession chn (latch input.pts) state =
        applySession chn (fun s ↦ ({ s with basePts := input.pts }, [])) state := by
      refine applySession_congr ?_
      rw [latch, latchBase, if_pos hbase]
    rw [if_pos hbase, solo_onSession, solo_sendTimed, Code.solo, hlatch]
  · have hlatch : applySession chn (latch input.pts) state = state := by
      refine (applySession_congr ?_).trans (applySession_skip state)
      rw [latch, latchBase, if_neg hbase]
      rfl
    rw [if_neg hbase, solo_sendTimed, Code.solo, hlatch]

theorem solo_onSource (program : Emit (CustomFramedSource (Fin channels)) Frame)
    (next : CustomFramedSource (Fin channels) → Code (Object channels)) (state : State channels) :
    (onSource chn program next).solo state =
      (next (state (.source chn)).1).solo (applySource chn program state) := rfl

theorem applySource_source (program : Emit (CustomFramedSource (Fin channels)) Frame)
    (state : State channels) :
    applySource chn program state (.source chn) = recorded program (state (.source chn)) :=
  Function.update_self _ _ _

theorem applySource_of_ne (program : Emit (CustomFramedSource (Fin channels)) Frame)
    (state : State channels) {lock : Lock channels} (h : lock ≠ .source chn) :
    applySource chn program state lock = state lock := Function.update_of_ne h _ _

theorem applySource_skip (state : State channels) : applySource chn skip state = state := by
  unfold applySource recorded
  simp

theorem applySource_andThen (first second : Emit (CustomFramedSource (Fin channels)) Frame)
    (state : State channels) :
    applySource chn (andThen first second) state =
      applySource chn second (applySource chn first state) := by
  simp [applySource, recorded, andThen_apply]

/-- What a push does before it delivers. -/
def roomed (frame : Frame) : Emit (CustomFramedSource (Fin channels)) Frame := fun s ↦
  ({ s with frameQueue := withRoom s.frameQueue ++ [frame] }, evicted s.frameQueue)

theorem solo_pushFrame (data : Bytes) (pts number streamType frameType : ℤ) (now : Timeval) :
    (pushFrame chn toTimestamp data pts number streamType frameType now).solo state =
      (deliverNext chn toTimestamp now (.release (.source chn) .done)).solo
        (applySource chn (roomed ⟨data, pts, number, streamType, frameType⟩) state) := by
  generalize hframe : (⟨data, pts, number, streamType, frameType⟩ : Frame) = frame
  have hroomed : (roomed frame : Emit (CustomFramedSource (Fin channels)) Frame) =
      andThen (fun s ↦ ({ s with frameQueue := withRoom s.frameQueue }, evicted s.frameQueue))
        fun s ↦ ({ s with frameQueue := s.frameQueue ++ [frame] }, []) := by
    funext s
    simp [roomed, andThen_apply]
  unfold pushFrame
  rw [Code.solo, solo_onSource, applySource_skip, hframe, hroomed, applySource_andThen]
  by_cases hfull : (state (.source chn)).1.frameQueue.length ≥ maxQueueSize
  · rw [if_pos hfull, solo_onSource]
    unfold enqueue
    rw [solo_onSource]
    simp [applySource, recorded, withRoom, evicted, hfull]
  · rw [if_neg hfull]
    unfold enqueue
    rw [solo_onSource]
    simp [applySource, recorded, withRoom, evicted, hfull]

theorem solo_deliverNext_of_no_callback (now : Timeval)
    (h : (state (.source chn)).1.callback = none) :
    (deliverNext chn toTimestamp now next).solo state = next.solo state := by
  unfold deliverNext
  rw [solo_onSource, applySource_skip, h]

/-- The frame leaves the queue after the callback has returned. -/
theorem solo_deliverNext_of_callback (now : Timeval) {callback : Fin channels} {frame : Frame}
    {rest : List Frame} (h : (state (.source chn)).1.callback = some callback)
    (hqueue : (state (.source chn)).1.frameQueue = frame :: rest) :
    (deliverNext chn toTimestamp now next).solo state =
      next.solo (applySource chn (fun s ↦ ({ s with frameQueue := s.frameQueue.tail }, []))
        (applySession callback
          (RtpSendingSession.sendFrame toTimestamp ⟨frame.buff, frame.pts, now⟩) state)) := by
  unfold deliverNext
  rw [solo_onSource, applySource_skip, h]
  dsimp only
  rw [solo_onSource, applySource_skip, hqueue]
  dsimp only
  rw [solo_sendFrame, solo_onSource]

/-! ## Two phases -/

section Phases

variable {held : Set (Lock channels)}

theorem growing_onSession {program : Emit Session Syscall}
    {next : Session → Code (Object channels)} (hheld : .session chn ∈ held)
    (h : ∀ s, (next s).Growing Lock.rank held) :
    (onSession chn program next).Growing Lock.rank held :=
  ⟨hheld, fun found ↦ h found.1⟩

theorem growing_onSource {program : Emit (CustomFramedSource (Fin channels)) Frame}
    {next : CustomFramedSource (Fin channels) → Code (Object channels)}
    (hheld : .source chn ∈ held) (h : ∀ s, (next s).Growing Lock.rank held) :
    (onSource chn program next).Growing Lock.rank held :=
  ⟨hheld, fun found ↦ h found.1⟩

theorem growing_sendRtpPacket (payload : Bytes) (marker : Bool) (timestamp : UInt32)
    (hheld : .session chn ∈ held) (h : next.Growing Lock.rank held) :
    (sendRtpPacket chn payload marker timestamp next).Growing Lock.rank held := by
  refine growing_onSession hheld fun _ ↦ ?_
  refine growing_onSession hheld fun _ ↦ ?_
  refine growing_onSession hheld fun _ ↦ ?_
  refine growing_onSession hheld fun _ ↦ ?_
  exact growing_onSession hheld fun _ ↦ h

theorem growing_sendRtcpSr (timestamp : UInt32) (now : Timeval)
    (hheld : .session chn ∈ held) (h : next.Growing Lock.rank held) :
    (sendRtcpSr chn timestamp now next).Growing Lock.rank held := by
  refine growing_onSession hheld fun _ ↦ ?_
  refine growing_onSession hheld fun _ ↦ ?_
  refine growing_onSession hheld fun _ ↦ ?_
  exact growing_onSession hheld fun _ ↦ h

theorem growing_fragmentLoop (nalu : Bytes) (size : ℕ) (nalHeader : UInt8) (timestamp : UInt32)
    (pos : ℕ) (hheld : .session chn ∈ held) (h : next.Growing Lock.rank held) :
    (fragmentLoop chn nalu size nalHeader timestamp pos next).Growing Lock.rank held := by
  fun_induction fragmentLoop chn nalu size nalHeader timestamp pos next with
  | case1 pos hpos remaining payloadLen fuHeader buf =>
    rename_i ih
    exact growing_sendRtpPacket _ _ _ hheld ih
  | case2 pos hpos => exact h

theorem growing_packetizeAndSendNalu (nalu : Bytes) (size : ℕ) (timestamp : UInt32)
    (hheld : .session chn ∈ held) (h : next.Growing Lock.rank held) :
    (packetizeAndSendNalu chn nalu size timestamp next).Growing Lock.rank held := by
  unfold packetizeAndSendNalu
  split
  · exact growing_sendRtpPacket _ _ _ hheld h
  · exact growing_fragmentLoop _ _ _ _ _ hheld h

theorem growing_parseLoop (data : Bytes) (pts : ℤ) (pos : ℕ) (hheld : .session chn ∈ held)
    (h : next.Growing Lock.rank held) :
    (parseLoop chn toTimestamp data pts pos next).Growing Lock.rank held := by
  fun_induction parseLoop chn toTimestamp data pts pos next with
  | case1 pos hpos hcode start hend =>
    rename_i ih
    exact growing_onSession hheld fun _ ↦ growing_packetizeAndSendNalu _ _ _ hheld ih
  | case2 pos hpos hcode ih => exact ih
  | case3 pos hpos => exact h

theorem growing_sendTimed (input : FrameInput) (hheld : .session chn ∈ held)
    (h : next.Growing Lock.rank held) :
    (sendTimed chn toTimestamp input next).Growing Lock.rank held := by
  refine growing_onSession hheld fun s ↦ growing_parseLoop _ _ _ hheld ?_
  refine growing_onSession hheld fun s' ↦ ?_
  split
  · exact growing_sendRtcpSr _ _ hheld (growing_onSession hheld fun _ ↦ h)
  · exact h

/-- A caller of `sendFrame` may hold locks of sources. -/
theorem growing_sendFrame (input : FrameInput)
    (hrank : ∀ other ∈ held, other.rank < (Lock.session chn).rank)
    (h : next.Shrinking (insert (.session chn) held \ {.session chn})) :
    (sendFrame chn toTimestamp input next).Growing Lock.rank held := by
  have hheld : Lock.session chn ∈ insert (.session chn) held := Set.mem_insert _ _
  have hunlock : (Code.release (.session chn) next).Growing Lock.rank
      (insert (.session chn) held) := ⟨hheld, h⟩
  refine ⟨hrank, growing_onSession hheld fun s ↦ ?_⟩
  split
  · exact growing_onSession hheld fun _ ↦ growing_sendTimed _ hheld hunlock
  · exact growing_sendTimed _ hheld hunlock

theorem shrinking_unlock (lock : Lock channels) :
    (Code.release lock .done : Code (Object channels)).Shrinking {lock} :=
  ⟨Set.mem_singleton _, Set.sdiff_self⟩

theorem growing_unlock (lock : Lock channels) :
    (Code.release lock .done : Code (Object channels)).Growing Lock.rank {lock} :=
  ⟨Set.mem_singleton _, Set.sdiff_self⟩

/-- The callback runs between two accesses to the queue of a locked source. -/
theorem growing_deliverNext (now : Timeval) :
    (deliverNext chn toTimestamp now (.release (.source chn) .done)).Growing Lock.rank
      {.source chn} := by
  refine growing_onSource (Set.mem_singleton _) fun s ↦ ?_
  cases s.callback with
  | none => exact growing_unlock _
  | some callback =>
    refine growing_onSource (Set.mem_singleton _) fun s' ↦ ?_
    cases s'.frameQueue with
    | nil => exact growing_unlock _
    | cons frame rest =>
      have hrank (other : Lock channels) (hother : other ∈ ({.source chn} : Set (Lock channels))) :
          other.rank < (Lock.session callback).rank := by
        rw [Set.mem_singleton_iff.mp hother]
        exact Nat.zero_lt_one
      have hkept : (insert (.session callback) {.source chn} \ {.session callback} :
          Set (Lock channels)) = {.source chn} := by
        rw [Set.insert_sdiff_self_of_notMem]
        exact fun hmem ↦ nomatch Set.mem_singleton_iff.mp hmem
      refine growing_sendFrame _ hrank ?_
      rw [hkept]
      exact ⟨Set.mem_singleton _, fun _ ↦ shrinking_unlock _⟩

/-- Every call acquires its locks, sources first, before it releases one. -/
theorem growing_code (call : Call channels) : (call.code toTimestamp).Growing Lock.rank ∅ := by
  have hnone (lock : Lock channels) : ∀ other ∈ (∅ : Set (Lock channels)),
      other.rank < lock.rank := fun other hother ↦ hother.elim
  have hheld (chn : Fin channels) : (insert (.source chn) ∅ : Set (Lock channels)) =
      {.source chn} := insert_empty_eq _
  cases call with
  | sendFrame chn input =>
    refine growing_sendFrame input (hnone _) ?_
    rw [insert_empty_eq]
    exact Set.sdiff_self
  | setCallback chn callback =>
    refine ⟨hnone _, ?_⟩
    rw [hheld]
    exact growing_onSource (Set.mem_singleton _) fun _ ↦ growing_unlock _
  | pushFrame chn data pts number streamType frameType now =>
    have henqueue (frame : Frame) :
        (enqueue chn toTimestamp frame now (.release (.source chn) .done)).Growing Lock.rank
          {.source chn} :=
      growing_onSource (Set.mem_singleton _) fun _ ↦ growing_deliverNext now
    refine ⟨hnone _, ?_⟩
    rw [hheld]
    refine growing_onSource (Set.mem_singleton _) fun s ↦ ?_
    split
    · exact growing_onSource (Set.mem_singleton _) fun _ ↦ henqueue _
    · exact henqueue _

end Phases

end RtpSender.Locking
