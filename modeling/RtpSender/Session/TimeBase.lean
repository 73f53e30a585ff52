import RtpSender.Foundation.History
import RtpSender.Session.Emission
import RtpSender.Session.Lifecycle

/-!
# The time base

`basePts_` starts at `-1`, and `sendFrame` takes every negative value for "not set".  A first frame
with a time of at least zero therefore fixes the base for the whole run, while after a negative
first time the base follows the input until a time is not negative.  All packets of one call carry
the same timestamp, which is relative to the base after latching.
-/

open RtpSender.Emitter RtpSender.Wire RtpSender.History

namespace RtpSender.RtpSendingSession

/-! ## Ticks -/

/-- `(delta / 1000000.0) * 90000` in exact arithmetic, cut towards zero as the cast does. -/
def ticks (delta : ℤ) : ℤ := (delta * 90000).tdiv 1000000

/-- The exact conversion where the cast to `uint32_t` is defined, on ticks from `0` to `2 ^ 32`. -/
def exactTimestamp (delta : ℤ) : UInt32 := UInt32.ofInt (ticks delta)

/-! ## One timestamp for each call -/

/-- The timestamp field of a packet of either channel. -/
def timestampOf : Packet → UInt32
  | .rtp header _ => header.timestamp
  | .sr report => report.rtpTimestamp

/-- Every packet sent so far carries the given timestamp. -/
def Stamped (timestamp : UInt32) (_ : Session) (calls : List Syscall) : Prop :=
  ∀ packet ∈ sentPackets calls, timestampOf packet = timestamp

theorem Stamped.send {timestamp : UInt32} {s s' : Session} {calls : List Syscall}
    (h : Stamped timestamp s calls) (fd : Option ℕ) {packet : Packet} (hpacket : packet.WellFormed)
    (htimestamp : timestampOf packet = timestamp) :
    Stamped timestamp s' (calls ++ [.send fd packet.buffer]) := by
  intro sent hsent
  rw [sentPackets_append, sentPackets_send fd packet hpacket] at hsent
  rcases List.mem_append.mp hsent with hold | hnew
  · exact h sent hold
  · rw [List.mem_singleton.mp hnew]
    exact htimestamp

variable (toTimestamp : ℤ → UInt32)

theorem timestampOf_sendFrame (input : FrameInput) (s : Session) (packet : Packet)
    (h : packet ∈ sentPackets (sendFrame toTimestamp input s).2) :
    timestampOf packet = frameTimestamp toTimestamp input s := by
  have hpackets : Preserves (Stamped (frameTimestamp toTimestamp input s))
      (sendRtpPackets (framePackets input.data) (frameTimestamp toTimestamp input s)) := by
    apply preserves_forEach
    intro planned hmem state calls hstamped
    exact hstamped.send state.tcpSock
      (rtpPacket_wellFormed state planned.2 _ (length_le_of_mem_framePackets hmem)) rfl
  have hreport : Preserves (Stamped (frameTimestamp toTimestamp input s))
      (if input.pts - s.lastRtcpPts ≥ 1000000 then
        sendReport (frameTimestamp toTimestamp input s) input
      else skip) := by
    split
    · intro state calls hstamped
      exact hstamped.send state.tcpSock (senderReport_wellFormed state _ input.now) rfl
    · exact preserves_skip
  have hcall := hpackets.andThen hreport (latchBase input.pts s) [] (by simp [Stamped])
  rw [sendFrame_eq] at h
  exact hcall packet h

/-! ## The base along a run -/

theorem latchBase_basePts (pts : ℤ) (s : Session) :
    (latchBase pts s).basePts = if s.basePts < 0 then pts else s.basePts := by
  rw [latchBase_eq]

/-- The base that a call works with is the one that it leaves behind. -/
theorem sendFrame_basePts (input : FrameInput) (s : Session) :
    (sendFrame toTimestamp input s).1.basePts = (latchBase input.pts s).basePts := by
  have hpackets := sendRtpPackets_basePts (framePackets input.data)
    (frameTimestamp toTimestamp input s) (latchBase input.pts s)
  rw [sendFrame_eq, andThen_fst]
  split
  · exact hpackets
  · exact hpackets

theorem sendFrames_concat_basePts (inputs : List FrameInput) (input : FrameInput) (s : Session) :
    (sendFrames toTimestamp (inputs ++ [input]) s).1.basePts =
      (latchBase input.pts (sendFrames toTimestamp inputs s).1).basePts := by
  rw [sendFrames, forEach_append, andThen_fst, forEach_singleton]
  exact sendFrame_basePts toTimestamp input _

/-- A base that is not negative stays, and so does one that all frames agree with. -/
theorem sendFrames_basePts (inputs : List FrameInput) (s : Session)
    (h : 0 ≤ s.basePts ∨ ∀ input ∈ inputs, input.pts = s.basePts) :
    (sendFrames toTimestamp inputs s).1.basePts = s.basePts := by
  induction inputs using List.reverseRecOn with
  | nil => rfl
  | append_singleton inputs input ih =>
    have hinputs : 0 ≤ s.basePts ∨ ∀ earlier ∈ inputs, earlier.pts = s.basePts :=
      h.imp_right fun hall earlier hmem ↦ hall earlier (List.mem_append_left _ hmem)
    rw [sendFrames_concat_basePts, latchBase_basePts, ih hinputs]
    rcases h with hset | hall
    · rw [if_neg (by omega)]
    · rw [hall input (by simp), ite_self]

/-- A session that was constructed and then started has no base yet. -/
theorem start_construct_basePts (rtpPort : ℤ) (rtpSsrc : UInt32) (ip : String) (port : ℤ)
    (streamId : String) (outcome : StartOutcome) :
    (start ip port streamId outcome (Session.construct rtpPort rtpSsrc)).1.1.basePts = -1 := by
  rw [start_session]
  rfl

theorem sendFrames_singleton_basePts (first : FrameInput) {s : Session} (hs : s.basePts < 0) :
    (sendFrames toTimestamp [first] s).1.basePts = first.pts := by
  rw [← List.nil_append [first], sendFrames_concat_basePts, latchBase_basePts]
  exact if_pos hs

/-- Without a base, the first frame becomes it and stays it if its time is not negative. -/
theorem historyForall_basePts {s : Session} (hs : s.basePts < 0) {first : FrameInput}
    {later : List FrameInput} (h : 0 ≤ first.pts ∨ ∀ input ∈ later, input.pts = first.pts) :
    HistoryForall (fun before input ↦
      (sendFrames toTimestamp (before ++ [input]) s).1.basePts = first.pts) (first :: later) := by
  have hfirst := sendFrames_singleton_basePts toTimestamp first hs
  refine historyForall_cons.mpr ⟨hfirst, ?_⟩
  rintro before input after rfl
  have hbefore : 0 ≤ first.pts ∨ ∀ earlier ∈ before ++ [input], earlier.pts = first.pts := by
    apply h.imp_right
    intro hall earlier hmem
    apply hall
    rcases List.mem_append.mp hmem with hold | hnew
    · exact List.mem_append_left _ hold
    · rw [List.mem_singleton.mp hnew]
      simp
  rw [← hfirst] at hbefore ⊢
  rw [← List.singleton_append, List.append_assoc, sendFrames, forEach_append, andThen_fst]
  exact sendFrames_basePts toTimestamp (before ++ [input]) _ hbefore

/-! ## The first frame as the time base -/

/-- From the first frame on, the base is its time and all timestamps are relative to it. -/
def BaseIsFirst (s : Session) (first : FrameInput) (later : List FrameInput) : Prop :=
  HistoryForall (fun before input ↦
    (sendFrames toTimestamp (before ++ [input]) s).1.basePts = first.pts ∧
      ∀ packet ∈ sentPackets (sendFrame toTimestamp input (sendFrames toTimestamp before s).1).2,
        timestampOf packet = toTimestamp (input.pts - first.pts)) (first :: later)

theorem baseIsFirst_of_basePts (s : Session) (first : FrameInput) (later : List FrameInput)
    (h : HistoryForall (fun before input ↦
      (sendFrames toTimestamp (before ++ [input]) s).1.basePts = first.pts) (first :: later)) :
    BaseIsFirst toTimestamp s first later := by
  intro before input after hsplit
  have hbase : (sendFrames toTimestamp (before ++ [input]) s).1.basePts = first.pts :=
    h before input after hsplit
  refine ⟨hbase, ?_⟩
  intro packet hpacket
  rw [sendFrames_concat_basePts] at hbase
  rw [timestampOf_sendFrame toTimestamp input _ packet hpacket, frameTimestamp, hbase]

/-- **The time base.** On a new session the first frame is the time base of the whole run exactly
when its time is not negative or all frames share it. -/
theorem baseIsFirst_iff (rtpPort : ℤ) (rtpSsrc : UInt32) (ip : String) (port : ℤ)
    (streamId : String) (outcome : StartOutcome) (first : FrameInput) (later : List FrameInput) :
    BaseIsFirst toTimestamp
        (start ip port streamId outcome (Session.construct rtpPort rtpSsrc)).1.1 first later ↔
      0 ≤ first.pts ∨ ∀ input ∈ later, input.pts = first.pts := by
  have hinit := start_construct_basePts rtpPort rtpSsrc ip port streamId outcome
  generalize (start ip port streamId outcome (Session.construct rtpPort rtpSsrc)).1.1 = s at hinit
  have hs : s.basePts < 0 := by omega
  constructor
  · intro hbase
    by_contra! hbad
    obtain ⟨hneg, input, hmem, hne⟩ := hbad
    obtain ⟨before, after, rfl⟩ := List.append_of_mem hmem
    -- the call before still works with the negative base, so this call replaces it
    have hprevious : (sendFrames toTimestamp (first :: before) s).1.basePts = first.pts := by
      rcases List.eq_nil_or_concat before with rfl | ⟨earlier, last, rfl⟩
      · exact sendFrames_singleton_basePts toTimestamp first hs
      · have hlast := (hbase (first :: earlier) last (input :: after) (by simp)).1
        simpa using hlast
    have hnow := (hbase (first :: before) input after rfl).1
    rw [sendFrames_concat_basePts, latchBase_basePts, hprevious, if_pos hneg] at hnow
    exact hne hnow
  · intro h
    exact baseIsFirst_of_basePts toTimestamp s first later (historyForall_basePts toTimestamp hs h)

/-- Frames at `-5` and `10` microseconds: the second call moves the base. -/
theorem not_baseIsFirst_negative :
    ¬ BaseIsFirst exactTimestamp
        (start "10.0.0.1" 9000 "cam" ⟨7, by decide, some 3, true⟩ (Session.construct 0 0)).1.1
        ⟨[0, 0, 0, 1, 0x65], -5, ⟨0, 0, by decide⟩⟩
        [⟨[0, 0, 0, 1, 0x65], 10, ⟨0, 0, by decide⟩⟩] := by
  intro h
  have hbase := (h [⟨[0, 0, 0, 1, 0x65], -5, ⟨0, 0, by decide⟩⟩]
    ⟨[0, 0, 0, 1, 0x65], 10, ⟨0, 0, by decide⟩⟩ [] rfl).1
  revert hbase
  decide +kernel

end RtpSender.RtpSendingSession
