import RtpSender.Session.TimeBase

/-!
# The pace of sender reports

`sendFrame` emits a report when the time of its frame is a second or more past `lastRtcpPts_`,
which it then sets to this time.  So reports are at least a second of media time apart, and after
every call the last one is less than a second old.  The report of a call comes behind the packets of
its frame and carries their timestamp.
-/

open RtpSender.Emitter RtpSender.Wire RtpSender.History

namespace RtpSender.RtpSendingSession

def isReport : Packet → Bool
  | .rtp _ _ => false
  | .sr _ => true

variable (toTimestamp : ℤ → UInt32)

/-- The call emits a sender report. -/
def emitsReport (input : FrameInput) (s : Session) : Bool :=
  (sentPackets (sendFrame toTimestamp input s).2).any isReport

/-- The times of the frames of a run that emit a report. -/
def reportTimes : List FrameInput → Session → List ℤ
  | [], _ => []
  | input :: inputs, s =>
    (if emitsReport toTimestamp input s then [input.pts] else []) ++
      reportTimes inputs (sendFrame toTimestamp input s).1

/-- RTP packets first, then at most one report, all with one timestamp. -/
def OneReportLast (packets : List Packet) : Prop :=
  ∃ rtp reports, packets = rtp ++ reports ∧ (∀ packet ∈ rtp, isReport packet = false) ∧
    (∀ packet ∈ reports, isReport packet = true) ∧ reports.length ≤ 1 ∧
    ∃ timestamp, ∀ packet ∈ packets, timestampOf packet = timestamp

/-- The pace of the reports in a run from `s` on. -/
structure Paced (inputs : List FrameInput) (s : Session) : Prop where
  calls : HistoryForall (fun before input ↦ OneReportLast
    (sentPackets (sendFrame toTimestamp input (sendFrames toTimestamp before s).1).2)) inputs
  spacing : (reportTimes toTimestamp inputs s).Pairwise
    fun earlier later ↦ 1000000 ≤ later - earlier
  recent : HistoryForall (fun before input ↦
    input.pts - (reportTimes toTimestamp (before ++ [input]) s).getLastD 0 < 1000000) inputs

/-! ## One call -/

theorem isReport_of_mem_sendRtpPackets {data : Bytes} {timestamp : UInt32} {s : Session}
    {packet : Packet}
    (h : packet ∈ sentPackets (sendRtpPackets (framePackets data) timestamp s).2) :
    isReport packet = false := by
  obtain ⟨header, payload, marker, rfl, -⟩ :=
    exists_of_mem_sentPackets (fun _ ↦ length_le_of_mem_framePackets) h
  rfl

theorem oneReportLast_sendFrame (input : FrameInput) (s : Session) :
    OneReportLast (sentPackets (sendFrame toTimestamp input s).2) := by
  obtain ⟨s', hpackets⟩ := sentPackets_sendFrame toTimestamp input s
  refine ⟨_, _, hpackets, fun _ ↦ isReport_of_mem_sendRtpPackets, ?_, ?_, _,
    timestampOf_sendFrame toTimestamp input s⟩
  · split
    · simp [isReport]
    · simp
  · split
    · exact Nat.le_refl 1
    · exact Nat.zero_le 1

theorem emitsReport_iff (input : FrameInput) (s : Session) :
    emitsReport toTimestamp input s = true ↔ input.pts - s.lastRtcpPts ≥ 1000000 := by
  obtain ⟨s', hpackets⟩ := sentPackets_sendFrame toTimestamp input s
  have hrtp : (sentPackets (sendRtpPackets (framePackets input.data)
      (frameTimestamp toTimestamp input s) (latchBase input.pts s)).2).any isReport =
        false := by
    rw [List.any_eq_false]
    intro packet hmem
    rw [isReport_of_mem_sendRtpPackets hmem]
    exact Bool.false_ne_true
  rw [emitsReport, hpackets, List.any_append, hrtp, Bool.false_or]
  split
  · exact iff_of_true rfl ‹_›
  · exact iff_of_false Bool.false_ne_true ‹_›

/-! ## Runs -/

theorem reportTimes_concat (inputs : List FrameInput) (input : FrameInput) (s : Session) :
    reportTimes toTimestamp (inputs ++ [input]) s =
      reportTimes toTimestamp inputs s ++
        if emitsReport toTimestamp input (sendFrames toTimestamp inputs s).1 then [input.pts]
        else [] := by
  induction inputs generalizing s with
  | nil =>
    simp only [reportTimes, List.nil_append, List.append_nil]
    rfl
  | cons first inputs ih =>
    rw [List.cons_append, reportTimes, reportTimes, ih, List.append_assoc]
    rfl

/-- The session remembers the time of the last report. -/
theorem sendFrames_lastRtcpPts (inputs : List FrameInput) (s : Session) :
    (sendFrames toTimestamp inputs s).1.lastRtcpPts =
      (reportTimes toTimestamp inputs s).getLastD s.lastRtcpPts := by
  induction inputs using List.reverseRecOn with
  | nil => rfl
  | append_singleton inputs input ih =>
    have hlast : (sendFrames toTimestamp (inputs ++ [input]) s).1 =
        (sendFrame toTimestamp input (sendFrames toTimestamp inputs s).1).1 := by
      rw [sendFrames, forEach_append, andThen_fst, forEach_singleton]
      rfl
    rw [hlast, sendFrame_lastRtcpPts, reportTimes_concat]
    simp only [emitsReport_iff]
    split
    · rw [List.getLastD_concat]
    · rw [List.append_nil, ih]

theorem spacing_reportTimes (inputs : List FrameInput) (s : Session) :
    (reportTimes toTimestamp inputs s).Pairwise
      (fun earlier later ↦ 1000000 ≤ later - earlier) := by
  induction inputs using List.reverseRecOn with
  | nil => exact .nil
  | append_singleton inputs input ih =>
    rw [reportTimes_concat]
    split
    · next hdue =>
      rw [emitsReport_iff, sendFrames_lastRtcpPts] at hdue
      rw [List.pairwise_append]
      refine ⟨ih, List.pairwise_singleton _ _, ?_⟩
      intro earlier hearlier later hlater
      rw [List.mem_singleton.mp hlater]
      -- the last report is the latest of the earlier ones
      obtain ⟨init, last, hlast⟩ := List.eq_nil_or_concat' (reportTimes toTimestamp inputs s)
        |>.resolve_left (List.ne_nil_of_mem hearlier)
      rw [hlast, List.getLastD_concat] at hdue
      rw [hlast, List.pairwise_append] at ih
      rw [hlast] at hearlier
      rcases List.mem_append.mp hearlier with hinit | hsame
      · have hbefore := ih.2.2 earlier hinit last (List.mem_singleton_self last)
        omega
      · rw [List.mem_singleton.mp hsame]
        omega
    · rw [List.append_nil]
      exact ih

theorem recent_reportTimes (inputs : List FrameInput) (input : FrameInput) (s : Session) :
    input.pts - (reportTimes toTimestamp (inputs ++ [input]) s).getLastD s.lastRtcpPts <
      1000000 := by
  rw [reportTimes_concat]
  split
  · rw [List.getLastD_concat]
    omega
  · next hnot =>
    rw [emitsReport_iff, sendFrames_lastRtcpPts] at hnot
    rw [List.append_nil]
    omega

/-- **Pacing.** In every run of a session started after construction, whatever the times of the
frames, the reports keep their pace. -/
theorem paced_sendFrames (rtpPort : ℤ) (rtpSsrc : UInt32) (ip : String) (port : ℤ)
    (streamId : String) (outcome : StartOutcome) (inputs : List FrameInput) :
    Paced toTimestamp inputs
      (start ip port streamId outcome (Session.construct rtpPort rtpSsrc)).1.1 := by
  have hinit : (start ip port streamId outcome
      (Session.construct rtpPort rtpSsrc)).1.1.lastRtcpPts = 0 := by
    rw [start_session]
    rfl
  constructor
  · intro before input after _
    exact oneReportLast_sendFrame toTimestamp input _
  · exact spacing_reportTimes toTimestamp inputs _
  · intro before input after _
    have hrecent := recent_reportTimes toTimestamp before input
      (start ip port streamId outcome (Session.construct rtpPort rtpSsrc)).1.1
    rwa [hinit] at hrecent

end RtpSender.RtpSendingSession
