import RtpSender.Receiver.DoubleTimestamps
import RtpSender.Session.NtpTime
import RtpSender.Session.Pacing

/-!
# Dates of packets

A sender report names one moment twice, as an RTP timestamp and as an NTP time.  With any one report
of a run a receiver can therefore date every packet of the run, those before the report and those
after it.  The error is that of two timestamps and one NTP fraction together; it does not grow with
the distance to the report.
-/

open RtpSender.Emitter RtpSender.Wire RtpSender.History RtpSender.FixedPoint
open RtpSender.RtpSendingSession

namespace RtpSender.Receiver

/-! ## Dates -/

/-- The microseconds of a clock reading since the begin of its era. -/
def microsecondsOfEra (now : Timeval) : ℕ :=
  (now.tvSec + 2208988800) % 2 ^ 32 * 1000000 + now.tvUsec

/-- The date of a timestamp according to a report, in microseconds. -/
def wallClock (report : RtcpHeader) (timestamp : UInt32) : ℚ :=
  ntpTime report * 1000000 / 2 ^ 32 + ((timestamp.toNat : ℚ) - report.rtpTimestamp.toNat) * 100 / 9

/-- The NTP time of a report is less than a microsecond behind its clock reading. -/
theorem ntpTime_senderReport (s : Session) (timestamp : UInt32) (now : Timeval) :
    (ntpTime (senderReport s timestamp now) * 1000000 / 2 ^ 32 : ℚ) ≤ microsecondsOfEra now ∧
      (microsecondsOfEra now : ℚ) - 1000000 / 2 ^ 32 <
        ntpTime (senderReport s timestamp now) * 1000000 / 2 ^ 32 := by
  have hlow : (toFixed 1000000 (2 ^ 32) now.tvUsec * 1000000 / 2 ^ 32 : ℚ) ≤ now.tvUsec := by
    exact_mod_cast @toFixed_mul_div_le 1000000 (2 ^ 32) (by decide) now.tvUsec
  have hhigh : (now.tvUsec : ℚ) <
      toFixed 1000000 (2 ^ 32) now.tvUsec * 1000000 / 2 ^ 32 + 1000000 / 2 ^ 32 := by
    exact_mod_cast @lt_toFixed_mul_div 1000000 (2 ^ 32) (by decide) (by decide) now.tvUsec
  have hvalue : (ntpTime (senderReport s timestamp now) * 1000000 / 2 ^ 32 : ℚ) =
      ((now.tvSec + 2208988800) % 2 ^ 32 : ℕ) * 1000000 +
        toFixed 1000000 (2 ^ 32) now.tvUsec * 1000000 / 2 ^ 32 := by
    rw [ntpTime, senderReport_ntpSec, senderReport_ntpFrac]
    push_cast
    ring
  rw [hvalue, microsecondsOfEra]
  push_cast
  constructor <;> linarith

/-- Two timestamps that are on time are apart as far as the times they stand for, up to a tick. -/
theorem abs_ticks_sub_le {delta delta' : ℤ} {ticks ticks' : ℕ}
    (h : 100 * (ticks : ℤ) ≤ 9 * delta ∧ 9 * delta ≤ 100 * (ticks + 1))
    (h' : 100 * (ticks' : ℤ) ≤ 9 * delta' ∧ 9 * delta' ≤ 100 * (ticks' + 1)) :
    |((ticks : ℚ) - ticks') * 100 / 9 - (delta - delta')| ≤ 100 / 9 := by
  have hlow : (100 * ticks : ℚ) ≤ 9 * delta := by exact_mod_cast h.1
  have hhigh : (9 * delta : ℚ) ≤ 100 * (ticks + 1) := by exact_mod_cast h.2
  have hlow' : (100 * ticks' : ℚ) ≤ 9 * delta' := by exact_mod_cast h'.1
  have hhigh' : (9 * delta' : ℚ) ≤ 100 * (ticks' + 1) := by exact_mod_cast h'.2
  rw [abs_le]
  constructor <;> linarith

/-! ## Runs -/

section Run

variable (toTimestamp : ℤ → UInt32)

/-- The run from `s` sends the packet in the call on `input`. -/
def SentFor (inputs : List FrameInput) (s : Session) (input : FrameInput) (packet : Packet) :
    Prop :=
  ∃ before after, inputs = before ++ input :: after ∧
    packet ∈ sentPackets (sendFrame toTimestamp input (sendFrames toTimestamp before s).1).2

/-- Every report dates every packet with an error of less than 12 microseconds: the date is that of
the report when the frames of both have equal times, and moves with the time of the frame. -/
def Dated (inputs : List FrameInput) (s : Session) : Prop :=
  ∀ reported report input packet, SentFor toTimestamp inputs s reported (.sr report) →
    SentFor toTimestamp inputs s input packet →
      |wallClock report (timestampOf packet) -
        (microsecondsOfEra reported.now + (input.pts - reported.pts))| < 12

variable {toTimestamp}

theorem SentFor.mem {inputs : List FrameInput} {s : Session} {input : FrameInput} {packet : Packet}
    (h : SentFor toTimestamp inputs s input packet) : input ∈ inputs := by
  obtain ⟨before, after, hsplit, -⟩ := h
  exact mem_of_eq_append_cons hsplit

/-- A report of a call names the clock reading of the call. -/
theorem exists_senderReport_of_sent {input : FrameInput} {s : Session} {report : RtcpHeader}
    (h : Packet.sr report ∈ sentPackets (sendFrame toTimestamp input s).2) :
    ∃ s' timestamp, report = senderReport s' timestamp input.now := by
  obtain ⟨s', hpackets⟩ := sentPackets_sendFrame toTimestamp input s
  rw [hpackets, List.mem_append] at h
  rcases h with hrtp | hreport
  · have hkind := isReport_of_mem_sendRtpPackets hrtp
    simp [isReport] at hkind
  · split at hreport
    · rw [List.mem_singleton, Packet.sr.injEq] at hreport
      exact ⟨s', _, hreport⟩
    · simp at hreport

/-- **Dates.** In a run of a new session over frames in order, within `2 ^ 32` ticks, every report
dates every packet. -/
theorem dated_sendFrames (h : Casts toTimestamp) (rtpPort : ℤ) (rtpSsrc : UInt32) (ip : String)
    (port : ℤ) (streamId : String) (outcome : StartOutcome) (first : FrameInput)
    (later : List FrameInput) (hfirst : 0 ≤ first.pts) (horder : Nondecreasing first later)
    (hspan : ∀ input ∈ first :: later, (input.pts - first.pts) * 9 < 100 * 2 ^ 32) :
    Dated toTimestamp (first :: later)
      (start ip port streamId outcome (Session.construct rtpPort rtpSsrc)).1.1 := by
  have hinit := start_construct_basePts rtpPort rtpSsrc ip port streamId outcome
  generalize (start ip port streamId outcome (Session.construct rtpPort rtpSsrc)).1.1 = s at hinit
  have honTime {input : FrameInput} {packet : Packet}
      (hsent : SentFor toTimestamp (first :: later) s input packet) :
      100 * ((timestampOf packet).toNat : ℤ) ≤ 9 * (input.pts - first.pts) ∧
        9 * (input.pts - first.pts) ≤ 100 * ((timestampOf packet).toNat + 1) := by
    have hnonneg := horder.first_le input hsent.mem
    obtain ⟨before, after, hsplit, hpacket⟩ := hsent
    rw [timestampOf_sentPackets toTimestamp (by omega) hfirst hsplit hpacket]
    exact h.onTime (by omega) (hspan input (mem_of_eq_append_cons hsplit))
  intro reported report input packet hreport hpacket
  have hticks := abs_ticks_sub_le (honTime hpacket) (honTime hreport)
  obtain ⟨before, after, -, hsent⟩ := hreport
  obtain ⟨s', timestamp, rfl⟩ := exists_senderReport_of_sent hsent
  obtain ⟨hupper, hlower⟩ := ntpTime_senderReport s' timestamp reported.now
  have hstep : (1000000 / 2 ^ 32 : ℚ) < 1 / 1000 := by norm_num
  rw [abs_le] at hticks
  rw [wallClock, abs_lt]
  push_cast at hticks
  simp only [timestampOf] at hticks ⊢
  constructor <;> linarith

/-- A report that dates the frame before it. -/
theorem dated_sendFrames_earlier :
    reportTimes (fun delta ↦ (castDouble delta).getD 0)
        [⟨[0, 0, 0, 1, 0x65], 0, ⟨0, 0, by decide⟩⟩,
          ⟨[0, 0, 0, 1, 0x41], 1000300, ⟨1, 300, by decide⟩⟩]
        (start "10.0.0.1" 9000 "cam" ⟨7, by decide, some 3, true⟩ (Session.construct 0 0)).1.1 =
      [1000300] ∧
      Dated (fun delta ↦ (castDouble delta).getD 0)
        [⟨[0, 0, 0, 1, 0x65], 0, ⟨0, 0, by decide⟩⟩,
          ⟨[0, 0, 0, 1, 0x41], 1000300, ⟨1, 300, by decide⟩⟩]
        (start "10.0.0.1" 9000 "cam" ⟨7, by decide, some 3, true⟩ (Session.construct 0 0)).1.1 := by
  constructor
  · simp [reportTimes, emitsReport_iff, sendFrame_lastRtcpPts, start_session, Session.construct,
      Session.started]
  · refine dated_sendFrames casts_castDouble 0 0 _ _ _ _ _ _ (by decide) ?_ ?_
    · simp [Nondecreasing]
    · simp

end Run

end RtpSender.Receiver
