import RtpSender.Foundation.FixedPoint
import RtpSender.Session.Emission

/-!
# The contents of a sender report

The bytes of `sendRtcpSr`, read back as a sender report, give the counters of the session and the
clock reading.  The seconds since 1900 wrap after `2 ^ 32`; the microseconds become a 32-bit
fraction from which they can be recovered, so that within one turn of the seconds a later reading
always has a greater NTP time.
-/

open RtpSender.Wire RtpSender.FixedPoint

namespace RtpSender.RtpSendingSession

/-! ## Clock readings -/

/-- The turn of the 32-bit seconds since 1900. -/
def Timeval.era (now : Timeval) : ℕ := (now.tvSec + 2208988800) / 2 ^ 32

/-- One reading is earlier than another. -/
def Timeval.Before (now later : Timeval) : Prop :=
  now.tvSec < later.tvSec ∨ now.tvSec = later.tvSec ∧ now.tvUsec < later.tvUsec

/-- The 64-bit NTP timestamp of a report. -/
def ntpTime (report : RtcpHeader) : ℕ := report.ntpSec.toNat * 2 ^ 32 + report.ntpFrac.toNat

section Clock

variable (s s' : Session) (timestamp timestamp' : UInt32) (now later : Timeval)

theorem senderReport_ntpSec :
    (senderReport s timestamp now).ntpSec.toNat = (now.tvSec + 2208988800) % 2 ^ 32 :=
  UInt32.toNat_ofNat' ..

theorem senderReport_ntpFrac :
    (senderReport s timestamp now).ntpFrac.toNat = toFixed 1000000 (2 ^ 32) now.tvUsec := by
  have hfraction : toFixed 1000000 (2 ^ 32) now.tvUsec < 2 ^ 32 :=
    toFixed_lt (by decide) now.tvUsec_lt
  calc (senderReport s timestamp now).ntpFrac.toNat
      = toFixed 1000000 (2 ^ 32) now.tvUsec % 2 ^ 32 := UInt32.toNat_ofNat' ..
    _ = toFixed 1000000 (2 ^ 32) now.tvUsec := Nat.mod_eq_of_lt hfraction

/-- Within an era, later readings have greater NTP times. -/
theorem ntpTime_lt_ntpTime (hera : now.era = later.era) (hbefore : now.Before later) :
    ntpTime (senderReport s timestamp now) < ntpTime (senderReport s' timestamp' later) := by
  have hfraction : toFixed 1000000 (2 ^ 32) now.tvUsec < 2 ^ 32 :=
    toFixed_lt (by decide) now.tvUsec_lt
  simp only [ntpTime, senderReport_ntpSec, senderReport_ntpFrac]
  unfold Timeval.era at hera
  rcases hbefore with hsec | ⟨hsec, husec⟩
  · omega
  · have hgreater : toFixed 1000000 (2 ^ 32) now.tvUsec < toFixed 1000000 (2 ^ 32) later.tvUsec :=
      toFixed_lt_toFixed (by decide) (by decide) husec
    omega

end Clock

/-! ## Reading a report -/

/-- The body and the report in the buffer of a single `send` on channel 1. -/
def readReport : List Syscall → Option (Bytes × RtcpHeader)
  | [.send _ buffer] =>
    match deframe buffer with
    | some [frame] =>
      if frame.channel = 1 then (RtcpHeader.read frame.body).map fun report ↦ (frame.body, report)
      else none
    | _ => none
  | _ => none

/-- What a report says about the session and the clock, and about its own length. -/
structure Faithful (s : Session) (timestamp : UInt32) (now : Timeval) (body : Bytes)
    (report : RtcpHeader) : Prop where
  ssrc : report.ssrc = s.rtpSsrc
  rtpTimestamp : report.rtpTimestamp = timestamp
  packetCount : report.packetCount = s.pktCount
  octetCount : report.octetCount = s.octetCount
  length : report.length.toNat = body.length / 4 - 1
  seconds : ((report.ntpSec.toNat : ℤ) - 2208988800) % 2 ^ 32 = now.tvSec % 2 ^ 32
  microseconds : report.ntpFrac.toNat * 10 ^ 6 ⌈/⌉ 2 ^ 32 = now.tvUsec

theorem readReport_sendRtcpSr (timestamp : UInt32) (now : Timeval) (s : Session) :
    readReport (sendRtcpSr timestamp now s).2 =
      some ((senderReport s timestamp now).bytes, senderReport s timestamp now) := by
  have hreport := senderReport_wellFormed s timestamp now
  have hframe : deframe (tcpFrame 1 (senderReport s timestamp now).bytes) =
      some [(Packet.sr (senderReport s timestamp now)).frame hreport] :=
    Packet.deframe_buffer _ hreport
  have hread := RtcpHeader.read_bytes (senderReport s timestamp now) hreport
  simp only [readReport, sendRtcpSr, hframe]
  simp only [Packet.frame, Packet.channel, Packet.body, hread, if_true, Option.map_some]

theorem faithful_senderReport (s : Session) (timestamp : UInt32) (now : Timeval) :
    Faithful s timestamp now (senderReport s timestamp now).bytes
      (senderReport s timestamp now) where
  ssrc := rfl
  rtpTimestamp := rfl
  packetCount := rfl
  octetCount := rfl
  length := by
    rw [RtcpHeader.length_bytes]
    rfl
  seconds := by
    rw [senderReport_ntpSec]
    omega
  microseconds := by
    rw [senderReport_ntpFrac]
    exact ceilDiv_toFixed (by decide) (by decide) _

/-- **Sender reports.** What `sendRtcpSr` writes reads back as a report that is right about the
session and the clock, and any later reading of the same era gives a greater NTP time. -/
theorem faithful_sendRtcpSr (s : Session) (timestamp : UInt32) (now : Timeval) :
    ∃ body report, readReport (sendRtcpSr timestamp now s).2 = some (body, report) ∧
      Faithful s timestamp now body report ∧
      ∀ (s' : Session) (timestamp' : UInt32) (later : Timeval), now.era = later.era →
        now.Before later →
          ∃ body' report', readReport (sendRtcpSr timestamp' later s').2 = some (body', report') ∧
            ntpTime report < ntpTime report' := by
  refine ⟨_, _, readReport_sendRtcpSr timestamp now s, faithful_senderReport s timestamp now, ?_⟩
  intro s' timestamp' later hera hbefore
  refine ⟨_, _, readReport_sendRtcpSr timestamp' later s', ?_⟩
  exact ntpTime_lt_ntpTime s s' timestamp timestamp' now later hera hbefore

/-- Readings on both sides of a full second. -/
theorem faithful_sendRtcpSr_next_second :
    ∃ body report body' report',
      readReport (sendRtcpSr 90 ⟨0, 999999, by decide⟩ (Session.construct 0 7)).2 =
          some (body, report) ∧
        readReport (sendRtcpSr 180 ⟨1, 0, by decide⟩ (Session.construct 0 7)).2 =
          some (body', report') ∧
        ntpTime report < ntpTime report' := by
  obtain ⟨body, report, hread, -, hlater⟩ :=
    faithful_sendRtcpSr (Session.construct 0 7) 90 ⟨0, 999999, by decide⟩
  obtain ⟨body', report', hread', hlt⟩ :=
    hlater (Session.construct 0 7) 180 ⟨1, 0, by decide⟩ (by decide) (.inl (by decide))
  exact ⟨body, report, body', report', hread, hread', hlt⟩

end RtpSender.RtpSendingSession
