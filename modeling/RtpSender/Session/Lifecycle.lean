import RtpSender.Session.RtpSendingSession

/-!
# Starting and stopping

What `start` leaves behind, by the results of `socket` and `connect`.  Only the connection, the
endpoint and the SSRC change; the sequence number, the counters and both time members stay.
-/

open RtpSender.Emitter RtpSender.Wire

namespace RtpSender.RtpSendingSession

/-- The session after `start` with the descriptor that it ends with. -/
def Session.started (s : Session) (ip : String) (port : ℤ) (streamId : String) (ssrc : UInt32)
    (sock : Option ℕ) : Session :=
  { s with
    serverIp := ip
    rtpPort := port
    streamId := streamId
    rtpSsrc := ssrc
    tcpSock := sock }

/-- The descriptor that `start` ends with. -/
def StartOutcome.sock (outcome : StartOutcome) : Option ℕ :=
  if outcome.connected then outcome.socketFd else none

variable (ip : String) (port : ℤ) (streamId : String) (outcome : StartOutcome) (s : Session)

theorem start_session :
    (start ip port streamId outcome s).1.1 =
      s.started ip port streamId outcome.ssrc outcome.sock := by
  obtain ⟨ssrc, -, socketFd, connected⟩ := outcome
  cases socketFd <;> cases connected <;> rfl

theorem start_tcpSock : (start ip port streamId outcome s).1.1.tcpSock = outcome.sock := by
  rw [start_session]
  rfl

theorem start_eq_true_iff :
    (start ip port streamId outcome s).2 = true ↔ ∃ fd, outcome.sock = some fd := by
  obtain ⟨ssrc, -, socketFd, connected⟩ := outcome
  cases socketFd <;> cases connected <;> simp [start, createSockets, StartOutcome.sock]

/-- No packet is sent while the connection is set up. -/
theorem not_send_mem_start (fd : Option ℕ) (buffer : Bytes) :
    .send fd buffer ∉ (start ip port streamId outcome s).1.2 := by
  obtain ⟨ssrc, -, socketFd, connected⟩ := outcome
  cases socketFd <;> cases connected <;> simp [start, createSockets]

theorem stop_tcpSock : (stop s).1.tcpSock = none := by
  unfold stop
  split
  · rfl
  · assumption

theorem not_send_mem_stop (fd : Option ℕ) (buffer : Bytes) : .send fd buffer ∉ (stop s).2 := by
  unfold stop
  split <;> simp

end RtpSender.RtpSendingSession
