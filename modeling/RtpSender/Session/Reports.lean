import RtpSender.Session.Transport

/-!
# What sender reports say

A sender report quotes two counters.  They count the packets handed to `send`, whatever its result,
and they go on when `start` draws a new SSRC.  The reports are right about the source they name as
long as no RTP packet is lost on the way into the transport and no counts of one source are left
when the session turns to another.
-/

open RtpSender.Emitter RtpSender.Wire RtpSender.History

namespace RtpSender.RtpSendingSession

/-! ## Delivered packets -/

/-- The payload, for an RTP packet of the source `ssrc` that the transport took whole. -/
def Exchange.deliveredPayload (ssrc : UInt32) (exchange : Exchange) : Option Bytes :=
  match exchange.call.packet? with
  | some (.rtp header payload) =>
    if exchange.takenWhole = true ∧ header.ssrc = ssrc then some payload else none
  | _ => none

def delivered (log : List Exchange) (ssrc : UInt32) : List Bytes :=
  log.filterMap (Exchange.deliveredPayload ssrc)

/-- Two 32-bit counters that tell the number and the total length of some payloads. -/
def Counted (packetCount octetCount : UInt32) (payloads : List Bytes) : Prop :=
  packetCount = UInt32.ofNat payloads.length ∧
    octetCount = UInt32.ofNat (payloads.map List.length).sum

/-- Every report that the transport took is right about its source at that time. -/
def Truthful (log : List Exchange) : Prop :=
  HistoryForall (fun before exchange ↦ ∀ report, exchange.call.packet? = some (.sr report) →
    exchange.takenWhole = true →
      Counted report.packetCount report.octetCount (delivered before report.ssrc)) log

theorem delivered_concat (log : List Exchange) (exchange : Exchange) (ssrc : UInt32) :
    delivered (log ++ [exchange]) ssrc =
      delivered log ssrc ++ (exchange.deliveredPayload ssrc).toList := by
  unfold delivered
  rw [List.filterMap_append]
  cases h : exchange.deliveredPayload ssrc <;> simp [h]

theorem Counted.concat {packetCount octetCount : UInt32} {payloads : List Bytes}
    (h : Counted packetCount octetCount payloads) (payload : Bytes) :
    Counted (packetCount + 1) (octetCount + UInt32.ofNat payload.length)
      (payloads ++ [payload]) := by
  constructor
  · rw [List.length_append, List.length_singleton, UInt32.ofNat_add, ← h.1]
    rfl
  · rw [List.map_append, List.sum_append, UInt32.ofNat_add, ← h.2]
    simp

/-! ## The invariant -/

/-- The counters belong to the current source; what was counted for others is nothing modulo
`2 ^ 32`. -/
structure Tally (s : Session) (log : List Exchange) : Prop where
  truthful : Truthful log
  current : Counted s.pktCount s.octetCount (delivered log s.rtpSsrc)
  others : ∀ ssrc, ssrc ≠ s.rtpSsrc → Counted 0 0 (delivered log ssrc)

def Exchange.isRtp (exchange : Exchange) : Bool :=
  match exchange.call.packet? with
  | some (.rtp _ _) => true
  | _ => false

/-- Every RTP packet was taken whole. -/
def RtpTaken (log : List Exchange) : Prop :=
  ∀ exchange ∈ log, exchange.isRtp = true → exchange.takenWhole = true

/-- The tally as an invariant of the session and its calls. -/
def Tallied (s : Session) (calls : List Syscall) : Prop :=
  ∀ log : List Exchange, log.map Exchange.call = calls → RtpTaken log → Tally s log

theorem RtpTaken.of_append {log later : List Exchange} (h : RtpTaken (log ++ later)) :
    RtpTaken log :=
  fun exchange hmem ↦ h exchange (List.mem_append_left _ hmem)

/-- A packet of the current source that is taken whole is counted. -/
theorem Tally.rtp {s s' : Session} {log : List Exchange} {exchange : Exchange} {header : RtpHeader}
    {payload : Bytes} (h : Tally s log)
    (hpacket : exchange.call.packet? = some (.rtp header payload))
    (htaken : exchange.takenWhole = true) (hheader : header.ssrc = s.rtpSsrc)
    (hssrc : s'.rtpSsrc = s.rtpSsrc) (hpackets : s'.pktCount = s.pktCount + 1)
    (hoctets : s'.octetCount = s.octetCount + UInt32.ofNat payload.length) :
    Tally s' (log ++ [exchange]) := by
  have hpayload (ssrc : UInt32) : exchange.deliveredPayload ssrc =
      if s.rtpSsrc = ssrc then some payload else none := by
    simp only [Exchange.deliveredPayload, hpacket, htaken, hheader, true_and]
  constructor
  · rw [Truthful, historyForall_concat]
    constructor
    · exact h.truthful
    · intro report hreport
      rw [hpacket] at hreport
      cases hreport
  · rw [hssrc, hpackets, hoctets, delivered_concat, hpayload, if_pos rfl]
    exact h.current.concat payload
  · intro ssrc hne
    rw [hssrc] at hne
    rw [delivered_concat, hpayload, if_neg (Ne.symm hne), Option.toList_none, List.append_nil]
    exact h.others ssrc hne

/-- What is not a delivered packet changes no counts; a report has to be right by itself. -/
theorem Tally.uncounted {s s' : Session} {log : List Exchange} {exchange : Exchange}
    (h : Tally s log) (hnone : ∀ ssrc, exchange.deliveredPayload ssrc = none)
    (hreport : ∀ report, exchange.call.packet? = some (.sr report) →
      Counted report.packetCount report.octetCount (delivered log report.ssrc))
    (hssrc : s'.rtpSsrc = s.rtpSsrc) (hpackets : s'.pktCount = s.pktCount)
    (hoctets : s'.octetCount = s.octetCount) : Tally s' (log ++ [exchange]) := by
  have hdelivered (ssrc : UInt32) : delivered (log ++ [exchange]) ssrc = delivered log ssrc := by
    rw [delivered_concat, hnone, Option.toList_none, List.append_nil]
  constructor
  · rw [Truthful, historyForall_concat]
    constructor
    · exact h.truthful
    · intro report hpacket _
      exact hreport report hpacket
  · rw [hssrc, hpackets, hoctets, hdelivered]
    exact h.current
  · intro ssrc hne
    rw [hssrc] at hne
    rw [hdelivered]
    exact h.others ssrc hne

/-- A report quotes the counters. -/
theorem Tally.report {s s' : Session} {log : List Exchange} {exchange : Exchange}
    {report : RtcpHeader} (h : Tally s log) (hpacket : exchange.call.packet? = some (.sr report))
    (hquoted : Counted report.packetCount report.octetCount (delivered log report.ssrc))
    (hssrc : s'.rtpSsrc = s.rtpSsrc) (hpackets : s'.pktCount = s.pktCount)
    (hoctets : s'.octetCount = s.octetCount) : Tally s' (log ++ [exchange]) := by
  apply h.uncounted _ _ hssrc hpackets hoctets
  · intro ssrc
    simp only [Exchange.deliveredPayload, hpacket]
  · intro report' hreport'
    rw [hpacket] at hreport'
    obtain rfl := Packet.sr.inj (Option.some.inj hreport')
    exact hquoted

/-- Calls that carry no packet do not matter. -/
theorem Tally.quiet {s : Session} {log : List Exchange} (h : Tally s log) (later : List Exchange)
    (hquiet : ∀ exchange ∈ later, exchange.call.packet? = none) : Tally s (log ++ later) := by
  induction later using List.reverseRecOn with
  | nil => simpa using h
  | append_singleton later exchange ih =>
    have hlog := ih fun earlier hmem ↦ hquiet earlier (List.mem_append_left _ hmem)
    have hpacket := hquiet exchange (by simp)
    rw [← List.append_assoc]
    apply hlog.uncounted _ _ rfl rfl rfl
    · intro ssrc
      simp only [Exchange.deliveredPayload, hpacket]
    · intro report hreport
      rw [hpacket] at hreport
      cases hreport

/-! ## Steps -/

theorem tallied_latchBase (pts : ℤ) (s : Session) (calls : List Syscall) (h : Tallied s calls) :
    Tallied (latchBase pts s) calls := by
  intro log hlog htaken
  have htally := h log hlog htaken
  rw [latchBase_eq]
  exact ⟨htally.truthful, htally.current, htally.others⟩

theorem tallied_sendRtpPacket (payload : Bytes) (marker : Bool) (timestamp : UInt32)
    (hpayload : payload.length ≤ rtpMtu) :
    Preserves Tallied (sendRtpPacket payload marker timestamp) := by
  intro s calls h log hlog htaken
  rw [sendRtpPacket_snd] at hlog
  obtain ⟨earlier, last, rfl, hearlier, hlast⟩ := map_call_eq_concat hlog
  have hpacket : last.call.packet? = some (rtpPacket s payload marker timestamp) := by
    rw [hlast, packet?_send _ _ (rtpPacket_wellFormed s marker timestamp hpayload)]
  have hwhole : last.takenWhole = true :=
    htaken last (by simp) (by simp only [Exchange.isRtp, hpacket, rtpPacket])
  exact (h earlier hearlier htaken.of_append).rtp hpacket hwhole rfl rfl rfl rfl

theorem tallied_sendReport (timestamp : UInt32) (input : FrameInput) :
    Preserves Tallied (sendReport timestamp input) := by
  intro s calls h log hlog htaken
  rw [sendReport_snd] at hlog
  obtain ⟨earlier, last, rfl, hearlier, hlast⟩ := map_call_eq_concat hlog
  have hpacket : last.call.packet? = some (.sr (senderReport s timestamp input.now)) := by
    rw [hlast, packet?_send _ _ (senderReport_wellFormed s timestamp input.now)]
  have htally := h earlier hearlier htaken.of_append
  exact htally.report hpacket htally.current rfl rfl rfl

/-- Without a `send` the log grows by calls that carry no packet. -/
theorem Tallied.quiet {s : Session} {calls : List Syscall} (h : Tallied s calls)
    {later : List Syscall} (hquiet : ∀ fd buffer, .send fd buffer ∉ later) :
    Tallied s (calls ++ later) := by
  intro log hlog htaken
  obtain ⟨earlier, lasts, rfl, hearlier, rfl⟩ := List.map_eq_append_iff.mp hlog
  apply (h earlier hearlier htaken.of_append).quiet
  intro exchange hmem
  have hcall := List.mem_map_of_mem (f := Exchange.call) hmem
  cases hsend : exchange.call with
  | send fd buffer =>
    rw [hsend] at hcall
    exact absurd hcall (hquiet fd buffer)
  | socket | connect | close => rfl

/-! ## Runs of the public interface -/

/-- `start` finds both counters at zero or draws the SSRC in use. -/
def Operation.CleanStart : Operation → Session → Prop
  | .start _ _ _ outcome, s =>
    (s.pktCount = 0 ∧ s.octetCount = 0) ∨ outcome.ssrc = s.rtpSsrc
  | _, _ => True

theorem tallied_start (ip : String) (port : ℤ) (streamId : String) (outcome : StartOutcome)
    (s : Session) (calls : List Syscall)
    (hclean : Operation.CleanStart (.start ip port streamId outcome) s) (h : Tallied s calls) :
    Tallied (start ip port streamId outcome s).1.1
      (calls ++ (start ip port streamId outcome s).1.2) := by
  have hquiet := h.quiet (not_send_mem_start ip port streamId outcome s)
  rw [start_session]
  intro log hlog htaken
  have htally := hquiet log hlog htaken
  by_cases hsame : outcome.ssrc = s.rtpSsrc
  · refine ⟨htally.truthful, ?_, fun ssrc hne ↦ htally.others ssrc ?_⟩
    · simpa [Session.started, hsame] using htally.current
    · simpa [Session.started, hsame] using hne
  · obtain ⟨hpackets, hoctets⟩ := hclean.resolve_right hsame
    have hcurrent := htally.current
    rw [hpackets, hoctets] at hcurrent
    -- nothing is left of the old source, and nothing was counted for the new one
    refine ⟨htally.truthful, ?_, fun ssrc hne ↦ ?_⟩
    · simpa [Session.started, hpackets, hoctets] using htally.others outcome.ssrc hsame
    · by_cases hold : ssrc = s.rtpSsrc
      · rw [hold]
        exact hcurrent
      · exact htally.others ssrc hold

theorem tallied_perform (toTimestamp : ℤ → UInt32) (operation : Operation) (s : Session)
    (calls : List Syscall) (hclean : operation.CleanStart s) (h : Tallied s calls) :
    Tallied (operation.perform toTimestamp s).1 (calls ++ (operation.perform toTimestamp s).2) := by
  cases operation with
  | start ip port streamId outcome => exact tallied_start ip port streamId outcome s calls hclean h
  | stop =>
    have hquiet := h.quiet (not_send_mem_stop s)
    simp only [Operation.perform, stop] at hquiet ⊢
    split at hquiet
    · exact fun log hlog htaken ↦
        ⟨(hquiet log hlog htaken).truthful, (hquiet log hlog htaken).current,
          (hquiet log hlog htaken).others⟩
    · exact hquiet
  | sendFrame input =>
    exact preserves_sendFrame (tallied_latchBase input.pts) tallied_sendRtpPacket
      (fun timestamp ↦ tallied_sendReport timestamp input) s calls h

/-- **Sender reports.** In a run where every RTP packet is taken whole and every `start` is clean,
the reports that the transport took tell the truth. -/
theorem truthful_history (toTimestamp : ℤ → UInt32) (rtpPort : ℤ) (rtpSsrc : UInt32)
    (operations : List Operation) (log : List Exchange)
    (hlog : log.map Exchange.call =
      (history toTimestamp operations (Session.construct rtpPort rtpSsrc)).2)
    (htaken : RtpTaken log)
    (hclean : Guarded Operation.CleanStart (Operation.perform toTimestamp) operations
      (Session.construct rtpPort rtpSsrc)) :
    Truthful log := by
  have hinit : Tallied (Session.construct rtpPort rtpSsrc) [] := by
    intro log hlog _
    rw [List.map_eq_nil_iff.mp hlog]
    exact ⟨historyForall_nil, ⟨rfl, rfl⟩, fun _ _ ↦ ⟨rfl, rfl⟩⟩
  have hrun := hclean.preserves (tallied_perform toTimestamp) hinit
  rw [List.nil_append] at hrun
  exact (hrun log hlog htaken).truthful

/-- One packet and its report, both taken. -/
theorem truthful_history_taken :
    Truthful [⟨.socket (some 3), none, by decide⟩,
      ⟨.connect 3 0x0A000001 9000 true, none, by decide⟩,
      ⟨.send (some 3) (tcpFrame 0 [0x80, 0xE2, 0, 0, 0, 0, 0, 0, 0, 0, 0, 7, 0x65]), some 17,
        by decide⟩,
      ⟨.send (some 3) (tcpFrame 1 [0x80, 0xC8, 0, 6, 0, 0, 0, 7, 0x83, 0xAA, 0x7E, 0x80, 0, 0, 0, 0,
        0, 0, 0, 0, 0, 0, 0, 1, 0, 0, 0, 1]), some 32, by decide⟩] := by
  refine truthful_history exactTimestamp 0 0
    [.start "10.0.0.1" 9000 "cam" ⟨7, by decide, some 3, true⟩,
      .sendFrame ⟨[0, 0, 0, 1, 0x65], 1000000, ⟨0, 0, by decide⟩⟩] _ (by decide +kernel) ?_ ?_
  · unfold RtpTaken
    decide +kernel
  · exact ⟨.inl ⟨rfl, rfl⟩, trivial, trivial⟩

/-- The `send` of the only packet fails, and the report that follows counts it all the same. -/
theorem not_truthful_history :
    ∃ log : List Exchange,
      log.map Exchange.call = (history exactTimestamp
        [.start "10.0.0.1" 9000 "cam" ⟨7, by decide, some 3, true⟩,
          .sendFrame ⟨[0, 0, 0, 1, 0x65], 1000000, ⟨0, 0, by decide⟩⟩]
        (Session.construct 0 0)).2 ∧ ¬ Truthful log := by
  refine ⟨[⟨.socket (some 3), none, by decide⟩,
    ⟨.connect 3 0x0A000001 9000 true, none, by decide⟩,
    ⟨.send (some 3) (tcpFrame 0 [0x80, 0xE2, 0, 0, 0, 0, 0, 0, 0, 0, 0, 7, 0x65]), none, by decide⟩,
    ⟨.send (some 3) (tcpFrame 1 [0x80, 0xC8, 0, 6, 0, 0, 0, 7, 0x83, 0xAA, 0x7E, 0x80, 0, 0, 0, 0,
      0, 0, 0, 0, 0, 0, 0, 1, 0, 0, 0, 1]), some 32, by decide⟩], by decide +kernel, fun h ↦ ?_⟩
  have hreport := (h [_, _, _] _ [] rfl ⟨0x80, 200, 6, 7, 0x83AA7E80, 0, 0, 1, 1⟩
    (by decide +kernel) (by decide +kernel)).1
  revert hreport
  decide +kernel

end RtpSender.RtpSendingSession
