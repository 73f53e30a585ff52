import RtpSender.Main.Process
import RtpSender.Receiver.Connections
import RtpSender.Receiver.Loss

/-!
# From records to receivers

The receiver of a channel listens on the descriptor that the session of the channel has got.  No
other session sends on it, and without sources the session gets the records of its channel in order.
So the receiver gets the units of these records all of whose packets the transport took, also when
the process is aborted on the way.
-/

open RtpSender.Emitter RtpSender.Wire
open RtpSender.RtpSendingSession RtpSender.Source
open RtpSender.Receiver (Resilient ShortGaps arrived packetCount receiveChunk
  receiveChunks_of_prefix receiveChunks_of_resilient resilient_sendFrames sendsVia_sendFrame taken)

namespace RtpSender.Main

variable {channels : ℕ}

/-! ## The connection of a channel -/

/-- The octets that the transport takes, or `none` for the result `-1`. -/
def SendResult.octets (buffer : Bytes) : SendResult → Option ℕ
  | .whole => some buffer.length
  | .part bytes => some (min bytes buffer.length)
  | .failed | .sigpipe => none

theorem permits_octets (fd : ℕ) (buffer : Bytes) (result : Option SendResult) :
    (Syscall.send (some fd) buffer).Permits (result.bind (SendResult.octets buffer)) := by
  match result with
  | none | some .failed | some .sigpipe => trivial
  | some .whole => exact Nat.le_refl buffer.length
  | some (.part bytes) => exact Nat.min_le_right bytes buffer.length

/-- A `send` on a descriptor with what the transport makes of it. -/
def Entry.exchange? (fd : ℕ) (entry : Entry channels) : Option Exchange :=
  match entry.effect with
  | .act (.syscall _ (.send (some via) buffer)) =>
    if via = fd then some ⟨_, _, permits_octets via buffer entry.result⟩ else none
  | _ => none

def exchanges (fd : ℕ) (log : List (Entry channels)) : List Exchange :=
  log.filterMap (Entry.exchange? fd)

theorem map_call_exchanges (fd : ℕ) (log : List (Entry channels)) :
    (exchanges fd log).map Exchange.call = sentOn fd (syscalls (log.map Entry.effect)) := by
  induction log with
  | nil => rfl
  | cons entry log ih =>
    have hhead : (entry.exchange? fd).toList.map Exchange.call =
        sentOn fd (syscalls [entry.effect]) := by
      obtain ⟨effect, result⟩ := entry
      match effect with
      | .act (.syscall _ (.send (some via) buffer)) =>
        by_cases hvia : via = fd
        · simp [Entry.exchange?, sentOn, syscalls, Effect.syscall?, Syscall.isSentOn, hvia]
        · simp [Entry.exchange?, sentOn, syscalls, Effect.syscall?, Syscall.isSentOn, hvia]
      | .act (.syscall _ (.send none _)) | .act (.syscall _ (.socket _))
      | .act (.syscall _ (.connect ..)) | .act (.syscall _ (.close _)) | .act (.sendFrame ..)
      | .act (.dropped ..) | .openReader .. | .closeReader | .print _ => rfl
    have hcons : exchanges fd (entry :: log) = (entry.exchange? fd).toList ++ exchanges fd log := by
      cases h : entry.exchange? fd <;> simp [exchanges, h]
    rw [hcons, List.map_append, ih, hhead, ← sentOn_append, ← syscalls_append]
    rfl

/-! ## What the sessions send -/

/-- Every session ends up with the descriptor of its own channel. -/
theorem tcpSock_setUp {serverIp : String} {basePort : ℤ}
    {outcomes : Fin channels → StartOutcome} {chns : List (Fin channels)}
    {program : Program channels}
    (h : (setUp serverIp basePort outcomes chns program).2 = true) (chn : Fin channels) :
    ((setUp serverIp basePort outcomes chns program).1.1.sessions chn).tcpSock =
      if chn ∈ chns then (outcomes chn).sock else (program.sessions chn).tcpSock := by
  induction chns generalizing program with
  | nil => rfl
  | cons first chns ih =>
    obtain ⟨session, calls, ok, hstart, hround⟩ :=
      setUp_cons serverIp basePort outcomes first chns program
    have hsock := start_tcpSock serverIp (basePort + first * 2) ("cam0" ++ toString first.val)
      (outcomes first) (program.sessions first)
    rw [hstart] at hsock
    change session.tcpSock = _ at hsock
    rw [hround] at h ⊢
    cases ok with
    | false => cases h
    | true =>
      refine (ih h).trans ?_
      rcases eq_or_ne chn first with rfl | hne
      · simp [hsock]
      · simp [hne]

theorem sentOn_of_quietEffects {effects : List (Effect channels)}
    (h : ∀ effect ∈ effects, effect.Quiet) (fd : ℕ) : sentOn fd (syscalls effects) = [] := by
  refine sentOn_of_quiet (fun via buffer hmem ↦ ?_) fd
  obtain ⟨effect, heffect, hcall⟩ := List.mem_filterMap.mp hmem
  have hquiet := h effect heffect
  match effect with
  | .act (.syscall chn call) => exact hquiet via buffer (Option.some.inj hcall)

variable (toTimestamp : ℤ → UInt32)

theorem tcpSock_callSendFrame (chn chn' : Fin channels) (input : FrameInput)
    (sessions : Fin channels → Session) :
    ((callSendFrame toTimestamp chn input sessions).1 chn').tcpSock = (sessions chn').tcpSock := by
  rcases eq_or_ne chn' chn with rfl | hne
  · calc ((callSendFrame toTimestamp chn' input sessions).1 chn').tcpSock
        = (RtpSendingSession.sendFrame toTimestamp input (sessions chn')).1.tcpSock :=
          congrArg Session.tcpSock (Function.update_self ..)
      _ = (sessions chn').tcpSock := (sendsVia_sendFrame toTimestamp input (sessions chn')).sock_eq
  · exact congrArg Session.tcpSock (Function.update_of_ne hne ..)

theorem sentOn_callSendFrame (fd : ℕ) (chn : Fin channels) (input : FrameInput)
    (sessions : Fin channels → Session) :
    sentOn fd (syscalls ((callSendFrame toTimestamp chn input sessions).2.map .act)) =
      if (sessions chn).tcpSock = some fd then
        (RtpSendingSession.sendFrame toTimestamp input (sessions chn)).2
      else [] := by
  have hcalls : syscalls ((callSendFrame toTimestamp chn input sessions).2.map .act) =
      (RtpSendingSession.sendFrame toTimestamp input (sessions chn)).2 := by
    change syscalls (((RtpSendingSession.sendFrame toTimestamp input (sessions chn)).2.map
      (Action.syscall chn)).map .act) = _
    rw [List.map_map]
    exact syscalls_syscall chn _
  rw [hcalls, (sendsVia_sendFrame toTimestamp input (sessions chn)).sentOn_eq]

/-- On the descriptor of a session go the frames of its own records, in order. -/
theorem sentOn_forEach_sendDirectly {fd : ℕ} {chn : Fin channels} (records : List Record)
    {sessions : Fin channels → Session}
    (hsock : ∀ chn', (sessions chn').tcpSock = some fd ↔ chn' = chn) :
    sentOn fd (syscalls ((forEach (sendDirectly toTimestamp) records sessions).2.map .act)) =
      (sendFrames toTimestamp (records.filterMap (Record.callOn chn)) (sessions chn)).2 := by
  induction records generalizing sessions with
  | nil => rfl
  | cons record records ih =>
    rw [forEach_cons, andThen_snd, List.map_append, syscalls_append, sentOn_append]
    cases htarget : (record.target : Option (Fin channels × FrameInput)) with
    | none =>
      have hdirect : sendDirectly toTimestamp record = (skip : Emit _ (Action channels)) := by
        rw [sendDirectly, htarget]
      have hcall : record.callOn chn = none := callOn_of_target fun input heq ↦
        Option.some_ne_none _ (heq.symm.trans htarget)
      rw [hdirect, List.filterMap_cons_none hcall]
      exact ih hsock
    | some call =>
      obtain ⟨chn', input⟩ := call
      have hdirect : sendDirectly toTimestamp record = callSendFrame toTimestamp chn' input := by
        rw [sendDirectly, htarget]
      have hcall := target_eq_some_iff.mp htarget
      have hrest := @ih (callSendFrame toTimestamp chn' input sessions).1 fun other ↦ by
        rw [tcpSock_callSendFrame, hsock]
      rw [hdirect, hrest, sentOn_callSendFrame]
      rcases eq_or_ne chn' chn with rfl | hne
      · rw [if_pos ((hsock chn').mpr rfl), List.filterMap_cons_some hcall]
        simp [callSendFrame, sendFrames, forEach_cons]
      · have hother : record.callOn chn = none := callOn_of_target fun input' heq ↦
          hne (Prod.mk.inj (Option.some.inj (htarget.symm.trans heq))).1
        rw [if_neg (fun heq ↦ hne ((hsock chn').mp heq)), List.filterMap_cons_none hother]
        simp [callSendFrame, hne.symm]

theorem sentOn_serve (world : World channels) (inputFile serverIp : String) (basePort : ℤ)
    {chn : Fin channels} {fd : ℕ} (hsock : (world.outcomes chn).sock = some fd) :
    ∃ s : Session, s.tcpSock = some fd ∧
      sentOn fd (syscalls (serve toTimestamp world inputFile serverIp basePort
        (Program.construct world.rtpPort world.rtpSsrc)).1.2) =
      if (serve toTimestamp world inputFile serverIp basePort
          (Program.construct world.rtpPort world.rtpSsrc)).2 = .code 0 then
        (sendFrames toTimestamp (world.records.filterMap (Record.callOn chn)) s).2
      else [] := by
  have hquiet : sentOn fd (syscalls (setUp serverIp basePort world.outcomes
      (List.finRange channels) (Program.construct world.rtpPort world.rtpSsrc)).1.2) = [] :=
    sentOn_of_quietEffects (fun _ hmem ↦ quiet_setUp hmem) fd
  have hidle : ({ Session.construct 0 0 with tcpSock := some fd } : Session).tcpSock = some fd :=
    rfl
  rcases serve_cases toTimestamp world inputFile serverIp basePort
    (Program.construct world.rtpPort world.rtpSsrc) with
    ⟨-, hserve⟩ | ⟨-, -, hserve⟩ | ⟨hstarted, -, hserve⟩
  · rw [hserve]
    exact ⟨_, hidle, hquiet⟩
  · rw [hserve, syscalls_append, sentOn_append, hquiet]
    exact ⟨_, hidle, rfl⟩
  · have hwired := wired_setUp serverIp basePort world.outcomes world.rtpPort world.rtpSsrc hstarted
    have hsocks := tcpSock_setUp hstarted
    rw [hserve]
    generalize (setUp serverIp basePort world.outcomes (List.finRange channels)
      (Program.construct world.rtpPort world.rtpSsrc)).1 = result at hquiet hwired hsocks ⊢
    obtain ⟨program, started⟩ := result
    have hown (chn' : Fin channels) : (program.sessions chn').tcpSock = some fd ↔ chn' = chn := by
      have hsock' := hsocks chn'
      rw [if_pos (List.mem_finRange chn')] at hsock'
      rw [hsock']
      exact ⟨fun heq ↦ world.distinct _ _ _ heq hsock, fun heq ↦ heq ▸ hsock⟩
    obtain ⟨-, hactions⟩ :=
      simulates_run toTimestamp world.records program program.sessions ⟨hwired, rfl⟩
    rw [List.forall₂_eq_eq_eq] at hactions
    have hsent := sentOn_forEach_sendDirectly toTimestamp world.records hown
    rw [← hactions] at hsent
    refine ⟨program.sessions chn, (hown chn).mpr rfl, ?_⟩
    simp only [syscalls_append, sentOn_append, hquiet, hsent,
      sentOn_of_quietEffects (fun _ hmem ↦ quiet_stopSessions hmem) fd]
    exact (List.append_nil _).trans ((List.append_nil _).trans (List.append_nil _))

theorem sentOn_undisturbed (world : World channels) (name : String) (args : List String)
    {chn : Fin channels} {fd : ℕ} (hsock : (world.outcomes chn).sock = some fd) :
    ∃ s : Session, s.tcpSock = some fd ∧
      sentOn fd (syscalls (undisturbed toTimestamp world name args).1) =
      if (undisturbed toTimestamp world name args).2 = .code 0 then
        (sendFrames toTimestamp (world.records.filterMap (Record.callOn chn)) s).2
      else [] := by
  rcases undisturbed_cases toTimestamp world name args with
    ⟨inputFile, serverIp, port, rest, basePort, -, -, hserved⟩ | ⟨-, hexit, messages, hmessages⟩
  · obtain ⟨s, hs, hsent⟩ := sentOn_serve toTimestamp world inputFile serverIp basePort hsock
    refine ⟨s, hs, ?_⟩
    rw [hserved, syscalls_append, sentOn_append,
      sentOn_of_quietEffects (fun _ hmem ↦ quiet_stopSessions hmem) fd, List.append_nil, hsent]
  · refine ⟨{ Session.construct 0 0 with tcpSock := some fd }, rfl, ?_⟩
    rw [if_neg hexit, hmessages]
    exact sentOn_of_quietEffects (fun _ hmem ↦ quiet_of_mem_messages hmem) fd

/-! ## What the receiver of a channel gets -/

theorem arrived_of_all {nals : List NalUnit} {flags : List Bool} (h : ∀ flag ∈ flags, flag = true) :
    arrived nals flags = nals.map NalUnit.bytes := by
  induction nals generalizing flags with
  | nil => rfl
  | cons nal nals ih =>
    have htake : (flags.take (nalPackets nal.bytes).length).all id = true :=
      List.all_eq_true.mpr fun flag hflag ↦ h flag (List.mem_of_mem_take hflag)
    rw [arrived, htake, ih fun flag hflag ↦ h flag (List.mem_of_mem_drop hflag)]
    rfl

/-- **End to end.** However the process ends, the receiver of a channel gets the units of the
records of the channel all of whose packets were sent and taken; these are all of them if the
process ends with 0 and the transport takes every buffer. -/
theorem receive_process (world : World channels) (name : String) (args : List String)
    {chn : Fin channels} {fd : ℕ} (hsock : (world.outcomes chn).sock = some fd)
    {units : List AccessUnit}
    (hunits : world.records.filterMap (Record.callOn chn) = units.map AccessUnit.input)
    (htyped : ∀ unit ∈ units, ∀ nal ∈ unit.nals, nal.Typed) (log : List Exchange)
    (hlog : log = exchanges fd (process toTimestamp world name args).1)
    (hsilent : SilentAfterCut log) (hgaps : ShortGaps 0 (taken log)) (chunks : List Bytes)
    (hchunks : chunks.flatten = carried log) :
    let nals := units.flatMap AccessUnit.nals
    (forEach receiveChunk chunks ([], none)).2 =
        arrived nals (taken log ++ List.replicate (packetCount nals) false) ∧
      ((process toTimestamp world name args).2 = .code 0 →
        (∀ exchange ∈ log, exchange.takenWhole = true) →
        (forEach receiveChunk chunks ([], none)).2 = nals.map NalUnit.bytes) := by
  intro nals
  obtain ⟨s, hs, hsent⟩ := sentOn_undisturbed toTimestamp world name args hsock
  rw [hunits] at hsent
  have hsends := sendsOn_sendFrames toTimestamp hs (units.map AccessUnit.input)
  have hresilient := resilient_sendFrames toTimestamp units htyped
  have hcalls : log.map Exchange.call = sentOn fd
      (syscalls ((process toTimestamp world name args).1.map Entry.effect)) := by
    rw [hlog]
    exact map_call_exchanges ..
  constructor
  · refine receiveChunks_of_prefix hresilient hsends ?_ hsilent hgaps hchunks
    obtain ⟨later, heffects⟩ := prefix_process toTimestamp world name args
    rw [← heffects, syscalls_append, sentOn_append, ← hcalls] at hsent
    have hprefix := List.prefix_append (log.map Exchange.call) (sentOn fd (syscalls later))
    rw [hsent] at hprefix
    split at hprefix
    · exact hprefix
    · exact hprefix.trans List.nil_prefix
  · intro hcode hwhole
    have hexit := ((process_eq_code_iff toTimestamp world name args 0).mp hcode).1
    rw [process_of_code toTimestamp world name args hcode, hsent, if_pos hexit] at hcalls
    rw [receiveChunks_of_resilient hresilient hsends hcalls hsilent hgaps hchunks]
    refine arrived_of_all fun flag hflag ↦ ?_
    obtain ⟨heard, hmem, rfl⟩ := List.mem_map.mp hflag
    obtain ⟨exchange, hexchange, hheard⟩ := List.mem_filterMap.mp hmem
    obtain ⟨parts, -, rfl⟩ := Option.map_eq_some_iff.mp hheard
    exact hwhole exchange hexchange

/-- The peer closes the connection after the first of two packets, or takes both of them. -/
theorem receive_process_two :
    let unit : AccessUnit := ⟨[⟨0x67, [], by decide⟩, ⟨0x68, [], by decide⟩], 0, ⟨0, 0, by decide⟩⟩
    let record : Record := ⟨0, 0, frameTypeH264I, 10, 0,
      frameBytes unit.nals ++ List.replicate (1024 * 1024 - 10) 0, unit.now, by
        rw [List.length_append, List.length_replicate,
          show (frameBytes unit.nals).length = 10 from rfl], by decide⟩
    let world (sends : List SendResult) : World 1 := ⟨fun _ ↦ 0, fun _ ↦ 7,
      fun _ ↦ ⟨7, by decide, some 3, true⟩, fun _ _ _ _ _ ↦ Subsingleton.elim _ _, true, [record],
      sends, none⟩
    let log (sends : List SendResult) := exchanges 3 (process exactTimestamp (world sends)
      "rtp_sender" ["in.264", "10.0.0.1", "9000"]).1
    let received (sends : List SendResult) :=
      (forEach receiveChunk [carried (log sends)] ([], none)).2
    received [.whole, .sigpipe] = [[0x67]] ∧ received [] = [[0x67], [0x68]] := by
  intro unit record world log received
  have hunits (sends : List SendResult) :
      (world sends).records.filterMap (Record.callOn (0 : Fin 1)) =
        [unit].map AccessUnit.input := rfl
  have htyped : ∀ unit' ∈ [unit], ∀ nal ∈ unit'.nals, nal.Typed := by
    unfold NalUnit.Typed
    decide
  have hsilent (sends : List SendResult)
      (huncut : ∀ exchange ∈ log sends, exchange.cutShort = false) :
      SilentAfterCut (log sends) := by
    intro before exchange after hlog hcut
    obtain ⟨earlier, hmem, hshort⟩ := List.any_eq_true.mp hcut
    rw [huncut earlier (hlog ▸ List.mem_append_left _ hmem)] at hshort
    cases hshort
  have hkilled : taken (log [.whole, .sigpipe]) = [true, false] := by decide +kernel
  have hwhole : taken (log []) = [true, true] := by decide +kernel
  constructor
  · exact (receive_process exactTimestamp (world [.whole, .sigpipe]) "rtp_sender"
      ["in.264", "10.0.0.1", "9000"] rfl (hunits _) htyped _ rfl (hsilent _ (by decide +kernel))
      (by rw [hkilled]; exact ⟨by decide, trivial⟩) _ (List.flatten_singleton ..)).1.trans
      (by decide +kernel)
  · exact (receive_process exactTimestamp (world []) "rtp_sender"
      ["in.264", "10.0.0.1", "9000"] rfl (hunits _) htyped _ rfl (hsilent _ (by decide +kernel))
      (by rw [hwhole]; exact ⟨by decide, by decide, trivial⟩) _ (List.flatten_singleton ..)).2
      (by decide +kernel) (by decide +kernel)

end RtpSender.Main
