import RtpSender.Main.Process
import RtpSender.Receiver.Connections

/-!
# Descriptors and the reader

However the process ends, it has closed only descriptors that were open, has sent on such only, and
has closed the reader at most once and not without opening it.  If it ends with an exit code, it has
closed every descriptor that it got, each of them once, and the reader exactly if it was opened.
What an aborted process leaves open the system has to close.
-/

open RtpSender.Emitter RtpSender.History RtpSender.Wire
open RtpSender.RtpSendingSession RtpSender.Source

namespace RtpSender.Main

variable {channels : ℕ} (toTimestamp : ℤ → UInt32)

/-! ## Descriptors -/

/-- The descriptors that the sessions know. -/
def sockets (program : Program channels) : List ℕ :=
  (List.finRange channels).filterMap fun chn ↦ (program.sessions chn).tcpSock

/-- Nothing is sent on a descriptor that is not open. -/
def SendsOpen (calls : List Syscall) : Prop :=
  HistoryForall (fun before call ↦
    ∀ fd buffer, call = .send (some fd) buffer → fd ∈ openSockets before) calls

/-- The sessions know the open descriptors. -/
structure Owned (program : Program channels) (calls : List Syscall) : Prop where
  open_perm : (openSockets calls).Perm (sockets program)
  closes : ClosesOpen calls
  sends : SendsOpen calls

/-- The descriptors of the other sessions. -/
def otherSockets (program : Program channels) (chn : Fin channels) : List ℕ :=
  ((List.finRange channels).erase chn).filterMap fun chn' ↦ (program.sessions chn').tcpSock

theorem sockets_perm (program : Program channels) (chn : Fin channels) :
    (sockets program).Perm
      ((program.sessions chn).tcpSock.toList ++ otherSockets program chn) := by
  have hperm := (List.perm_cons_erase (List.mem_finRange chn)).filterMap
    fun chn' ↦ (program.sessions chn').tcpSock
  unfold sockets otherSockets
  refine hperm.trans ?_
  cases h : (program.sessions chn).tcpSock with
  | none => simp [h]
  | some fd => simp [h]

/-- Program and session after a step of the session of a channel. -/
structure Replaces (chn : Fin channels) (s : Session) (program program' : Program channels) :
    Prop where
  self : program'.sessions chn = s
  others : ∀ chn' ≠ chn, program'.sessions chn' = program.sessions chn'

theorem replaces_update (chn : Fin channels) (s : Session) (program : Program channels)
    (sources : Fin channels → CustomFramedSource (Fin channels)) :
    Replaces chn s program ⟨Function.update program.sessions chn s, sources⟩ where
  self := Function.update_self _ _ _
  others _ hne := Function.update_of_ne hne _ _

section Replaces

variable {chn : Fin channels} {s : Session} {program program' : Program channels}
  {calls calls' : List Syscall}

theorem Replaces.otherSockets_eq (h : Replaces chn s program program') :
    otherSockets program' chn = otherSockets program chn := by
  apply List.filterMap_congr
  intro chn' hmem
  rw [h.others chn' ((List.nodup_finRange channels).mem_erase_iff.mp hmem).1]

theorem Replaces.sockets_perm (h : Replaces chn s program program') :
    (sockets program').Perm (s.tcpSock.toList ++ otherSockets program chn) := by
  have hperm := Main.sockets_perm program' chn
  rwa [h.self, h.otherSockets_eq] at hperm

theorem Owned.mem (h : Owned program calls) {fd : ℕ}
    (hsock : (program.sessions chn).tcpSock = some fd) : fd ∈ openSockets calls := by
  rw [(h.open_perm.trans (sockets_perm program chn)).mem_iff, hsock]
  exact List.mem_cons_self ..

theorem SendsOpen.append (h : SendsOpen calls) (hquiet : ∀ fd buffer, .send fd buffer ∉ calls') :
    SendsOpen (calls ++ calls') := by
  induction calls' using List.reverseRecOn with
  | nil => rwa [List.append_nil]
  | append_singleton calls' call ih =>
    rw [← List.append_assoc]
    refine historyForall_concat.mpr ⟨ih fun fd buffer hmem ↦
      hquiet fd buffer (List.mem_append_left _ hmem), ?_⟩
    rintro fd buffer rfl
    exact absurd (List.mem_append_right _ (List.mem_singleton_self _)) (hquiet (some fd) buffer)

/-- A session that has no descriptor starts. -/
theorem Owned.start (h : Owned program calls) (ip : String) (port : ℤ) (streamId : String)
    (outcome : StartOutcome) (hnone : (program.sessions chn).tcpSock = none)
    (hreplaces : Replaces chn
      (RtpSendingSession.start ip port streamId outcome (program.sessions chn)).1.1
      program program') :
    Owned program' (calls ++
      (RtpSendingSession.start ip port streamId outcome (program.sessions chn)).1.2) where
  open_perm := by
    have hbefore := h.open_perm.trans (sockets_perm program chn)
    rw [hnone, Option.toList_none, List.nil_append] at hbefore
    rw [openSockets_start]
    refine (hbefore.append_left _).trans ?_
    have hafter := hreplaces.sockets_perm
    rw [start_tcpSock] at hafter
    exact hafter.symm
  closes := closesOpen_start ip port streamId outcome _ h.closes
  sends := h.sends.append fun fd buffer ↦ not_send_mem_start ip port streamId outcome _ fd buffer

theorem Owned.stop (h : Owned program calls)
    (hreplaces : Replaces chn (RtpSendingSession.stop (program.sessions chn)).1 program program') :
    Owned program' (calls ++ (RtpSendingSession.stop (program.sessions chn)).2) := by
  have hbefore := h.open_perm.trans (sockets_perm program chn)
  have hafter := hreplaces.sockets_perm
  rw [stop_tcpSock, Option.toList_none, List.nil_append] at hafter
  refine ⟨?_, ?_, h.sends.append fun fd buffer ↦ not_send_mem_stop _ fd buffer⟩
  · refine List.Perm.trans ?_ hafter.symm
    unfold RtpSendingSession.stop
    cases hsock : (program.sessions chn).tcpSock with
    | none =>
      rw [hsock, Option.toList_none, List.nil_append] at hbefore
      rwa [List.append_nil]
    | some fd =>
      rw [hsock] at hbefore
      rw [openSockets_concat]
      exact (hbefore.erase fd).trans (by simp)
  · unfold RtpSendingSession.stop
    cases hsock : (program.sessions chn).tcpSock with
    | none => rw [List.append_nil]; exact h.closes
    | some fd =>
      refine closesOpen_concat _ h.closes fun closed hclosed ↦ ?_
      rw [← Syscall.close.inj hclosed]
      exact h.mem hsock

/-- Packets of a session leave all descriptors as they are. -/
theorem Owned.send (h : Owned program calls)
    (hcalls : ∀ call ∈ calls', ∃ buffer, call = .send (program.sessions chn).tcpSock buffer) :
    Owned program (calls ++ calls') := by
  induction calls' using List.reverseRecOn with
  | nil => rwa [List.append_nil]
  | append_singleton calls' call ih =>
    have hbefore := ih fun call hmem ↦ hcalls call (List.mem_append_left _ hmem)
    obtain ⟨buffer, rfl⟩ := hcalls _ (List.mem_append_right _ (List.mem_singleton_self _))
    rw [← List.append_assoc]
    refine ⟨?_, closesOpen_concat _ hbefore.closes (by simp), ?_⟩
    · rw [openSockets_concat]
      exact hbefore.open_perm
    · refine historyForall_concat.mpr ⟨hbefore.sends, fun fd buffer' hsend ↦ ?_⟩
      exact hbefore.mem (Syscall.send.inj hsend).1

theorem Owned.replace (h : Owned program calls) (hreplaces : Replaces chn s program program')
    (hsock : s.tcpSock = (program.sessions chn).tcpSock) : Owned program' calls where
  open_perm := by
    have hafter := hreplaces.sockets_perm
    rw [hsock] at hafter
    exact (h.open_perm.trans (sockets_perm program chn)).trans hafter.symm
  closes := h.closes
  sends := h.sends

end Replaces

/-! ## The parts of the process -/

theorem owned_construct (rtpPort : Fin channels → ℤ) (rtpSsrc : Fin channels → UInt32) :
    Owned (Program.construct rtpPort rtpSsrc) [] where
  open_perm := by
    have hnone : sockets (Program.construct rtpPort rtpSsrc) = [] := by
      rw [sockets, List.filterMap_eq_nil_iff]
      exact fun _ _ ↦ rfl
    rw [hnone]
    rfl
  closes := historyForall_nil
  sends := historyForall_nil

theorem owned_setUp (serverIp : String) (basePort : ℤ) (outcomes : Fin channels → StartOutcome)
    {chns : List (Fin channels)} (hnodup : chns.Nodup) {program : Program channels}
    (hnone : ∀ chn ∈ chns, (program.sessions chn).tcpSock = none) {calls : List Syscall}
    (h : Owned program calls) :
    Owned (setUp serverIp basePort outcomes chns program).1.1
      (calls ++ syscalls (setUp serverIp basePort outcomes chns program).1.2) := by
  induction chns generalizing program calls with
  | nil => rwa [setUp, syscalls, List.filterMap_nil, List.append_nil]
  | cons chn chns ih =>
    obtain ⟨session, made, ok, hstart, hround⟩ :=
      setUp_cons serverIp basePort outcomes chn chns program
    have howned (program' : Program channels) :=
      @Owned.start channels chn program program' calls h serverIp (basePort + chn * 2)
        ("cam0" ++ toString chn.val) (outcomes chn) (hnone chn (List.mem_cons_self ..))
    rw [hstart] at howned
    rw [hround]
    cases ok with
    | false =>
      simp only [Bool.false_eq_true, if_false, syscalls_append, syscalls_syscall]
      change Owned _ (calls ++ (made ++ []))
      rw [List.append_nil]
      exact howned _ (replaces_update chn session program _)
    | true =>
      simp only [if_true, syscalls_append, syscalls_syscall]
      rw [← List.append_assoc]
      refine ih (List.nodup_cons.mp hnodup).2 ?_ (howned _ (replaces_update chn session program _))
      intro chn' hmem
      have hne : chn' ≠ chn := by
        rintro rfl
        exact (List.nodup_cons.mp hnodup).1 hmem
      have hkept : Function.update program.sessions chn session chn' = program.sessions chn' :=
        Function.update_of_ne hne _ _
      exact (congrArg Session.tcpSock hkept).trans (hnone chn' (List.mem_cons_of_mem _ hmem))

section Loop

variable {calls : List Syscall}

theorem owned_callSendFrame (chn : Fin channels) (input : FrameInput) {program : Program channels}
    (h : Owned program calls) :
    Owned { program with sessions := (callSendFrame toTimestamp chn input program.sessions).1 }
      (calls ++ syscalls ((callSendFrame toTimestamp chn input program.sessions).2.map .act)) := by
  have hvia := Receiver.sendsVia_sendFrame toTimestamp input (program.sessions chn)
  have hsent : Owned program (calls ++ (sendFrame toTimestamp input (program.sessions chn)).2) :=
    h.send fun call hcall ↦ by
      obtain ⟨packet, -, hsend⟩ := hvia.sends call hcall
      exact ⟨packet.buffer, hsend⟩
  have hsyscalls : syscalls ((callSendFrame toTimestamp chn input program.sessions).2.map .act) =
      (sendFrame toTimestamp input (program.sessions chn)).2 := by
    change syscalls (((sendFrame toTimestamp input (program.sessions chn)).2.map
      (Action.syscall chn)).map .act) = _
    rw [List.map_map]
    exact syscalls_syscall chn _
  rw [hsyscalls]
  exact hsent.replace (replaces_update chn _ program program.sources) hvia.sock_eq

/-- What has happened before the dispatch loop, and the loop so far. -/
def OwnedAfter (calls : List Syscall) (program : Program channels)
    (actions : List (Action channels)) : Prop :=
  Owned program (calls ++ syscalls (actions.map .act))

theorem owned_handle (chn : Fin channels) (now : Timeval) (event : Event (Fin channels)) :
    Preserves (OwnedAfter calls) (handle toTimestamp chn now event) := by
  intro program actions h
  unfold OwnedAfter at h ⊢
  rw [List.map_append, syscalls_append, ← List.append_assoc]
  cases event with
  | dropped frame =>
    change Owned program (calls ++ syscalls (actions.map .act) ++ [])
    rwa [List.append_nil]
  | delivered callback frame => exact owned_callSendFrame toTimestamp callback _ h

theorem owned_run (records : List Record) :
    Preserves (OwnedAfter calls) (run toTimestamp records : Emit (Program channels) _) := by
  refine preserves_forEach fun record _ program actions h ↦ ?_
  unfold dispatch
  cases (channelIndex record.chn : Option (Fin channels)) with
  | none => rwa [List.append_nil]
  | some chn =>
    dsimp only
    split
    · rwa [List.append_nil]
    · split
      · rwa [List.append_nil]
      · have hevents (events : List (Event (Fin channels))) :
            Preserves (OwnedAfter calls) (forEach (handle toTimestamp chn record.now) events) :=
          preserves_forEach fun event _ ↦ owned_handle toTimestamp chn record.now event
        exact hevents _ _ actions ⟨h.open_perm, h.closes, h.sends⟩

theorem owned_stopSessions {program : Program channels} (h : Owned program calls) :
    Owned (stopSessions program).1 (calls ++ syscalls (stopSessions program).2) := by
  have hkeep : Preserves (fun program effects ↦ Owned program (calls ++ syscalls effects))
      (stopSessions : Emit (Program channels) (Effect channels)) := by
    refine preserves_forEach fun chn _ program effects h ↦ ?_
    rw [syscalls_append, ← List.append_assoc]
    have hstop := h.stop (replaces_update chn (stop (program.sessions chn)).1 program
      program.sources)
    rw [← syscalls_syscall chn (stop (program.sessions chn)).2] at hstop
    exact hstop
  refine hkeep program [] ?_
  change Owned program (calls ++ [])
  rwa [List.append_nil]

theorem tcpSock_forEach_stopSession (chns : List (Fin channels)) (program : Program channels)
    (chn : Fin channels) :
    ((forEach stopSession chns program).1.sessions chn).tcpSock =
      if chn ∈ chns then none else (program.sessions chn).tcpSock := by
  induction chns generalizing program with
  | nil => rfl
  | cons first chns ih =>
    rw [forEach_cons, andThen_fst, ih]
    rcases eq_or_ne chn first with rfl | hne
    · simp [stopSession, stop_tcpSock]
    · simp [stopSession, hne]

theorem sockets_stopSessions (program : Program channels) :
    sockets (stopSessions program).1 = [] := by
  rw [sockets, List.filterMap_eq_nil_iff]
  intro chn hmem
  rw [stopSessions, tcpSock_forEach_stopSession, if_pos hmem]

/-- Behind the destructors no descriptor is open. -/
theorem Owned.destroyed {program : Program channels} (h : Owned program calls) :
    openSockets (calls ++ syscalls (stopSessions program).2) = [] := by
  have hafter := (owned_stopSessions h).open_perm
  rw [sockets_stopSessions] at hafter
  exact hafter.eq_nil

end Loop

/-! ## Every way out -/

/-- What the process does about its reader. -/
def readerEffects (effects : List (Effect channels)) : List (Effect channels) :=
  effects.filter fun
    | .openReader .. | .closeReader => true
    | _ => false

/-- What the process does about its reader if it gets that far. -/
def readerUse (file : String) (opened : Bool) : List (Effect channels) :=
  .openReader file opened :: if opened then [.closeReader] else []

/-- What the process owes the system. -/
structure Clean (effects : List (Effect channels)) (exit : Exit) : Prop where
  closes : ClosesOpen (syscalls effects)
  sends : SendsOpen (syscalls effects)
  /-- The reader is closed at most once, and if it was opened only. -/
  reader : ∃ file opened, readerEffects effects <+: readerUse file opened
  /-- Where the destructors run, no descriptor is left open. -/
  balanced : ∀ status, exit = .code status → ∀ fd,
    (syscalls effects).count (.socket (some fd)) = (syscalls effects).count (.close fd)
  readerClosed : ∀ status, exit = .code status →
    readerEffects effects = [] ∨ ∃ file opened, readerEffects effects = readerUse file opened

theorem owned_serve (world : World channels) (inputFile serverIp : String) (basePort : ℤ) :
    Owned (serve toTimestamp world inputFile serverIp basePort
        (Program.construct world.rtpPort world.rtpSsrc)).1.1
      (syscalls (serve toTimestamp world inputFile serverIp basePort
        (Program.construct world.rtpPort world.rtpSsrc)).1.2) := by
  have hstarted := owned_setUp serverIp basePort world.outcomes (List.nodup_finRange channels)
    (fun _ _ ↦ rfl) (owned_construct world.rtpPort world.rtpSsrc)
  rw [List.nil_append] at hstarted
  have hquiet {effects : List (Effect channels)} (hcalls : syscalls effects = [])
      {program : Program channels} {calls : List Syscall} (h : Owned program calls) :
      Owned program (calls ++ syscalls effects) := by
    rwa [hcalls, List.append_nil]
  rcases serve_cases toTimestamp world inputFile serverIp basePort
    (Program.construct world.rtpPort world.rtpSsrc) with
    ⟨-, hserve⟩ | ⟨-, -, hserve⟩ | ⟨-, -, hserve⟩
  · rw [hserve]
    exact hstarted
  · rw [hserve, syscalls_append]
    exact hquiet rfl hstarted
  · rw [hserve]
    simp only [syscalls_append]
    generalize (setUp serverIp basePort world.outcomes (List.finRange channels)
      (Program.construct world.rtpPort world.rtpSsrc)).1 = result at hstarted ⊢
    obtain ⟨program, started⟩ := result
    have hopened : OwnedAfter (syscalls started ++ syscalls [.openReader inputFile true])
        program [] := hquiet rfl (hquiet rfl hstarted)
    have hdispatched := owned_run toTimestamp world.records program [] hopened
    rw [List.nil_append] at hdispatched
    exact hquiet rfl (owned_stopSessions (hquiet rfl hdispatched))

theorem readerEffects_append (effects effects' : List (Effect channels)) :
    readerEffects (effects ++ effects') = readerEffects effects ++ readerEffects effects' :=
  List.filter_append _ _

theorem readerEffects_act (actions : List (Action channels)) :
    readerEffects (actions.map .act) = [] := by
  rw [readerEffects, List.filter_eq_nil_iff]
  intro effect hmem
  obtain ⟨action, -, rfl⟩ := List.mem_map.mp hmem
  exact Bool.false_ne_true

theorem readerEffects_of_quiet {effects : List (Effect channels)}
    (h : ∀ effect ∈ effects, effect.Quiet) : readerEffects effects = [] := by
  rw [readerEffects, List.filter_eq_nil_iff]
  intro effect hmem
  have hquiet := h effect hmem
  match effect with
  | .act _ | .print _ => exact Bool.false_ne_true

theorem readerEffects_serve (world : World channels) (inputFile serverIp : String) (basePort : ℤ)
    (program : Program channels) :
    let effects := (serve toTimestamp world inputFile serverIp basePort program).1.2
    readerEffects effects = [] ∨ ∃ opened, readerEffects effects = readerUse inputFile opened := by
  have hstarted : readerEffects (setUp serverIp basePort world.outcomes
      (List.finRange channels) program).1.2 = [] :=
    readerEffects_of_quiet fun _ hmem ↦ quiet_setUp hmem
  rcases serve_cases toTimestamp world inputFile serverIp basePort program with
    ⟨-, hserve⟩ | ⟨-, -, hserve⟩ | ⟨-, -, hserve⟩
  · exact .inl (by rwa [hserve])
  · refine .inr ⟨false, ?_⟩
    rw [hserve, readerEffects_append, hstarted]
    rfl
  · refine .inr ⟨true, ?_⟩
    rw [hserve]
    simp only [readerEffects_append, hstarted, readerEffects_act,
      readerEffects_of_quiet fun _ hmem ↦ quiet_stopSessions hmem]
    rfl

/-- The undisturbed process keeps all of it. -/
theorem clean_undisturbed (world : World channels) (name : String) (args : List String) :
    Clean (undisturbed toTimestamp world name args).1
      (undisturbed toTimestamp world name args).2 := by
  rcases undisturbed_cases toTimestamp world name args with
    ⟨inputFile, serverIp, port, rest, basePort, -, -, hserved⟩ | ⟨-, -, messages, hmessages⟩
  · rw [hserved]
    have howned := owned_serve toTimestamp world inputFile serverIp basePort
    have hreader := readerEffects_serve toTimestamp world inputFile serverIp basePort
      (Program.construct world.rtpPort world.rtpSsrc)
    dsimp only at hreader ⊢
    generalize serve toTimestamp world inputFile serverIp basePort
      (Program.construct world.rtpPort world.rtpSsrc) = result at howned hreader ⊢
    obtain ⟨⟨program, effects⟩, exit⟩ := result
    have hdestroyed := owned_stopSessions howned
    rw [← syscalls_append] at hdestroyed
    have hopen := howned.destroyed
    rw [← syscalls_append] at hopen
    have hall : readerEffects (effects ++ (stopSessions program).2) = readerEffects effects := by
      rw [readerEffects_append, readerEffects_of_quiet fun _ hmem ↦ quiet_stopSessions hmem,
        List.append_nil]
    rw [← hall] at hreader
    refine ⟨hdestroyed.closes, hdestroyed.sends, ?_, fun _ _ fd ↦ ?_, fun _ _ ↦ ?_⟩
    · rcases hreader with hnone | ⟨opened, hused⟩
      · exact ⟨inputFile, false, hnone ▸ List.nil_prefix⟩
      · exact ⟨inputFile, opened, hused ▸ List.prefix_rfl⟩
    · rw [hdestroyed.closes.count_socket fd, hopen, List.count_nil, Nat.add_zero]
    · exact hreader.imp_right fun ⟨opened, hused⟩ ↦ ⟨inputFile, opened, hused⟩
  · have hcalls : syscalls (messages.map .print : List (Effect channels)) = [] := by
      rw [syscalls, List.filterMap_map, List.filterMap_eq_nil_iff]
      exact fun _ _ ↦ rfl
    have hreader : readerEffects (messages.map .print : List (Effect channels)) = [] :=
      readerEffects_of_quiet fun _ hmem ↦ quiet_of_mem_messages hmem
    rw [hmessages]
    refine ⟨?_, ?_, ⟨"", false, ?_⟩, fun _ _ fd ↦ ?_, fun _ _ ↦ .inl hreader⟩
    · rw [hcalls]
      exact historyForall_nil
    · rw [hcalls]
      exact historyForall_nil
    · rw [hreader]
      exact List.nil_prefix
    · rw [hcalls]
      rfl

end RtpSender.Main
