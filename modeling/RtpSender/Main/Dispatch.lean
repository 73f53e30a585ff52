import Mathlib.Data.Fintype.Basic
import RtpSender.Session.TimeBase
import RtpSender.Source.CustomFramedSource

/-!
# The dispatch loop

The `Updated upstream` side of `main.cpp`: every channel has a session and a source whose callback
sends on the session, and the loop pushes the records of a reader into the sources.  Since the
callbacks are installed before the first push, no source ever has a backlog.  The program therefore
does what it would do without sources, with a call of `sendFrame` for each record that passes the
filter of the loop.

The number of channels is a parameter; it is `maxChannels` in the source.  The bodies of the
callbacks run behind the push that calls them, which makes no difference, since they do not touch
the sources.
-/

open RtpSender.Emitter RtpSender.History RtpSender.Wire
open RtpSender.RtpSendingSession RtpSender.Source

namespace RtpSender.Main

/-! ## The program -/

def maxChannels : ℕ := 1

def frameTypeH264I : ℤ := 0
def frameTypeH264P : ℤ := 1

/-- What `ze_mxm_read_frame` stores, and the clock while the record is dispatched. -/
structure Record where
  chn : ℤ
  streamType : ℤ
  frameType : ℤ
  frameLen : ℤ
  framePts : ℤ
  frameBuf : Bytes
  now : Timeval
  frameBuf_length : frameBuf.length = 1024 * 1024
  frameLen_le : frameLen ≤ 1024 * 1024

/-- The callback of a source is the channel that its lambda captures. -/
structure Program (channels : ℕ) where
  sessions : Fin channels → Session
  sources : Fin channels → CustomFramedSource (Fin channels)

inductive Action (channels : ℕ) where
  | syscall (chn : Fin channels) (call : Syscall)
  | sendFrame (chn : Fin channels) (input : FrameInput)
  | dropped (chn : Fin channels) (frame : Frame)

/-- What the whole of `main` does, outside its loop too. -/
inductive Effect (channels : ℕ) where
  | act (action : Action channels)
  | openReader (file : String) (opened : Bool)
  | closeReader
  | print (text : String)

variable {channels : ℕ}

/-- The vectors of sessions and sources before the first loop; the members of a session without
initialisers are arbitrary. -/
def Program.construct (rtpPort : Fin channels → ℤ) (rtpSsrc : Fin channels → UInt32) :
    Program channels where
  sessions chn := Session.construct (rtpPort chn) (rtpSsrc chn)
  sources _ := CustomFramedSource.construct

/-- The first loop of `main`, which ends with a message at the first session that does not start;
the second component tells whether it ran to its end. -/
def setUp (serverIp : String) (basePort : ℤ) (outcomes : Fin channels → StartOutcome) :
    List (Fin channels) → Program channels → (Program channels × List (Effect channels)) × Bool
  | [], program => ((program, []), true)
  | chn :: chns, program =>
    let ((session, calls), ok) := start serverIp (basePort + chn * 2) ("cam0" ++ toString chn.val)
      (outcomes chn) (program.sessions chn)
    let sessions := Function.update program.sessions chn session
    let effects := calls.map fun call ↦ .act (.syscall chn call)
    if ok then
      let (source, _) := setCallback (some chn) (program.sources chn)
      let ((final, later), ok) := setUp serverIp basePort outcomes chns
        ⟨sessions, Function.update program.sources chn source⟩
      ((final, effects ++ later), ok)
    else
      (({ program with sessions := sessions }, effects ++ [.print
        ("[ERROR] Failed to start RTP session for channel " ++ toString chn.val ++ "\n")]), false)

variable (toTimestamp : ℤ → UInt32)

/-- A call of `sendFrame` on the session of a channel. -/
def callSendFrame (chn : Fin channels) (input : FrameInput) :
    Emit (Fin channels → Session) (Action channels) := fun sessions ↦
  let (session, calls) := RtpSendingSession.sendFrame toTimestamp input (sessions chn)
  (Function.update sessions chn session, .sendFrame chn input :: calls.map (.syscall chn))

/-- What becomes of a frame that leaves the source of a channel. -/
def handle (chn : Fin channels) (now : Timeval) :
    Event (Fin channels) → Emit (Program channels) (Action channels)
  | .dropped frame => fun program ↦ (program, [.dropped chn frame])
  | .delivered callback frame => fun program ↦
    let (sessions, actions) :=
      callSendFrame toTimestamp callback ⟨frame.buff, frame.pts, now⟩ program.sessions
    ({ program with sessions := sessions }, actions)

/-- The index that a channel number is used as, if it passes the first test of the loop. -/
def channelIndex (chn : ℤ) : Option (Fin channels) :=
  if h : chn.toNat < channels then if chn < 0 then none else some ⟨chn.toNat, h⟩ else none

/-- One round of the second loop of `main`. -/
def dispatch (record : Record) : Emit (Program channels) (Action channels) := fun program ↦
  match channelIndex record.chn with
  | none => (program, [])
  | some chn =>
    if record.frameLen ≤ 0 then (program, [])
    else if record.frameType ≠ frameTypeH264I ∧ record.frameType ≠ frameTypeH264P then (program, [])
    else
      let (source, events) := pushFrame (record.frameBuf.take record.frameLen.toNat)
        record.framePts record.chn record.streamType record.frameType (program.sources chn)
      forEach (handle toTimestamp chn record.now) events
        { program with sources := Function.update program.sources chn source }

def run (records : List Record) : Emit (Program channels) (Action channels) :=
  forEach (dispatch toTimestamp) records

/-! ## The program without sources -/

/-- The call that a record asks of the session of a channel. -/
def Record.callOn (chn : Fin channels) (record : Record) : Option FrameInput :=
  if record.chn = chn ∧ 0 < record.frameLen ∧
      (record.frameType = frameTypeH264I ∨ record.frameType = frameTypeH264P) then
    some ⟨record.frameBuf.take record.frameLen.toNat, record.framePts, record.now⟩
  else none

/-- The session that a record calls on, with the call. -/
def Record.target (record : Record) : Option (Fin channels × FrameInput) :=
  (channelIndex record.chn).bind fun chn ↦ (record.callOn chn).map fun input ↦ (chn, input)

/-- The call is made on the session itself. -/
def sendDirectly (record : Record) : Emit (Fin channels → Session) (Action channels) :=
  match record.target with
  | none => skip
  | some (chn, input) => callSendFrame toTimestamp chn input

/-- The calls of `sendFrame` on the session of a channel. -/
def callsOn (chn : Fin channels) (actions : List (Action channels)) : List FrameInput :=
  actions.filterMap fun
    | .sendFrame chn' input => if chn' = chn then some input else none
    | _ => none

/-- The system calls of the session of a channel. -/
def syscallsOn (chn : Fin channels) (actions : List (Action channels)) : List Syscall :=
  actions.filterMap fun
    | .syscall chn' call => if chn' = chn then some call else none
    | _ => none

/-- The sources make no difference when the program goes on with some records. -/
structure Transparent (program : Program channels) (records : List Record) : Prop where
  calls : ∀ chn, callsOn chn (run toTimestamp records program).2 =
    records.filterMap (Record.callOn chn)
  lengths : ∀ record ∈ records, ∀ (chn : Fin channels) input, record.callOn chn = some input →
    (input.data.length : ℤ) = record.frameLen
  queues : HistoryForall (fun before record ↦
    ∀ chn, ((run toTimestamp (before ++ [record]) program).1.sources chn).frameQueue = []) records
  drops : ∀ chn frame, .dropped chn frame ∉ (run toTimestamp records program).2
  direct : ((run toTimestamp records program).1.sessions, (run toTimestamp records program).2) =
    forEach (sendDirectly toTimestamp) records program.sessions

theorem channelIndex_eq_some_iff {number : ℤ} {chn : Fin channels} :
    channelIndex number = some chn ↔ number = chn := by
  unfold channelIndex
  constructor
  · intro h
    split at h
    · split at h
      · cases h
      · rw [← Option.some.inj h]
        simp only
        omega
    · cases h
  · rintro rfl
    simp

theorem length_of_callOn {record : Record} {chn : Fin channels} {input : FrameInput}
    (h : record.callOn chn = some input) : (input.data.length : ℤ) = record.frameLen := by
  obtain ⟨⟨-, hpos, -⟩, hinput⟩ := Option.ite_none_right_eq_some.mp h
  have hroom := record.frameLen_le
  rw [← Option.some.inj hinput, List.length_take, record.frameBuf_length]
  omega

/-- The filter of the loop, in the order of its tests. -/
theorem callOn_of_index {record : Record} {chn : Fin channels}
    (h : channelIndex record.chn = some chn) :
    record.callOn chn =
      if record.frameLen ≤ 0 then none
      else if record.frameType ≠ frameTypeH264I ∧ record.frameType ≠ frameTypeH264P then none
      else some ⟨record.frameBuf.take record.frameLen.toNat, record.framePts, record.now⟩ := by
  have hnumber := channelIndex_eq_some_iff.mp h
  unfold Record.callOn
  by_cases hlen : record.frameLen ≤ 0
  · rw [if_pos hlen, if_neg (by omega)]
  · rw [if_neg hlen]
    by_cases htype : record.frameType = frameTypeH264I ∨ record.frameType = frameTypeH264P
    · have hnot : ¬ (record.frameType ≠ frameTypeH264I ∧ record.frameType ≠ frameTypeH264P) :=
        fun hother ↦ htype.elim hother.1 hother.2
      rw [if_neg hnot, if_pos ⟨hnumber, not_le.mp hlen, htype⟩]
    · rw [if_pos (not_or.mp htype), if_neg fun hcall ↦ htype hcall.2.2]

theorem target_eq_some_iff {record : Record} {chn : Fin channels} {input : FrameInput} :
    record.target = some (chn, input) ↔ record.callOn chn = some input := by
  simp only [Record.target, Option.bind_eq_some_iff, Option.map_eq_some_iff, Prod.mk.injEq]
  constructor
  · rintro ⟨chn', -, input', hcall, rfl, rfl⟩
    exact hcall
  · intro hcall
    have hnumber := (Option.ite_none_right_eq_some.mp hcall).1.1
    exact ⟨chn, channelIndex_eq_some_iff.mpr hnumber, input, hcall, rfl, rfl⟩

theorem callOn_of_target {record : Record} {chn : Fin channels}
    (h : ∀ input, record.target ≠ some (chn, input)) : record.callOn chn = none := by
  rw [Option.eq_none_iff_forall_ne_some]
  exact fun input hcall ↦ h input (target_eq_some_iff.mpr hcall)

/-! ## Calls of the program without sources -/

@[simp]
theorem callsOn_append (chn : Fin channels) (actions actions' : List (Action channels)) :
    callsOn chn (actions ++ actions') = callsOn chn actions ++ callsOn chn actions' :=
  List.filterMap_append

theorem callsOn_callSendFrame (chn chn' : Fin channels) (input : FrameInput)
    (sessions : Fin channels → Session) :
    callsOn chn (callSendFrame toTimestamp chn' input sessions).2 =
      if chn' = chn then [input] else [] := by
  have hsyscalls (calls : List Syscall) :
      callsOn chn (calls.map (Action.syscall chn')) = [] := by
    unfold callsOn
    rw [List.filterMap_map, List.filterMap_eq_nil_iff]
    intro call _
    rfl
  have hsplit : (callSendFrame toTimestamp chn' input sessions).2 =
      [.sendFrame chn' input] ++
        (RtpSendingSession.sendFrame toTimestamp input (sessions chn')).2.map
          (Action.syscall chn') := rfl
  rw [hsplit, callsOn_append, hsyscalls, List.append_nil]
  by_cases h : chn' = chn
  · simp [callsOn, h]
  · simp [callsOn, h]

theorem callsOn_sendDirectly (chn : Fin channels) (record : Record)
    (sessions : Fin channels → Session) :
    callsOn chn (sendDirectly toTimestamp record sessions).2 = (record.callOn chn).toList := by
  unfold sendDirectly
  cases htarget : (record.target : Option (Fin channels × FrameInput)) with
  | none =>
    rw [callOn_of_target fun input heq ↦ Option.some_ne_none _ (heq.symm.trans htarget)]
    rfl
  | some call =>
    obtain ⟨chn', input⟩ := call
    have hcall := target_eq_some_iff.mp htarget
    rw [callsOn_callSendFrame]
    by_cases hchn : chn' = chn
    · rw [if_pos hchn, ← hchn, hcall, Option.toList_some]
    · have hother : record.callOn chn = none := callOn_of_target fun input' heq ↦
        hchn (Prod.mk.inj (Option.some.inj (htarget.symm.trans heq))).1
      rw [if_neg hchn, hother, Option.toList_none]

theorem callsOn_forEach_sendDirectly (chn : Fin channels) (records : List Record)
    (sessions : Fin channels → Session) :
    callsOn chn (forEach (sendDirectly toTimestamp) records sessions).2 =
      records.filterMap (Record.callOn chn) := by
  induction records generalizing sessions with
  | nil => rfl
  | cons record records ih =>
    rw [forEach_cons, andThen_snd, callsOn_append, callsOn_sendDirectly, ih]
    cases h : record.callOn chn with
    | none => rw [List.filterMap_cons_none h, Option.toList_none, List.nil_append]
    | some input => rw [List.filterMap_cons_some h, Option.toList_some, List.singleton_append]

theorem syscallsOn_append (chn : Fin channels) (actions actions' : List (Action channels)) :
    syscallsOn chn (actions ++ actions') = syscallsOn chn actions ++ syscallsOn chn actions' :=
  List.filterMap_append

theorem syscallsOn_syscall (chn chn' : Fin channels) (calls : List Syscall) :
    syscallsOn chn (calls.map (.syscall chn')) = if chn' = chn then calls else [] := by
  unfold syscallsOn
  rw [List.filterMap_map]
  by_cases h : chn' = chn
  · simp [h]
  · simp [h]

theorem syscallsOn_callSendFrame (chn chn' : Fin channels) (input : FrameInput)
    (sessions : Fin channels → Session) :
    syscallsOn chn (callSendFrame toTimestamp chn' input sessions).2 =
      if chn' = chn then (RtpSendingSession.sendFrame toTimestamp input (sessions chn)).2 else [] := by
  have hsplit : (callSendFrame toTimestamp chn' input sessions).2 =
      [.sendFrame chn' input] ++
        (RtpSendingSession.sendFrame toTimestamp input (sessions chn')).2.map
          (.syscall chn') := rfl
  rw [hsplit, syscallsOn_append, syscallsOn_syscall]
  rcases eq_or_ne chn' chn with rfl | hne
  · simp [syscallsOn]
  · simp [syscallsOn, hne]

theorem dropped_notMem_forEach_sendDirectly (records : List Record)
    (sessions : Fin channels → Session) (chn : Fin channels) (frame : Frame) :
    .dropped chn frame ∉ (forEach (sendDirectly toTimestamp) records sessions).2 := by
  have hkeep : Preserves (fun (_ : Fin channels → Session) (actions : List (Action channels)) ↦
      .dropped chn frame ∉ actions) (forEach (sendDirectly toTimestamp) records) := by
    apply preserves_forEach
    intro record _ state actions hactions
    rw [List.mem_append, not_or]
    refine ⟨hactions, ?_⟩
    unfold sendDirectly
    cases (record.target : Option (Fin channels × FrameInput)) with
    | none => exact List.not_mem_nil
    | some call => simp [callSendFrame]
  exact hkeep sessions [] List.not_mem_nil

/-! ## The wiring -/

/-- No source has a backlog, and each one calls back for its own channel. -/
structure Wired (program : Program channels) : Prop where
  queue : ∀ chn, (program.sources chn).frameQueue = []
  callback : ∀ chn, (program.sources chn).callback = some chn

/-- One round of the first loop: the session does not start, or it does and the loop goes on. -/
theorem setUp_cons (serverIp : String) (basePort : ℤ) (outcomes : Fin channels → StartOutcome)
    (chn : Fin channels) (chns : List (Fin channels)) (program : Program channels) :
    ∃ session calls ok, start serverIp (basePort + chn * 2) ("cam0" ++ toString chn.val)
        (outcomes chn) (program.sessions chn) = ((session, calls), ok) ∧
      let effects := calls.map fun call ↦ .act (.syscall chn call)
      let sessions := Function.update program.sessions chn session
      let source := { program.sources chn with callback := some chn }
      let next := setUp serverIp basePort outcomes chns
        ⟨sessions, Function.update program.sources chn source⟩
      setUp serverIp basePort outcomes (chn :: chns) program =
        if ok then ((next.1.1, effects ++ next.1.2), next.2)
        else (({ program with sessions := sessions }, effects ++ [.print
          ("[ERROR] Failed to start RTP session for channel " ++ toString chn.val ++ "\n")]),
          false) :=
  ⟨_, _, _, rfl, rfl⟩

theorem sources_setUp (serverIp : String) (basePort : ℤ) (outcomes : Fin channels → StartOutcome)
    (chns : List (Fin channels)) (program : Program channels)
    (h : (setUp serverIp basePort outcomes chns program).2 = true) (chn : Fin channels) :
    (setUp serverIp basePort outcomes chns program).1.1.sources chn =
      if chn ∈ chns then { program.sources chn with callback := some chn }
      else program.sources chn := by
  induction chns generalizing program with
  | nil => rfl
  | cons first chns ih =>
    obtain ⟨session, calls, ok, -, hround⟩ :=
      setUp_cons serverIp basePort outcomes first chns program
    rw [hround] at h ⊢
    cases ok with
    | false => cases h
    | true =>
      refine (ih _ h).trans ?_
      rcases eq_or_ne chn first with rfl | hne
      · simp
      · simp [hne]

theorem wired_setUp (serverIp : String) (basePort : ℤ) (outcomes : Fin channels → StartOutcome)
    (rtpPort : Fin channels → ℤ) (rtpSsrc : Fin channels → UInt32)
    (h : (setUp serverIp basePort outcomes (List.finRange channels)
      (Program.construct rtpPort rtpSsrc)).2 = true) :
    Wired (setUp serverIp basePort outcomes (List.finRange channels)
      (Program.construct rtpPort rtpSsrc)).1.1 := by
  constructor
  · intro chn
    rw [sources_setUp _ _ _ _ _ h, if_pos (List.mem_finRange chn)]
    rfl
  · intro chn
    rw [sources_setUp _ _ _ _ _ h, if_pos (List.mem_finRange chn)]

/-- On a wired program a round of the loop is a direct call and leaves the sources alone. -/
theorem dispatch_of_wired (record : Record) {program : Program channels} (h : Wired program) :
    dispatch toTimestamp record program =
      ({ program with sessions := (sendDirectly toTimestamp record program.sessions).1 },
        (sendDirectly toTimestamp record program.sessions).2) := by
  unfold dispatch sendDirectly Record.target
  cases hindex : (channelIndex record.chn : Option (Fin channels)) with
  | none => rfl
  | some chn =>
    have hpush := pushFrame_of_drained (record.frameBuf.take record.frameLen.toNat)
      record.framePts record.chn record.streamType record.frameType (program.sources chn) chn
      (h.callback chn) (h.queue chn)
    simp only [Option.bind_some, callOn_of_index hindex, hpush, Function.update_eq_self,
      forEach_singleton]
    split
    · rfl
    · split
      · rfl
      · rfl

/-- The loop simulates direct calls and keeps the program wired. -/
theorem simulates_run (records : List Record) :
    Simulates (fun (program : Program channels) sessions ↦
        Wired program ∧ program.sessions = sessions) Eq
      (run toTimestamp records) (forEach (sendDirectly toTimestamp) records) := by
  apply simulates_forEach
  rintro record _ program _ ⟨hwired, rfl⟩
  rw [dispatch_of_wired toTimestamp record hwired]
  exact ⟨⟨⟨hwired.queue, hwired.callback⟩, rfl⟩, List.forall₂_refl _⟩

/-- **Transparency.** Once all sessions have started, whatever records the reader returns, the
program does what direct calls of `sendFrame` would do. -/
theorem transparent_run (serverIp : String) (basePort : ℤ) (outcomes : Fin channels → StartOutcome)
    (rtpPort : Fin channels → ℤ) (rtpSsrc : Fin channels → UInt32) (records : List Record)
    (h : (setUp serverIp basePort outcomes (List.finRange channels)
      (Program.construct rtpPort rtpSsrc)).2 = true) :
    Transparent toTimestamp (setUp serverIp basePort outcomes (List.finRange channels)
      (Program.construct rtpPort rtpSsrc)).1.1 records := by
  have hwired := wired_setUp serverIp basePort outcomes rtpPort rtpSsrc h
  generalize (setUp serverIp basePort outcomes (List.finRange channels)
    (Program.construct rtpPort rtpSsrc)).1.1 = program at hwired
  obtain ⟨⟨_, hsessions⟩, hactions⟩ :=
    simulates_run toTimestamp records program program.sessions ⟨hwired, rfl⟩
  rw [List.forall₂_eq_eq_eq] at hactions
  constructor
  · intro chn
    rw [hactions, callsOn_forEach_sendDirectly]
  · intro record _ chn input hcall
    exact length_of_callOn hcall
  · intro before record after _ chn
    obtain ⟨⟨hlater, -⟩, -⟩ := simulates_run toTimestamp (before ++ [record]) program
      program.sessions ⟨hwired, rfl⟩
    exact hlater.queue chn
  · intro chn frame
    rw [hactions]
    exact dropped_notMem_forEach_sendDirectly toTimestamp records program.sessions chn frame
  · exact Prod.ext hsessions hactions

/-- The program of the source with one record of the largest size. -/
theorem transparent_run_maxChannels :
    Transparent exactTimestamp
      (setUp "10.0.0.1" 9000 (fun _ : Fin maxChannels ↦ ⟨7, by decide, some 3, true⟩)
        (List.finRange maxChannels) (Program.construct (fun _ ↦ 0) fun _ ↦ 0)).1.1
      [⟨0, 0, frameTypeH264P, 1024 * 1024, 0, List.replicate (1024 * 1024) 0, ⟨0, 0, by decide⟩,
        List.length_replicate, Int.le_refl _⟩] :=
  transparent_run exactTimestamp _ _ _ _ _ _ (by decide +kernel)

end RtpSender.Main
