import RtpSender.Main.Locking

/-!
# Concurrent callers

Any number of threads push frames, install callbacks and send frames directly, under any schedule.
Their calls take effect in some order, one after the other, as the sequential model performs them.
Every schedule comes to an end with all calls returned, and none of these calls accesses a member of
an object without the mutex of the object.
-/

open RtpSender.Emitter RtpSender.Locking RtpSender.Threads RtpSender.Wire
open RtpSender.RtpSendingSession (FrameInput Session Syscall Timeval exactTimestamp)
open RtpSender.Source (CustomFramedSource Event Frame evicted withRoom)
open RtpSender.Main (Action Program callSendFrame handle syscallsOn syscallsOn_append
  syscallsOn_syscall)

namespace RtpSender.Concurrency

variable {channels : ℕ} (toTimestamp : ℤ → UInt32)

/-! ## Calls of the sequential model -/

/-- What a call does when no other one is being made. -/
def perform : Call channels → Emit (Program channels) (Action channels)
  | .sendFrame chn input => fun program ↦
    let (sessions, actions) := callSendFrame toTimestamp chn input program.sessions
    ({ program with sessions := sessions }, actions)
  | .setCallback chn callback => fun program ↦
    let (source, _) := Source.setCallback callback (program.sources chn)
    ({ program with sources := Function.update program.sources chn source }, [])
  | .pushFrame chn data pts number streamType frameType now => fun program ↦
    let (source, events) := Source.pushFrame data pts number streamType frameType
      (program.sources chn)
    forEach (handle toTimestamp chn now) events
      { program with sources := Function.update program.sources chn source }

/-- The program with another source. -/
def setSource (program : Program channels) (chn : Fin channels)
    (source : CustomFramedSource (Fin channels)) : Program channels :=
  { program with sources := Function.update program.sources chn source }

/-- The frames that the source of a channel drops. -/
def droppedBy (chn : Fin channels) (actions : List (Action channels)) : List Frame :=
  actions.filterMap fun
    | .dropped chn' frame => if chn' = chn then some frame else none
    | _ => none

/-- The objects of a program that has done some actions. -/
def snapshot (program : Program channels) (actions : List (Action channels)) : State channels
  | .source chn => (program.sources chn, droppedBy chn actions)
  | .session chn => (program.sessions chn, syscallsOn chn actions)

/-- The objects after some calls of threads, one after the other. -/
def performed {ι : Type} (program : Program channels) (order : List (ι × Call channels)) :
    State channels :=
  let (final, actions) := forEach (fun entry ↦ perform toTimestamp entry.2) order program
  snapshot final actions

/-- The calls that took effect so far, in an order. -/
structure Atomic {ι : Type} [DecidableEq ι] (program : Program channels)
    (calls : ι → List (Call channels)) (order : List (ι × Call channels))
    (config : Config ι (Call channels) (Object channels)) : Prop where
  /-- An object that is not locked is what these calls make of it. -/
  free : ∀ lock, config.owner lock = none →
    config.state lock = performed toTimestamp program order lock
  /-- They are the calls of each thread that have returned, and maybe its present one. -/
  made : ∀ thread, ∃ present, present.length ≤ 1 ∧
    (config.code thread = .done → present = []) ∧
    madeBy order thread ++ present ++ config.calls thread = calls thread
  ended : config.Ended →
    config.state = performed toTimestamp program order ∧
      ∀ thread, madeBy order thread = calls thread

variable {toTimestamp}

theorem droppedBy_append (chn : Fin channels) (actions actions' : List (Action channels)) :
    droppedBy chn (actions ++ actions') = droppedBy chn actions ++ droppedBy chn actions' :=
  List.filterMap_append

theorem droppedBy_syscall (chn chn' : Fin channels) (calls : List Syscall) :
    droppedBy chn (calls.map (.syscall chn')) = [] := by
  unfold droppedBy
  rw [List.filterMap_map]
  simp

theorem syscallsOn_dropped (chn chn' : Fin channels) (frames : List Frame) :
    syscallsOn chn (frames.map (.dropped chn')) = [] := by
  unfold syscallsOn
  rw [List.filterMap_map]
  simp

theorem droppedBy_dropped (chn chn' : Fin channels) (frames : List Frame) :
    droppedBy chn (frames.map (.dropped chn')) = if chn' = chn then frames else [] := by
  unfold droppedBy
  rw [List.filterMap_map]
  by_cases h : chn' = chn
  · simp [h]
  · simp [h]

/-! ## One call -/

/-- A call of `sendFrame` changes one session. -/
theorem applySession_snapshot (chn : Fin channels) (input : FrameInput)
    (program : Program channels) (actions : List (Action channels)) :
    applySession chn (RtpSendingSession.sendFrame toTimestamp input) (snapshot program actions) =
      snapshot { program with
          sessions := (callSendFrame toTimestamp chn input program.sessions).1 }
        (actions ++ (callSendFrame toTimestamp chn input program.sessions).2) := by
  have hactions : (callSendFrame toTimestamp chn input program.sessions).2 =
      [.sendFrame chn input] ++
        (RtpSendingSession.sendFrame toTimestamp input (program.sessions chn)).2.map
          (.syscall chn) := rfl
  funext lock
  cases lock with
  | source chn' =>
    rw [applySession_of_ne _ _ (source_ne_session _ _), snapshot, snapshot, hactions,
      droppedBy_append, droppedBy_append, droppedBy_syscall]
    simp [droppedBy]
  | session chn' =>
    rw [snapshot, hactions, syscallsOn_append, syscallsOn_append, syscallsOn_syscall]
    rcases eq_or_ne chn' chn with rfl | hne
    · rw [applySession_session]
      simp [recorded, snapshot, callSendFrame, syscallsOn]
    · rw [applySession_of_ne _ _ (fun heq ↦ hne (Lock.session.inj heq))]
      simp [snapshot, callSendFrame, syscallsOn, hne, hne.symm]

/-- An access to a source changes one source. -/
theorem applySource_snapshot (chn : Fin channels)
    (access : Emit (CustomFramedSource (Fin channels)) Frame) (program : Program channels)
    (actions : List (Action channels)) :
    applySource chn access (snapshot program actions) =
      snapshot (setSource program chn (access (program.sources chn)).1)
        (actions ++ (access (program.sources chn)).2.map (.dropped chn)) := by
  funext lock
  cases lock with
  | source chn' =>
    rw [snapshot, droppedBy_append, droppedBy_dropped]
    rcases eq_or_ne chn' chn with rfl | hne
    · rw [applySource_source]
      simp [recorded, snapshot, setSource]
    · rw [applySource_of_ne _ _ (fun heq ↦ hne (Lock.source.inj heq))]
      simp [snapshot, setSource, hne, hne.symm]
  | session chn' =>
    rw [applySource_of_ne _ _ (source_ne_session _ _).symm, snapshot, snapshot, syscallsOn_append,
      syscallsOn_dropped, List.append_nil]
    rfl

theorem forEach_handle_dropped (chn : Fin channels) (now : Timeval) (frames : List Frame)
    (program : Program channels) :
    forEach (handle toTimestamp chn now) (frames.map Event.dropped) program =
      (program, frames.map (.dropped chn)) := by
  induction frames with
  | nil => rfl
  | cons frame frames ih => simp [forEach_cons, andThen_apply, handle, ih]

section Push

variable (chn : Fin channels) (data : Bytes) (pts number streamType frameType : ℤ) (now : Timeval)
  (program : Program channels)

theorem perform_pushFrame_of_no_callback (h : (program.sources chn).callback = none) :
    perform toTimestamp (.pushFrame chn data pts number streamType frameType now) program =
      (setSource program chn
          (roomed ⟨data, pts, number, streamType, frameType⟩ (program.sources chn)).1,
        (evicted (program.sources chn).frameQueue).map (.dropped chn)) := by
  simp only [perform, Source.pushFrame_of_no_callback _ _ _ _ _ _ h, forEach_handle_dropped,
    setSource, roomed]

theorem perform_pushFrame_of_callback {callback : Fin channels} {frame : Frame}
    {rest : List Frame} (h : (program.sources chn).callback = some callback)
    (hqueue : withRoom (program.sources chn).frameQueue ++
      [⟨data, pts, number, streamType, frameType⟩] = frame :: rest) :
    perform toTimestamp (.pushFrame chn data pts number streamType frameType now) program =
      (setSource { program with
            sessions := (callSendFrame toTimestamp callback ⟨frame.buff, frame.pts, now⟩
              program.sessions).1 } chn { program.sources chn with frameQueue := rest },
        (evicted (program.sources chn).frameQueue).map (.dropped chn) ++
          (callSendFrame toTimestamp callback ⟨frame.buff, frame.pts, now⟩ program.sessions).2) := by
  obtain ⟨frame', rest', hqueue', hpush⟩ := Source.pushFrame_of_callback data pts number streamType
    frameType (program.sources chn) callback h
  obtain ⟨rfl, rfl⟩ := List.cons.inj (hqueue.symm.trans hqueue')
  simp only [perform, hpush, forEach_append, andThen_apply, forEach_handle_dropped,
    forEach_singleton]
  rfl

theorem solo_pushFrame_snapshot (actions : List (Action channels)) :
    (Locking.pushFrame chn toTimestamp data pts number streamType frameType now).solo
        (snapshot program actions) =
      snapshot
        (perform toTimestamp (.pushFrame chn data pts number streamType frameType now) program).1
        (actions ++ (perform toTimestamp
          (.pushFrame chn data pts number streamType frameType now) program).2) := by
  rw [solo_pushFrame, applySource_snapshot]
  cases h : (program.sources chn).callback with
  | none =>
    rw [perform_pushFrame_of_no_callback _ _ _ _ _ _ _ _ h]
    refine solo_deliverNext_of_no_callback now ?_
    simp [snapshot, setSource, roomed, h]
  | some callback =>
    obtain ⟨frame, rest, hqueue, -⟩ := Source.pushFrame_of_callback data pts number streamType
      frameType (program.sources chn) callback h
    rw [perform_pushFrame_of_callback _ _ _ _ _ _ _ _ h hqueue]
    generalize hstate : snapshot (setSource program chn
      (roomed ⟨data, pts, number, streamType, frameType⟩ (program.sources chn)).1) _ = state
    have hcallback : (state (.source chn)).1.callback = some callback := by
      simp [← hstate, snapshot, setSource, roomed, h]
    have hfront : (state (.source chn)).1.frameQueue = frame :: rest := by
      simpa [← hstate, snapshot, setSource, roomed] using hqueue
    rw [solo_deliverNext_of_callback now hcallback hfront, ← hstate, applySession_snapshot,
      applySource_snapshot, Code.solo, Code.solo]
    simp [setSource, roomed, hqueue]

end Push

/-- Run by a single thread, a call does what the sequential model says. -/
theorem solo_code (call : Call channels) (program : Program channels)
    (actions : List (Action channels)) :
    (call.code toTimestamp).solo (snapshot program actions) =
      snapshot (perform toTimestamp call program).1
        (actions ++ (perform toTimestamp call program).2) := by
  cases call with
  | sendFrame chn input => exact (solo_sendFrame input).trans (applySession_snapshot _ _ _ _)
  | setCallback chn callback => exact applySource_snapshot chn _ program actions
  | pushFrame chn data pts number streamType frameType now =>
    exact solo_pushFrame_snapshot chn data pts number streamType frameType now program actions

/-! ## Many calls -/

variable {γ ι : Type}

theorem serial_snapshot (call : γ → Call channels) (order : List (ι × γ))
    (program : Program channels) (actions : List (Action channels)) :
    serial (fun c ↦ (call c).code toTimestamp) (snapshot program actions) order =
      snapshot (forEach (fun entry ↦ perform toTimestamp (call entry.2)) order program).1
        (actions ++ (forEach (fun entry ↦ perform toTimestamp (call entry.2)) order program).2) := by
  induction order generalizing program actions with
  | nil =>
    rw [forEach_nil, skip_apply, List.append_nil]
    rfl
  | cons entry order ih =>
    rw [forEach_cons, andThen_apply, ← List.append_assoc, ← ih, ← solo_code]
    rfl

/-- **Atomicity.** Whatever the schedule, the calls take effect in an order in which those that
returned before others began come first. -/
theorem atomic_calls [DecidableEq ι] (program : Program channels)
    (calls : ι → List (Call channels)) {middle final : Config ι (Call channels) (Object channels)}
    (hmiddle : Reaches (Call.code toTimestamp) (.start (snapshot program []) calls) middle)
    (hfinal : Reaches (Call.code toTimestamp) middle final) :
    ∃ order later, Atomic toTimestamp program calls order middle ∧
      Atomic toTimestamp program calls (order ++ later) final := by
  have hatomic {order : List (ι × Call channels)}
      {config : Config ι (Call channels) (Object channels)}
      (h : Serialised (Call.code toTimestamp) (snapshot program []) calls order config) :
      Atomic toTimestamp program calls order config := by
    have hserial : serial (Call.code toTimestamp) (snapshot program []) order =
        performed toTimestamp program order := serial_snapshot id order program []
    refine ⟨fun lock hfree ↦ ?_, h.program, fun hended ↦ ?_⟩
    · rw [h.free lock hfree, hserial]
    · rw [← hserial]
      exact h.of_ended hended
  obtain ⟨order, later, horder, hlater⟩ := exists_serialised growing_code hmiddle hfinal
  exact ⟨order, later, hatomic horder, hatomic hlater⟩

/-- Two threads in the midst of their calls: one sends a frame, the other installs a callback. -/
theorem atomic_calls_two :
    let program : Program 1 := Program.construct (fun _ ↦ 0) fun _ ↦ 7
    let calls (thread : Bool) : List (Call 1) :=
      if thread then [.sendFrame 0 ⟨[], 40000, 0, 0, by decide⟩] else [.setCallback 0 none]
    let start := Config.start (snapshot program []) calls
    ∃ final, Reaches (Call.code exactTimestamp) start final ∧
      final.owner (.session 0) = some true ∧ final.owner (.source 0) = some false ∧
      ∃ order later, Atomic exactTimestamp program calls order start ∧
        Atomic exactTimestamp program calls (order ++ later) final := by
  intro program calls start
  have hstart : Reaches (Call.code exactTimestamp) start start := .refl
  have hbegun := (hstart.step true (.call rfl rfl)).step false (.call rfl rfl)
  have hlocked := (hbegun.step true (.acquire rfl rfl)).step false (.acquire rfl rfl)
  exact ⟨_, hlocked, rfl, rfl, atomic_calls program calls hstart hlocked⟩

/-- What holds of every schedule that starts with some calls. -/
structure Completes {ι : Type} [DecidableEq ι] (toTimestamp : ℤ → UInt32) (state : State channels)
    (calls : ι → List (Call channels)) : Prop where
  progress : ∀ config, Reaches (Call.code toTimestamp) (.start state calls) config →
    config.Ended ∨ ∃ thread next, Step (Call.code toTimestamp) thread config next
  finite : ∀ run : ℕ → Config ι (Call channels) (Object channels),
    ∃ n, ∀ thread, ¬ Step (Call.code toTimestamp) thread (run n) (run (n + 1))
  guarded : ∀ config thread lock access next,
    Reaches (Call.code toTimestamp) (.start state calls) config →
      config.code thread = .act lock access next → config.owner lock = some thread

theorem rank_lt_two (lock : Lock channels) : lock.rank < 2 := by
  cases lock with
  | source chn => exact Nat.zero_lt_two
  | session chn => exact Nat.one_lt_two

/-- **Completion.** No schedule of finitely many threads gets stuck or goes on for ever, and no
object is accessed without its mutex. -/
theorem completes_calls [Fintype ι] [DecidableEq ι] (state : State channels)
    (calls : ι → List (Call channels)) : Completes toTimestamp state calls where
  progress config hreach := by
    by_cases hended : config.Ended
    · exact .inl hended
    · exact .inr (exists_step rank_lt_two growing_code hreach hended)
  finite run := by
    by_contra hrun
    have hdescend (n : ℕ) :
        ∃ thread, Step (Call.code toTimestamp) thread (run n) (run (n + 1)) := by
      simpa only [not_forall, not_not] using not_exists.mp hrun n
    exact (wellFounded_iff_isEmpty_descending_chain.mp wellFounded_step).false ⟨run, hdescend⟩
  guarded _ _ _ _ _ hreach hcode := owner_of_access growing_code hreach hcode

end RtpSender.Concurrency
