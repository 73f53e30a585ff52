import RtpSender.Source.CustomFramedSource

/-!
# Pushes that throw

A push can throw at two places: while it copies the frame, because memory is short or the length is
negative, and inside the callback.  The first place lies behind the drop of the oldest frame, the
second before the removal of the delivered frame, and neither step is undone.  A failed copy thus
costs a full queue a frame that nothing replaces, and a frame whose callback throws stays queued, to
be handed over again.
-/

open RtpSender.Emitter RtpSender.History RtpSender.Wire

namespace RtpSender.Source

variable {κ : Type*}

/-! ## Pushes with their environment -/

/-- How a call ends. -/
inductive Exit where
  | returned
  | copyThrew
  | callbackThrew
  deriving DecidableEq

/-- The arguments of a push, and what decides whether it throws. -/
structure Push where
  data : Bytes
  len : ℤ
  pts : ℤ
  chn : ℤ
  streamType : ℤ
  frameType : ℤ
  allocFails : Bool
  callbackThrows : Bool

/-- The copy of the frame, unless `assign` or `push` throws. -/
def Push.frame? (push : Push) : Option Frame :=
  if push.len < 0 ∨ push.allocFails = true then none
  else some ⟨push.data.take push.len.toNat, push.pts, push.chn, push.streamType, push.frameType⟩

/-- `deliverNext` pops behind the callback, so not when this throws. -/
def deliverNextOrThrow (callbackThrows : Bool) (s : CustomFramedSource κ) :
    (CustomFramedSource κ × List (Event κ)) × Exit :=
  match s.callback, s.frameQueue with
  | some callback, frame :: rest =>
    if callbackThrows then ((s, [.delivered callback frame]), .callbackThrew)
    else (({ s with frameQueue := rest }, [.delivered callback frame]), .returned)
  | _, _ => ((s, []), .returned)

def pushFrameOrThrow (push : Push) (s : CustomFramedSource κ) :
    (CustomFramedSource κ × List (Event κ)) × Exit :=
  let (s, dropped) := dropOldest s
  match push.frame? with
  | none => ((s, dropped), .copyThrew)
  | some frame =>
    let (s, _) := enqueue frame s
    let ((s, calls), exit) := deliverNextOrThrow push.callbackThrows s
    ((s, dropped ++ calls), exit)

/-- The calls of the public interface. -/
inductive Attempt (κ : Type*) where
  | setCallback (callback : Option κ)
  | pushFrame (push : Push)

def Attempt.perform : Attempt κ → Emit (CustomFramedSource κ) (Event κ)
  | .setCallback callback => Source.setCallback callback
  | .pushFrame push => fun s ↦ (pushFrameOrThrow push s).1

def runOrThrow (attempts : List (Attempt κ)) : Emit (CustomFramedSource κ) (Event κ) :=
  forEach Attempt.perform attempts

def reachedOrThrow (attempts : List (Attempt κ)) : CustomFramedSource κ :=
  (runOrThrow attempts CustomFramedSource.construct).1

def eventsOrThrow (attempts : List (Attempt κ)) : List (Event κ) :=
  (runOrThrow attempts CustomFramedSource.construct).2

/-- The frame that an attempt adds, unless its copy fails. -/
def Attempt.added : Attempt κ → List Frame
  | .setCallback _ => []
  | .pushFrame push => push.frame?.toList

/-! ## What is asked of a throwing push -/

/-- A failed copy leaves the queue alone; a throwing callback makes no difference to the queue. -/
structure SafeCall (push : Push) (s : CustomFramedSource κ) : Prop where
  copy : (pushFrameOrThrow push s).2 = .copyThrew →
    (pushFrameOrThrow push s).1.1.frameQueue = s.frameQueue
  callback : (pushFrameOrThrow push s).2 = .callbackThrew →
    (pushFrameOrThrow push s).1.1.frameQueue =
      (pushFrameOrThrow { push with callbackThrows := false } s).1.1.frameQueue

def Attempt.Safe (s : CustomFramedSource κ) : Attempt κ → Prop
  | .setCallback _ => True
  | .pushFrame push => SafeCall push s

/-- Exceptions in a run of a new source do no harm. -/
structure ExceptionSafe (attempts : List (Attempt κ)) : Prop where
  calls : HistoryForall (fun before attempt ↦ attempt.Safe (reachedOrThrow before)) attempts
  /-- Every frame added is handed over once, is dropped once or is still queued, in order. -/
  ledger : (eventsOrThrow attempts).map Event.frame ++ (reachedOrThrow attempts).frameQueue =
    attempts.flatMap Attempt.added
  overflow : HistoryForall (fun before attempt ↦ ∀ frame,
    .dropped frame ∈ (attempt.perform (reachedOrThrow before)).2 →
      (reachedOrThrow before).frameQueue.length = maxQueueSize ∧ attempt.added ≠ []) attempts

/-- The push copies its frame or finds room, and the callback that it reaches does not throw. -/
def Push.Harmless (push : Push) (s : CustomFramedSource κ) : Prop :=
  (push.frame? = none → s.frameQueue.length < maxQueueSize) ∧
    (push.frame? ≠ none → s.callback ≠ none → push.callbackThrows = false)

def Attempt.Harmless (s : CustomFramedSource κ) : Attempt κ → Prop
  | .setCallback _ => True
  | .pushFrame push => push.Harmless s

/-! ## The three exits of a push -/

section Call

variable {push : Push} {s : CustomFramedSource κ}

theorem pushFrameOrThrow_of_failed (h : push.frame? = none) :
    pushFrameOrThrow push s =
      (({ s with frameQueue := withRoom s.frameQueue }, (evicted s.frameQueue).map .dropped),
        .copyThrew) := by
  simp only [pushFrameOrThrow, dropOldest_eq, h]

/-- A push that does not throw is an ordinary push of the frame that it copies. -/
theorem pushFrameOrThrow_of_returned {frame : Frame} (h : push.frame? = some frame)
    (hcalm : s.callback ≠ none → push.callbackThrows = false) :
    pushFrameOrThrow push s =
      (pushFrame frame.buff frame.pts frame.chn frame.streamType frame.frameType s, .returned) := by
  cases hcallback : s.callback with
  | none =>
    rw [pushFrame_of_no_callback _ _ _ _ _ s hcallback]
    simp [pushFrameOrThrow, dropOldest_eq, h, enqueue, deliverNextOrThrow, hcallback]
  | some callback =>
    obtain ⟨oldest, rest, hqueue, hpush⟩ := pushFrame_of_callback frame.buff frame.pts frame.chn
      frame.streamType frame.frameType s callback hcallback
    have hthrows : push.callbackThrows = false := hcalm (by simp [hcallback])
    rw [hpush]
    simp [pushFrameOrThrow, dropOldest_eq, h, enqueue, deliverNextOrThrow, hcallback, hqueue,
      hthrows]

/-- A frame whose callback throws stays at the front of the queue. -/
theorem pushFrameOrThrow_of_thrown {frame : Frame} {callback : κ} (h : push.frame? = some frame)
    (hcallback : s.callback = some callback) (hthrows : push.callbackThrows = true) :
    ∃ oldest rest, withRoom s.frameQueue ++ [frame] = oldest :: rest ∧
      pushFrameOrThrow push s =
        (({ s with frameQueue := oldest :: rest },
          (evicted s.frameQueue).map .dropped ++ [.delivered callback oldest]),
            .callbackThrew) := by
  obtain ⟨oldest, rest, hqueue⟩ :=
    List.exists_cons_of_ne_nil (List.concat_ne_nil frame (withRoom s.frameQueue))
  refine ⟨oldest, rest, hqueue, ?_⟩
  simp [pushFrameOrThrow, dropOldest_eq, h, enqueue, deliverNextOrThrow, hcallback, hqueue,
    hthrows]

theorem withRoom_eq_self_iff {queue : List Frame} :
    withRoom queue = queue ↔ queue.length < maxQueueSize := by
  unfold withRoom
  split
  · next hfull =>
    constructor
    · intro heq
      have hlength := congrArg List.length heq
      rw [List.length_tail] at hlength
      simp only [maxQueueSize] at hfull ⊢
      omega
    · intro hroom
      omega
  · next hroom => exact iff_of_true rfl (by omega)

theorem safeCall_of_returned (h : (pushFrameOrThrow push s).2 = .returned) : SafeCall push s where
  copy hexit := by
    rw [h] at hexit
    cases hexit
  callback hexit := by
    rw [h] at hexit
    cases hexit

/-- After a throwing callback the queue is longer than without the exception. -/
theorem not_safeCall_of_thrown {frame : Frame} {callback : κ} (h : push.frame? = some frame)
    (hcallback : s.callback = some callback) (hthrows : push.callbackThrows = true) :
    ¬ SafeCall push s := by
  intro hsafe
  obtain ⟨oldest, rest, hqueue, hcall⟩ := pushFrameOrThrow_of_thrown h hcallback hthrows
  have hcalm : pushFrameOrThrow { push with callbackThrows := false } s =
      (pushFrame frame.buff frame.pts frame.chn frame.streamType frame.frameType s, .returned) :=
    pushFrameOrThrow_of_returned h fun _ ↦ rfl
  obtain ⟨oldest', rest', hqueue', hpush⟩ := pushFrame_of_callback frame.buff frame.pts frame.chn
    frame.streamType frame.frameType s callback hcallback
  have hsame : oldest :: rest = rest' := by
    have hqueues := hsafe.callback (by rw [hcall])
    rwa [hcall, hcalm, hpush] at hqueues
  have hlength := congrArg List.length (hqueue'.symm.trans hqueue)
  rw [← hsame] at hlength
  simp at hlength

/-- A call is safe exactly when the push is harmless where it is made. -/
theorem safeCall_iff : SafeCall push s ↔ push.Harmless s := by
  cases h : push.frame? with
  | none =>
    have hcall := pushFrameOrThrow_of_failed (s := s) h
    constructor
    · intro hsafe
      have hqueue := hsafe.copy (by rw [hcall])
      rw [hcall] at hqueue
      exact ⟨fun _ ↦ withRoom_eq_self_iff.mp hqueue, fun hcopied ↦ absurd h hcopied⟩
    · intro hharmless
      constructor
      · intro _
        rw [hcall]
        exact withRoom_eq_self_iff.mpr (hharmless.1 h)
      · intro hexit
        rw [hcall] at hexit
        cases hexit
  | some frame =>
    constructor
    · intro hsafe
      refine ⟨fun hfailed ↦ absurd (h.symm.trans hfailed) (Option.some_ne_none _), ?_⟩
      intro _ hinstalled
      obtain ⟨callback, hcallback⟩ := Option.ne_none_iff_exists'.mp hinstalled
      by_contra hthrows
      exact not_safeCall_of_thrown h hcallback (Bool.eq_true_of_not_eq_false hthrows) hsafe
    · intro hharmless
      apply safeCall_of_returned
      rw [pushFrameOrThrow_of_returned h (hharmless.2 (by simp [h]))]

end Call

/-! ## Runs -/

theorem safe_iff_harmless (attempt : Attempt κ) (s : CustomFramedSource κ) :
    attempt.Safe s ↔ attempt.Harmless s := by
  cases attempt with
  | setCallback callback => exact Iff.rfl
  | pushFrame push => exact safeCall_iff

/-- No exit of a push leaves more frames than the queue may hold. -/
theorem length_pushFrameOrThrow_le (push : Push) {s : CustomFramedSource κ}
    (hbound : s.frameQueue.length ≤ maxQueueSize) :
    (pushFrameOrThrow push s).1.1.frameQueue.length ≤ maxQueueSize := by
  have hroom := length_withRoom s.frameQueue hbound
  cases h : push.frame? with
  | none =>
    rw [pushFrameOrThrow_of_failed h]
    exact hroom.trans_le ((Nat.min_le_left _ _).trans hbound)
  | some frame =>
    by_cases hcalm : s.callback ≠ none → push.callbackThrows = false
    · rw [pushFrameOrThrow_of_returned h hcalm]
      exact length_pushFrame_le _ _ _ _ _ s hbound
    · have hthrows : s.callback ≠ none ∧ push.callbackThrows = true := by simpa using hcalm
      obtain ⟨callback, hcallback⟩ := Option.ne_none_iff_exists'.mp hthrows.1
      obtain ⟨oldest, rest, hqueue, hcall⟩ := pushFrameOrThrow_of_thrown h hcallback hthrows.2
      have hlength := congrArg List.length hqueue
      rw [List.length_append, List.length_singleton, hroom] at hlength
      rw [hcall, ← hlength]
      simp only [maxQueueSize]
      omega

theorem length_frameQueue_runOrThrow (attempts : List (Attempt κ)) :
    (reachedOrThrow attempts).frameQueue.length ≤ maxQueueSize := by
  have hkeep : Preserves (fun (s : CustomFramedSource κ) (_ : List (Event κ)) ↦
      s.frameQueue.length ≤ maxQueueSize) (runOrThrow attempts) := by
    apply preserves_forEach
    intro attempt _ s _ hbound
    cases attempt with
    | setCallback callback => exact hbound
    | pushFrame push => exact length_pushFrameOrThrow_le push hbound
  exact hkeep _ [] (Nat.zero_le _)

/-- A harmless attempt does nothing at all or what an operation without exceptions does. -/
theorem perform_of_harmless {attempt : Attempt κ} {s : CustomFramedSource κ}
    (h : attempt.Harmless s) :
    (attempt.perform s = (s, []) ∧ attempt.added = []) ∨
      ∃ operation : Operation κ, attempt.perform s = operation.perform s ∧
        attempt.added = operation.pushed := by
  cases attempt with
  | setCallback callback => exact .inr ⟨.setCallback callback, rfl, rfl⟩
  | pushFrame push =>
    simp only [Attempt.perform, Attempt.added]
    cases hframe : push.frame? with
    | none =>
      have hroom := withRoom_eq_self_iff.mpr (h.1 hframe)
      have hnone : evicted s.frameQueue = [] :=
        List.self_eq_append_left.mp (hroom ▸ (evicted_append_withRoom s.frameQueue)).symm
      apply Or.inl
      rw [pushFrameOrThrow_of_failed hframe, hroom, hnone]
      exact ⟨rfl, rfl⟩
    | some frame =>
      have hcalm := h.2 (by simp [hframe])
      apply Or.inr
      refine ⟨.pushFrame frame.buff frame.pts frame.chn frame.streamType frame.frameType, ?_, rfl⟩
      rw [pushFrameOrThrow_of_returned hframe hcalm]
      rfl

theorem conserves_attempt {attempt : Attempt κ} {s : CustomFramedSource κ}
    (h : attempt.Harmless s) :
    (attempt.perform s).2.map Event.frame ++ (attempt.perform s).1.frameQueue =
      s.frameQueue ++ attempt.added := by
  rcases perform_of_harmless h with ⟨hperform, hadded⟩ | ⟨operation, hperform, hadded⟩
  · rw [hperform, hadded]
    exact (List.append_nil _).symm
  · rw [hperform, hadded]
    exact conserves_perform operation s

/-- A harmless attempt drops a frame only to make room for another in a full queue. -/
theorem overflow_attempt {attempt : Attempt κ} {s : CustomFramedSource κ}
    (hbound : s.frameQueue.length ≤ maxQueueSize) (h : attempt.Harmless s) {frame : Frame}
    (hdropped : .dropped frame ∈ (attempt.perform s).2) :
    s.frameQueue.length = maxQueueSize ∧ attempt.added ≠ [] := by
  rcases perform_of_harmless h with ⟨hperform, -⟩ | ⟨operation, hperform, hadded⟩
  · rw [hperform] at hdropped
    cases hdropped
  · rw [hperform] at hdropped
    rw [hadded]
    apply overflow_of_mem_drops
    rw [← droppedFrames_perform operation s hbound]
    exact List.mem_filterMap.mpr ⟨.dropped frame, hdropped, rfl⟩

/-- **Exceptions.** In a run of a new source exceptions do no harm exactly when every push is
harmless: none fails to copy its frame while the queue is full, and no callback throws. -/
theorem exceptionSafe_iff (attempts : List (Attempt κ)) :
    ExceptionSafe attempts ↔
      HistoryForall (fun before attempt ↦ attempt.Harmless (reachedOrThrow before)) attempts := by
  constructor
  · intro h before attempt after hsplit
    exact (safe_iff_harmless _ _).mp (h.calls before attempt after hsplit)
  · intro h
    constructor
    · intro before attempt after hsplit
      exact (safe_iff_harmless _ _).mpr (h before attempt after hsplit)
    · apply conserves_of_history
      intro before attempt after hsplit
      exact conserves_attempt (h before attempt after hsplit)
    · intro before attempt after hsplit frame hdropped
      exact overflow_attempt (length_frameQueue_runOrThrow before)
        (h before attempt after hsplit) hdropped

/-- A frame whose callback throws is handed over again by the next push, and a push with a negative
length takes the oldest of 30 frames away. -/
theorem not_exceptionSafe :
    (¬ ExceptionSafe [.setCallback (some ()), .pushFrame ⟨[1], 1, 0, 0, 0, 0, false, true⟩,
        .pushFrame ⟨[2], 1, 40000, 0, 0, 0, false, false⟩] ∧
      (eventsOrThrow [.setCallback (some ()), .pushFrame ⟨[1], 1, 0, 0, 0, 0, false, true⟩,
        .pushFrame ⟨[2], 1, 40000, 0, 0, 0, false, false⟩]).filterMap Event.deliveredFrame? =
          [⟨[1], 0, 0, 0, 0⟩, ⟨[1], 0, 0, 0, 0⟩]) ∧
    ¬ ExceptionSafe (List.replicate 30 (.pushFrame ⟨[1], 1, 0, 0, 0, 0, false, false⟩) ++
      [(.pushFrame ⟨[], -1, 0, 0, 0, 0, false, false⟩ : Attempt Unit)]) := by
  refine ⟨⟨?_, by decide +kernel⟩, ?_⟩
  · intro h
    have hsafe : SafeCall ⟨[1], 1, 0, 0, 0, 0, false, true⟩
        (reachedOrThrow [.setCallback (some ())]) :=
      h.calls [.setCallback (some ())] _ _ rfl
    have hqueue := hsafe.callback (by decide +kernel)
    revert hqueue
    decide +kernel
  · intro h
    have hsafe : SafeCall ⟨[], -1, 0, 0, 0, 0, false, false⟩ (reachedOrThrow
        (List.replicate 30 (.pushFrame ⟨[1], 1, 0, 0, 0, 0, false, false⟩ : Attempt Unit))) :=
      h.calls _ _ [] rfl
    have hqueue := hsafe.copy (by decide +kernel)
    revert hqueue
    decide +kernel

end RtpSender.Source
