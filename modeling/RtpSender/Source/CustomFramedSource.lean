import RtpSender.Foundation.Conservation
import RtpSender.Foundation.History
import RtpSender.Session.Wire

/-!
# The frame source

A translation of `CustomFramedSource.cpp`.  A push drops the oldest frame of a full queue, appends
the new frame and hands one frame, the oldest, to the callback if there is one.  Frames that leave
the queue are events: dropped frames and calls of the callback with the fields of a frame.  The
callbacks themselves are arbitrary values, since the source only tells whether one is installed.

No frame is lost without an event.  Since a push delivers a single frame, frames that were pushed
without a callback stay queued for good, apart from one that a full queue loses.
-/

open RtpSender.Emitter RtpSender.History RtpSender.Wire

namespace RtpSender.Source

/-! ## The source object -/

structure Frame where
  buff : Bytes
  pts : ℤ
  chn : ℤ
  streamType : ℤ
  frameType : ℤ
  deriving DecidableEq

def maxQueueSize : ℕ := 30

structure CustomFramedSource (κ : Type*) where
  frameQueue : List Frame
  callback : Option κ

inductive Event (κ : Type*) where
  | dropped (frame : Frame)
  | delivered (callback : κ) (frame : Frame)

variable {κ : Type*}

def Event.frame : Event κ → Frame
  | .dropped frame => frame
  | .delivered _ frame => frame

def Event.droppedFrame? : Event κ → Option Frame
  | .dropped frame => some frame
  | .delivered _ _ => none

def Event.deliveredFrame? : Event κ → Option Frame
  | .dropped _ => none
  | .delivered _ frame => some frame

def CustomFramedSource.construct : CustomFramedSource κ where
  frameQueue := []
  callback := none

/-- `none` clears the callback. -/
def setCallback (callback : Option κ) : Emit (CustomFramedSource κ) (Event κ) := fun s ↦
  ({ s with callback := callback }, [])

/-- The first step of `pushFrame`. -/
def dropOldest : Emit (CustomFramedSource κ) (Event κ) := fun s ↦
  if s.frameQueue.length ≥ maxQueueSize then
    match s.frameQueue with
    | oldest :: rest => ({ s with frameQueue := rest }, [.dropped oldest])
    | [] => (s, [])
  else (s, [])

/-- The second step of `pushFrame`. -/
def enqueue (frame : Frame) : Emit (CustomFramedSource κ) (Event κ) := fun s ↦
  ({ s with frameQueue := s.frameQueue ++ [frame] }, [])

def deliverNext : Emit (CustomFramedSource κ) (Event κ) := fun s ↦
  match s.callback, s.frameQueue with
  | some callback, frame :: rest => ({ s with frameQueue := rest }, [.delivered callback frame])
  | _, _ => (s, [])

def pushFrame (data : Bytes) (pts chn streamType frameType : ℤ) :
    Emit (CustomFramedSource κ) (Event κ) :=
  andThen dropOldest (andThen (enqueue ⟨data, pts, chn, streamType, frameType⟩) deliverNext)

/-- The calls of the public interface. -/
inductive Operation (κ : Type*) where
  | setCallback (callback : Option κ)
  | pushFrame (data : Bytes) (pts chn streamType frameType : ℤ)

def Operation.perform : Operation κ → Emit (CustomFramedSource κ) (Event κ)
  | .setCallback callback => Source.setCallback callback
  | .pushFrame data pts chn streamType frameType =>
    Source.pushFrame data pts chn streamType frameType

def run (operations : List (Operation κ)) : Emit (CustomFramedSource κ) (Event κ) :=
  forEach Operation.perform operations

/-- The state of a new source after some operations. -/
def reached (operations : List (Operation κ)) : CustomFramedSource κ :=
  (run operations CustomFramedSource.construct).1

/-- The events of a new source during some operations. -/
def events (operations : List (Operation κ)) : List (Event κ) :=
  (run operations CustomFramedSource.construct).2

/-- The frame that an operation adds. -/
def Operation.pushed : Operation κ → List Frame
  | .setCallback _ => []
  | .pushFrame data pts chn streamType frameType => [⟨data, pts, chn, streamType, frameType⟩]

/-! ## What a push does -/

/-- The queue after its first step, with room for a frame. -/
def withRoom (queue : List Frame) : List Frame :=
  if maxQueueSize ≤ queue.length then queue.tail else queue

/-- The frames that the first step drops. -/
def evicted (queue : List Frame) : List Frame :=
  if maxQueueSize ≤ queue.length then queue.take 1 else []

theorem dropOldest_eq (s : CustomFramedSource κ) :
    dropOldest s =
      ({ s with frameQueue := withRoom s.frameQueue }, (evicted s.frameQueue).map .dropped) := by
  obtain ⟨queue, callback⟩ := s
  unfold dropOldest withRoom evicted
  split
  · cases queue <;> rfl
  · rfl

theorem evicted_append_withRoom (queue : List Frame) : evicted queue ++ withRoom queue = queue := by
  unfold evicted withRoom
  split
  · rw [← List.drop_one, List.take_append_drop]
  · rfl

theorem length_withRoom (queue : List Frame) (h : queue.length ≤ maxQueueSize) :
    (withRoom queue).length = min queue.length (maxQueueSize - 1) := by
  simp only [maxQueueSize] at h
  unfold withRoom maxQueueSize
  split
  · rw [List.length_tail]
    omega
  · omega

variable (data : Bytes) (pts chn streamType frameType : ℤ)

theorem pushFrame_of_no_callback (s : CustomFramedSource κ) (h : s.callback = none) :
    pushFrame data pts chn streamType frameType s =
      ({ s with frameQueue := withRoom s.frameQueue ++ [⟨data, pts, chn, streamType, frameType⟩] },
        (evicted s.frameQueue).map .dropped) := by
  simp [pushFrame, andThen_apply, dropOldest_eq, enqueue, deliverNext, h]

/-- With a callback one frame is appended and one is delivered. -/
theorem pushFrame_of_callback (s : CustomFramedSource κ) (callback : κ)
    (h : s.callback = some callback) :
    ∃ frame rest,
      withRoom s.frameQueue ++ [⟨data, pts, chn, streamType, frameType⟩] = frame :: rest ∧
      pushFrame data pts chn streamType frameType s =
        ({ s with frameQueue := rest },
          (evicted s.frameQueue).map .dropped ++ [.delivered callback frame]) := by
  obtain ⟨frame, rest, hqueue⟩ := List.exists_cons_of_ne_nil
    (List.concat_ne_nil (⟨data, pts, chn, streamType, frameType⟩ : Frame) (withRoom s.frameQueue))
  refine ⟨frame, rest, hqueue, ?_⟩
  simp [pushFrame, andThen_apply, dropOldest_eq, enqueue, deliverNext, h, hqueue]

/-- Without a backlog a push hands its own frame over and leaves no trace. -/
theorem pushFrame_of_drained (s : CustomFramedSource κ) (callback : κ)
    (hcallback : s.callback = some callback) (hqueue : s.frameQueue = []) :
    pushFrame data pts chn streamType frameType s =
      (s, [.delivered callback ⟨data, pts, chn, streamType, frameType⟩]) := by
  obtain ⟨queue, installed⟩ := s
  subst hcallback hqueue
  rfl

@[simp]
theorem pushFrame_callback (s : CustomFramedSource κ) :
    (pushFrame data pts chn streamType frameType s).1.callback = s.callback := by
  cases h : s.callback with
  | none => rw [pushFrame_of_no_callback _ _ _ _ _ s h, h]
  | some callback =>
    obtain ⟨_, _, -, hpush⟩ := pushFrame_of_callback data pts chn streamType frameType s callback h
    rw [hpush, h]

theorem length_pushFrame_of_no_callback (s : CustomFramedSource κ)
    (hbound : s.frameQueue.length ≤ maxQueueSize) (h : s.callback = none) :
    (pushFrame data pts chn streamType frameType s).1.frameQueue.length =
      min (s.frameQueue.length + 1) maxQueueSize := by
  rw [pushFrame_of_no_callback _ _ _ _ _ s h, List.length_append, List.length_singleton,
    length_withRoom _ hbound]
  simp only [maxQueueSize]
  omega

/-- A queue that is not full is as long after the push as before. -/
theorem length_pushFrame_of_callback (s : CustomFramedSource κ) (callback : κ)
    (hbound : s.frameQueue.length ≤ maxQueueSize) (h : s.callback = some callback) :
    (pushFrame data pts chn streamType frameType s).1.frameQueue.length =
      min s.frameQueue.length (maxQueueSize - 1) := by
  obtain ⟨frame, rest, hqueue, hpush⟩ :=
    pushFrame_of_callback data pts chn streamType frameType s callback h
  have hlength := congrArg List.length hqueue
  rw [List.length_append, List.length_singleton, List.length_cons,
    length_withRoom _ hbound] at hlength
  rw [hpush]
  exact (Nat.succ.inj hlength).symm

theorem length_pushFrame_le (s : CustomFramedSource κ)
    (hbound : s.frameQueue.length ≤ maxQueueSize) :
    (pushFrame data pts chn streamType frameType s).1.frameQueue.length ≤ maxQueueSize := by
  cases h : s.callback with
  | none =>
    have hlength := length_pushFrame_of_no_callback data pts chn streamType frameType s hbound h
    exact hlength.le.trans (Nat.min_le_right _ _)
  | some callback =>
    have hlength :=
      length_pushFrame_of_callback data pts chn streamType frameType s callback hbound h
    exact hlength.le.trans ((Nat.min_le_left _ _).trans hbound)

/-! ## Conservation -/

theorem conserves_pushFrame :
    Conserves CustomFramedSource.frameQueue Event.frame
      (pushFrame data pts chn streamType frameType :
        Emit (CustomFramedSource κ) (Event κ)) [⟨data, pts, chn, streamType, frameType⟩] := by
  have hdropped (frames : List Frame) :
      (frames.map (Event.dropped : Frame → Event κ)).map Event.frame = frames := by
    rw [List.map_map]
    exact List.map_id frames
  intro s
  cases h : s.callback with
  | none =>
    rw [pushFrame_of_no_callback _ _ _ _ _ s h, hdropped, ← List.append_assoc,
      evicted_append_withRoom]
  | some callback =>
    obtain ⟨frame, rest, hqueue, hpush⟩ :=
      pushFrame_of_callback data pts chn streamType frameType s callback h
    rw [hpush, List.map_append, hdropped]
    calc evicted s.frameQueue ++ [frame] ++ rest
        = evicted s.frameQueue ++ (withRoom s.frameQueue ++
            [⟨data, pts, chn, streamType, frameType⟩]) := by
          rw [hqueue, List.append_assoc, List.singleton_append]
      _ = s.frameQueue ++ [⟨data, pts, chn, streamType, frameType⟩] := by
          rw [← List.append_assoc, evicted_append_withRoom]

theorem conserves_perform (operation : Operation κ) :
    Conserves CustomFramedSource.frameQueue Event.frame operation.perform operation.pushed := by
  cases operation with
  | setCallback callback =>
    intro s
    rw [Operation.pushed, List.append_nil]
    rfl
  | pushFrame data pts chn streamType frameType =>
    exact conserves_pushFrame data pts chn streamType frameType

theorem conserves_run (operations : List (Operation κ)) :
    Conserves CustomFramedSource.frameQueue Event.frame (run operations)
      (operations.flatMap Operation.pushed) :=
  conserves_forEach fun operation _ ↦ conserves_perform operation

theorem length_frameQueue_run (operations : List (Operation κ)) :
    (reached operations).frameQueue.length ≤ maxQueueSize := by
  have hkeep : Preserves (fun (s : CustomFramedSource κ) (_ : List (Event κ)) ↦
      s.frameQueue.length ≤ maxQueueSize) (run operations) := by
    apply preserves_forEach
    intro operation _ s _ hbound
    cases operation with
    | setCallback callback => exact hbound
    | pushFrame data pts chn streamType frameType =>
      exact length_pushFrame_le data pts chn streamType frameType s hbound
  exact hkeep _ [] (Nat.zero_le _)

/-- The frames that an operation may drop: the oldest one, by a push that finds a full queue. -/
def Operation.drops (s : CustomFramedSource κ) : Operation κ → List Frame
  | .setCallback _ => []
  | .pushFrame .. => if s.frameQueue.length = maxQueueSize then s.frameQueue.take 1 else []

theorem droppedFrames_perform (operation : Operation κ) (s : CustomFramedSource κ)
    (hbound : s.frameQueue.length ≤ maxQueueSize) :
    (operation.perform s).2.filterMap Event.droppedFrame? = operation.drops s := by
  have hdropped (frames : List Frame) :
      (frames.map (Event.dropped : Frame → Event κ)).filterMap Event.droppedFrame? = frames := by
    rw [List.filterMap_map]
    exact List.filterMap_some
  have hfull : evicted s.frameQueue =
      if s.frameQueue.length = maxQueueSize then s.frameQueue.take 1 else [] := by
    simp only [evicted, hbound.ge_iff_eq, eq_comm]
  cases operation with
  | setCallback callback => rfl
  | pushFrame data pts chn streamType frameType =>
    rw [Operation.drops, ← hfull]
    cases h : s.callback with
    | none =>
      rw [Operation.perform, pushFrame_of_no_callback _ _ _ _ _ s h, hdropped]
    | some callback =>
      obtain ⟨frame, rest, -, hpush⟩ :=
        pushFrame_of_callback data pts chn streamType frameType s callback h
      rw [Operation.perform, hpush, List.filterMap_append, hdropped]
      exact List.append_nil _

theorem overflow_of_mem_drops {operation : Operation κ} {s : CustomFramedSource κ} {frame : Frame}
    (h : frame ∈ operation.drops s) :
    s.frameQueue.length = maxQueueSize ∧ operation.pushed ≠ [] := by
  cases operation with
  | setCallback callback => cases h
  | pushFrame data pts chn streamType frameType =>
    refine ⟨?_, List.cons_ne_nil _ _⟩
    by_contra hroom
    rw [Operation.drops, if_neg hroom] at h
    cases h

/-- Deliveries happen in the order in which frames leave the queue. -/
theorem deliveredFrames_sublist (leaving : List (Event κ)) :
    (leaving.filterMap Event.deliveredFrame?).Sublist (leaving.map Event.frame) := by
  induction leaving with
  | nil => exact List.Sublist.slnil
  | cons event leaving ih =>
    cases event with
    | dropped frame => exact ih.cons frame
    | delivered callback frame => exact ih.cons_cons frame

/-- The fate of the frames pushed in a run. -/
structure Ledger (operations : List (Operation κ)) : Prop where
  /-- In the order of the pushes, the frames have left the queue one by one or are in it. -/
  partition : (events operations).map Event.frame ++ (reached operations).frameQueue =
    operations.flatMap Operation.pushed
  delivered : ((events operations).filterMap Event.deliveredFrame?).Sublist
    (operations.flatMap Operation.pushed)
  suffix : (reached operations).frameQueue <:+ operations.flatMap Operation.pushed
  bounded : (reached operations).frameQueue.length ≤ 30
  drops : HistoryForall (fun before operation ↦
    (operation.perform (reached before)).2.filterMap Event.droppedFrame? =
      operation.drops (reached before)) operations

/-- **Queue conservation.** Every run of the source keeps its ledger. -/
theorem ledger_run (operations : List (Operation κ)) : Ledger operations where
  partition := conserves_run operations CustomFramedSource.construct
  delivered := by
    have hall : (events operations).map Event.frame ++ (reached operations).frameQueue =
        operations.flatMap Operation.pushed := conserves_run operations CustomFramedSource.construct
    rw [← hall]
    exact (deliveredFrames_sublist _).trans (List.sublist_append_left _ _)
  suffix := (conserves_run operations).suffix rfl
  bounded := length_frameQueue_run operations
  drops before operation _ _ := droppedFrames_perform operation _ (length_frameQueue_run before)

/-! ## Backlogs -/

/-- The pushes that find no callback, when the first operation finds `callback`. -/
def unserved : Option κ → List (Operation κ) → ℕ
  | _, [] => 0
  | _, .setCallback callback :: operations => unserved callback operations
  | none, .pushFrame .. :: operations => unserved none operations + 1
  | some callback, .pushFrame .. :: operations => unserved (some callback) operations

/-- Up to one frame of a full queue, the backlog is what was pushed without a callback. -/
theorem length_frameQueue_run_of_unserved (operations : List (Operation κ))
    (s : CustomFramedSource κ) (backlog : ℕ) (hlow : min backlog 29 ≤ s.frameQueue.length)
    (hhigh : s.frameQueue.length ≤ min backlog 30) :
    min (backlog + unserved s.callback operations) 29 ≤ (run operations s).1.frameQueue.length ∧
      (run operations s).1.frameQueue.length ≤
        min (backlog + unserved s.callback operations) 30 := by
  have hbound : s.frameQueue.length ≤ maxQueueSize := hhigh.trans (Nat.min_le_right _ _)
  induction operations generalizing s backlog with
  | nil => exact ⟨hlow, hhigh⟩
  | cons operation operations ih =>
    rw [run, forEach_cons, andThen_fst]
    cases operation with
    | setCallback callback =>
      rw [unserved]
      exact ih (setCallback callback s).1 backlog hlow hhigh hbound
    | pushFrame data pts chn streamType frameType =>
      have hcallback := pushFrame_callback data pts chn streamType frameType s
      cases h : s.callback with
      | none =>
        have hlength := length_pushFrame_of_no_callback data pts chn streamType frameType s hbound h
        simp only [maxQueueSize] at hlength
        have hrest := ih (pushFrame data pts chn streamType frameType s).1 (backlog + 1)
          (by omega) (by omega) (by simp only [maxQueueSize]; omega)
        rw [hcallback, h] at hrest
        rwa [unserved, Nat.add_comm (unserved _ _), ← Nat.add_assoc]
      | some callback =>
        have hlength :=
          length_pushFrame_of_callback data pts chn streamType frameType s callback hbound h
        simp only [maxQueueSize] at hlength
        have hrest := ih (pushFrame data pts chn streamType frameType s).1 backlog
          (by omega) (by omega) (by simp only [maxQueueSize]; omega)
        rwa [hcallback, h] at hrest

/-- **Backlogs.** When a push returns with a callback installed, the queue holds as many frames as
were pushed without one, up to 29, and these are the last frames pushed. -/
theorem frameQueue_of_callback (operations : List (Operation κ)) (callback : κ)
    (hcallback : (reached operations).callback = some callback) :
    (reached (operations ++ [Operation.pushFrame data pts chn streamType frameType])).frameQueue <:+
        (operations ++ [Operation.pushFrame data pts chn streamType frameType]).flatMap
          Operation.pushed ∧
      (reached (operations ++
        [Operation.pushFrame data pts chn streamType frameType])).frameQueue.length =
          min (unserved none operations) 29 ∧
      ((reached (operations ++
        [Operation.pushFrame data pts chn streamType frameType])).frameQueue = [] ↔
          unserved none operations = 0) := by
  have hstate : reached (operations ++ [Operation.pushFrame data pts chn streamType frameType]) =
      (pushFrame data pts chn streamType frameType (reached operations)).1 := by
    rw [reached, run, forEach_append, andThen_fst, forEach_singleton]
    rfl
  have hlength : (reached (operations ++
      [Operation.pushFrame data pts chn streamType frameType])).frameQueue.length =
        min (unserved none operations) 29 := by
    obtain ⟨hlow, hhigh⟩ : min (0 + unserved none operations) 29 ≤
        (reached operations).frameQueue.length ∧
          (reached operations).frameQueue.length ≤ min (0 + unserved none operations) 30 :=
      length_frameQueue_run_of_unserved operations CustomFramedSource.construct 0 (Nat.le_refl 0)
        (Nat.le_refl 0)
    rw [hstate, length_pushFrame_of_callback _ _ _ _ _ _ callback (length_frameQueue_run operations)
      hcallback]
    simp only [maxQueueSize]
    omega
  refine ⟨(conserves_run _).suffix rfl, hlength, ?_⟩
  rw [← List.length_eq_zero_iff, hlength]
  omega

/-- One frame before the callback is installed and one after it. -/
theorem frameQueue_of_callback_late :
    (reached [.pushFrame [1] 0 0 0 0, .setCallback (some ()), .pushFrame [2] 1 0 0 0]
      ).frameQueue.length = min 1 29 :=
  (frameQueue_of_callback [2] 1 0 0 0 [.pushFrame [1] 0 0 0 0, .setCallback (some ())] () rfl).2.1

theorem frameQueue_ne_nil_of_callback :
    (reached [.pushFrame [1] 0 0 0 0, .setCallback (some ()), .pushFrame [2] 1 0 0 0]).callback =
        some () ∧
      (reached [.pushFrame [1] 0 0 0 0, .setCallback (some ()), .pushFrame [2] 1 0 0 0]
        ).frameQueue ≠ [] :=
  ⟨rfl, by decide +kernel⟩

end RtpSender.Source
