import RtpSender.Receiver.OutOfMemory
import RtpSender.Source.Exceptions

/-!
# Pushes of a channel that throw

The callback that `main` installs calls `sendFrame`, so an exception of the session passes through
the source to the caller of `pushFrame`.  The frame is popped behind the callback.  It therefore
stays at the front after an exception and is handed over again by the next push, while the frame of
this push waits.  From each call a receiver gets the units all of whose packets were sent.  So the
first units of a frame may arrive several times, and all of them when a call threw behind the last
packet; but the frames are served in the order of the pushes, none is handed over again once a call
on it has returned, and one is missing only where the queue dropped it.
-/

open RtpSender.Emitter RtpSender.Throwing RtpSender.Wire
open RtpSender.RtpSendingSession RtpSender.Source RtpSender.Receiver

namespace RtpSender.Main

/-! ## A source with its session -/

/-- A source and the session that its callback calls. -/
structure Channel where
  source : CustomFramedSource Unit
  session : Session

/-- What `main` has set up before the first push. -/
def Channel.wired (session : Session) : Channel where
  source := (setCallback (some ()) CustomFramedSource.construct).1
  session := session

inductive Handling where
  | dropped (frame : Frame)
  | handed (frame : Frame) (calls : List Syscall) (returned : Bool)

/-- The arguments of a push and what decides how it ends: whether the copy fails, the clock in the
callback, and which allocations of the callback fail. -/
structure Post where
  data : Bytes
  len : ℤ
  pts : ℤ
  chn : ℤ
  streamType : ℤ
  frameType : ℤ
  allocFails : Bool
  now : Timeval
  failures : List Bool

/-- The push as the source sees it. -/
def Post.push (post : Post) (callbackThrows : Bool) : Push :=
  ⟨post.data, post.len, post.pts, post.chn, post.streamType, post.frameType, post.allocFails,
    callbackThrows⟩

def Post.frame? (post : Post) : Option Frame := (post.push false).frame?

/-- The call of `sendFrame` on a frame that is handed over during a push. -/
def Post.trial (post : Post) (frame : Frame) : Trial :=
  ⟨⟨frame.buff, frame.pts, post.now⟩, post.failures⟩

variable (toTimestamp : ℤ → UInt32)

/-- The end of `pushFrame`. -/
def Post.deliverNext (post : Post) : MayThrow Channel Handling := fun c ↦
  match c.source.callback, c.source.frameQueue with
  | some (), frame :: rest =>
    let ((session, calls), returned) := (post.trial frame).attempt toTimestamp c.session
    -- an exception comes before the pop
    let source := if returned then { c.source with frameQueue := rest } else c.source
    ((⟨source, session⟩, [.handed frame calls returned]), returned)
  | _, _ => ((c, []), true)

def Post.perform (post : Post) : MayThrow Channel Handling := fun c ↦
  let (source, dropped) := dropOldest c.source
  let dropped := dropped.map fun event ↦ .dropped event.frame
  match post.frame? with
  | none => (({ c with source := source }, dropped), false)
  | some frame =>
    let (source, _) := enqueue frame source
    let ((c, handed), returned) := post.deliverNext toTimestamp { c with source := source }
    ((c, dropped ++ handed), returned)

def performAll (posts : List Post) : Channel → (Channel × List Handling) × List Bool :=
  tryEach (Post.perform toTimestamp) posts

def Handling.calls : Handling → List Syscall
  | .dropped _ => []
  | .handed _ calls _ => calls

/-- The frames are served in turn: the next one is dropped or is handed over until a call returns.
The last arguments are the frames still queued and the units that a receiver gets. -/
inductive InTurn : List Frame → List Handling → List Frame → List Bytes → Prop
  | idle (queue : List Frame) : InTurn queue [] queue []
  | dropped {frame : Frame} {frames queue : List Frame} {handlings : List Handling}
      {nals : List Bytes} (later : InTurn frames handlings queue nals) :
      InTurn (frame :: frames) (.dropped frame :: handlings) queue nals
  | returned {frame : Frame} {frames queue : List Frame} {handlings : List Handling}
      {nals : List Bytes} (calls : List Syscall) (later : InTurn frames handlings queue nals) :
      InTurn (frame :: frames) (.handed frame calls true :: handlings) queue
        (nalus frame.buff ++ nals)
  | threw {frame : Frame} {frames queue : List Frame} {handlings : List Handling}
      {nals : List Bytes} (calls : List Syscall)
      (later : InTurn (frame :: frames) handlings queue nals) :
      InTurn (frame :: frames) (.handed frame calls false :: handlings) queue
        (completed (nalus frame.buff) (rtpPackets calls).length ++ nals)

/-- Service of the queue and of what is added later. -/
theorem InTurn.append {frames queue added final : List Frame} {handlings handlings' : List Handling}
    {nals nals' : List Bytes} (h : InTurn frames handlings queue nals)
    (h' : InTurn (queue ++ added) handlings' final nals') :
    InTurn (frames ++ added) (handlings ++ handlings') final (nals ++ nals') := by
  induction h with
  | idle queue => exact h'
  | dropped later ih => exact (ih h').dropped
  | returned calls later ih =>
    rw [List.append_assoc]
    exact (ih h').returned calls
  | threw calls later ih =>
    rw [List.append_assoc]
    exact (ih h').threw calls

/-! ## One push -/

theorem perform_of_failed {post : Post} (h : post.frame? = none) (c : Channel) :
    post.perform toTimestamp c =
      ((⟨{ c.source with frameQueue := withRoom c.source.frameQueue }, c.session⟩,
        (evicted c.source.frameQueue).map .dropped), false) := by
  simp only [Post.perform, dropOldest_eq, h, List.map_map]
  rfl

/-- A push that copies its frame hands over the oldest frame. -/
theorem perform_of_copied {post : Post} {frame : Frame} (h : post.frame? = some frame)
    {c : Channel} (hcallback : c.source.callback = some ()) :
    ∃ oldest rest, withRoom c.source.frameQueue ++ [frame] = oldest :: rest ∧
      post.perform toTimestamp c =
        ((⟨{ c.source with frameQueue :=
              if ((post.trial oldest).attempt toTimestamp c.session).2 then rest
              else oldest :: rest },
            ((post.trial oldest).attempt toTimestamp c.session).1.1⟩,
          (evicted c.source.frameQueue).map .dropped ++
            [.handed oldest ((post.trial oldest).attempt toTimestamp c.session).1.2
              ((post.trial oldest).attempt toTimestamp c.session).2]),
          ((post.trial oldest).attempt toTimestamp c.session).2) := by
  obtain ⟨oldest, rest, hqueue⟩ :=
    List.exists_cons_of_ne_nil (List.concat_ne_nil frame (withRoom c.source.frameQueue))
  refine ⟨oldest, rest, hqueue, ?_⟩
  simp only [Post.perform, dropOldest_eq, h, enqueue, Post.deliverNext, hcallback, hqueue,
    List.map_map]
  cases ((post.trial oldest).attempt toTimestamp c.session).2 <;> rfl

theorem calls_dropped (frames : List Frame) :
    (frames.map Handling.dropped).flatMap Handling.calls = [] := by
  rw [List.flatMap_map]
  simp [Handling.calls]

theorem length_withRoom_le (queue : List Frame) : (withRoom queue).length ≤ queue.length := by
  have hall := congrArg List.length (evicted_append_withRoom queue)
  rw [List.length_append] at hall
  omega

theorem callback_perform (post : Post) {c : Channel} (hcallback : c.source.callback = some ()) :
    (post.perform toTimestamp c).1.1.source.callback = some () := by
  cases hcopied : post.frame? with
  | none =>
    rw [perform_of_failed toTimestamp hcopied]
    exact hcallback
  | some frame =>
    obtain ⟨oldest, rest, -, hperform⟩ := perform_of_copied toTimestamp hcopied hcallback
    rw [hperform]
    exact hcallback

/-- The source does what a push does whose callback throws where the session throws. -/
theorem source_perform (post : Post) {c : Channel} (hcallback : c.source.callback = some ()) :
    (post.perform toTimestamp c).1.1.source =
      (pushFrameOrThrow (post.push !(post.perform toTimestamp c).2) c.source).1.1 := by
  cases hcopied : post.frame? with
  | none =>
    have hpush : (post.push true).frame? = none := hcopied
    rw [perform_of_failed toTimestamp hcopied, Bool.not_false, pushFrameOrThrow_of_failed hpush]
  | some frame =>
    obtain ⟨oldest, rest, hqueue, hperform⟩ := perform_of_copied toTimestamp hcopied hcallback
    rw [hperform]
    cases hreturned : ((post.trial oldest).attempt toTimestamp c.session).2 with
    | false =>
      have hpushed : (post.push true).frame? = some frame := hcopied
      obtain ⟨oldest', rest', hqueue', hpush⟩ := pushFrameOrThrow_of_thrown hpushed hcallback rfl
      rw [Bool.not_false, hpush, ← hqueue', hqueue]
      rfl
    | true =>
      have hpushed : (post.push false).frame? = some frame := hcopied
      rw [Bool.not_true, pushFrameOrThrow_of_returned hpushed fun _ ↦ rfl]
      obtain ⟨oldest', rest', hqueue', hpush⟩ := pushFrame_of_callback frame.buff frame.pts
        frame.chn frame.streamType frame.frameType c.source () hcallback
      have hsame : rest' = rest := (List.cons.inj (hqueue'.symm.trans hqueue)).2
      rw [hpush, hsame]
      rfl

/-! ## What does not depend on the frames -/

/-- Each exception has cost the channel one place in its queue at most. -/
structure Lagging (fd : ℕ) (thrown : ℕ) (c : Channel) (handlings : List Handling) : Prop where
  callback : c.source.callback = some ()
  room : c.source.frameQueue.length ≤ maxQueueSize
  lag : c.source.frameQueue.length ≤ thrown
  connection : OnConnection fd c.session (handlings.flatMap Handling.calls)

theorem length_perform_le (post : Post) {c : Channel} (hcallback : c.source.callback = some ())
    {thrown : ℕ} (hlag : c.source.frameQueue.length ≤ thrown) :
    (post.perform toTimestamp c).1.1.source.frameQueue.length ≤
      thrown + if (post.perform toTimestamp c).2 then 0 else 1 := by
  have hless := length_withRoom_le c.source.frameQueue
  cases hcopied : post.frame? with
  | none =>
    rw [perform_of_failed toTimestamp hcopied]
    exact (hless.trans hlag).trans (Nat.le_add_right _ _)
  | some frame =>
    obtain ⟨oldest, rest, hqueue, hperform⟩ := perform_of_copied toTimestamp hcopied hcallback
    have hlength := congrArg List.length hqueue
    rw [List.length_append, List.length_singleton, List.length_cons] at hlength
    rw [hperform]
    cases ((post.trial oldest).attempt toTimestamp c.session).2 with
    | false =>
      simp only [Bool.false_eq_true, if_false, List.length_cons]
      omega
    | true =>
      simp only [if_true]
      omega

theorem onConnection_perform (fd : ℕ) (post : Post) {c : Channel}
    (hcallback : c.source.callback = some ()) {calls : List Syscall}
    (h : OnConnection fd c.session calls) :
    OnConnection fd (post.perform toTimestamp c).1.1.session
      (calls ++ (post.perform toTimestamp c).1.2.flatMap Handling.calls) := by
  cases hcopied : post.frame? with
  | none =>
    rw [perform_of_failed toTimestamp hcopied, calls_dropped, List.append_nil]
    exact h
  | some frame =>
    obtain ⟨oldest, rest, -, hperform⟩ := perform_of_copied toTimestamp hcopied hcallback
    have hconnection := costs_attempt toTimestamp (bears_onConnection fd) (post.trial oldest) 0
      c.session calls h
    rw [hperform, List.flatMap_append, calls_dropped, List.nil_append, List.flatMap_singleton]
    exact hconnection

theorem costs_perform (fd : ℕ) (post : Post) : Costs (Lagging fd) (post.perform toTimestamp) := by
  intro thrown c handlings h
  refine ⟨callback_perform toTimestamp post h.callback, ?_,
    length_perform_le toTimestamp post h.callback h.lag, ?_⟩
  · rw [source_perform toTimestamp post h.callback]
    exact length_pushFrameOrThrow_le _ h.room
  · rw [List.flatMap_append]
    exact onConnection_perform toTimestamp fd post h.callback h.connection

/-! ## What a receiver gets -/

/-- The buffer holds units that the receiver knows. -/
def Readable (frame : Frame) : Prop :=
  ∃ nals : List NalUnit, (∀ nal ∈ nals, nal.Typed) ∧ frame.buff = frameBytes nals

theorem inTurn_evicted (queue : List Frame) :
    InTurn queue ((evicted queue).map .dropped) (withRoom queue) [] := by
  unfold evicted withRoom
  split
  · cases queue with
    | nil => exact .idle []
    | cons frame rest => exact (InTurn.idle rest).dropped
  · exact .idle queue

/-- The first frame in the queue is handed over once. -/
theorem inTurn_handed (post : Post) {oldest : Frame} (hreadable : Readable oldest)
    (rest : List Frame) (s : Session) (pending : Pending) :
    InTurn (oldest :: rest)
      [.handed oldest ((post.trial oldest).attempt toTimestamp s).1.2
        ((post.trial oldest).attempt toTimestamp s).2]
      (if ((post.trial oldest).attempt toTimestamp s).2 then rest else oldest :: rest)
      (forEach depacketize
        (rtpPackets ((post.trial oldest).attempt toTimestamp s).1.2) pending).2 := by
  obtain ⟨nals, htyped, hbuff⟩ := hreadable
  have htrial : post.trial oldest =
      (⟨⟨nals, oldest.pts, post.now⟩, post.failures⟩ : UnitTrial).trial := by
    rw [Post.trial, hbuff]
    rfl
  have hkept := kept_attempt toTimestamp ⟨⟨nals, oldest.pts, post.now⟩, post.failures⟩ htyped s
    pending
  rw [← htrial] at hkept
  have hnalus : nalus oldest.buff = nals.map NalUnit.bytes := by
    rw [hbuff, nalus_frameBytes]
  cases hreturned : ((post.trial oldest).attempt toTimestamp s).2 with
  | false =>
    have hserved := (InTurn.idle (oldest :: rest)).threw
      ((post.trial oldest).attempt toTimestamp s).1.2
    rwa [List.append_nil, hnalus, ← hkept.complete] at hserved
  | true =>
    have hall := hkept.whole hreturned
    have hserved : InTurn (oldest :: rest)
        [.handed oldest ((post.trial oldest).attempt toTimestamp s).1.2 true] rest
        (nalus oldest.buff ++ []) := (InTurn.idle rest).returned _
    rwa [List.append_nil, hnalus, ← hall] at hserved

theorem InTurn.suffix {frames queue : List Frame} {handlings : List Handling} {nals : List Bytes}
    (h : InTurn frames handlings queue nals) : queue <:+ frames := by
  induction h with
  | idle queue => exact List.suffix_refl queue
  | dropped later ih => exact ih.trans (List.suffix_cons _ _)
  | returned calls later ih => exact ih.trans (List.suffix_cons _ _)
  | threw calls later ih => exact ih

theorem inTurn_perform {post : Post} (hpost : ∀ frame, post.frame? = some frame → Readable frame)
    {c : Channel} (hcallback : c.source.callback = some ())
    (hqueue : ∀ frame ∈ c.source.frameQueue, Readable frame) (pending : Pending) :
    InTurn (c.source.frameQueue ++ post.frame?.toList) (post.perform toTimestamp c).1.2
      (post.perform toTimestamp c).1.1.source.frameQueue
      (forEach depacketize
        (rtpPackets ((post.perform toTimestamp c).1.2.flatMap Handling.calls)) pending).2 := by
  have hdropped := calls_dropped (evicted c.source.frameQueue)
  have hroom := inTurn_evicted c.source.frameQueue
  cases hcopied : post.frame? with
  | none =>
    rw [perform_of_failed toTimestamp hcopied, hdropped, Option.toList_none, List.append_nil]
    exact hroom
  | some frame =>
    obtain ⟨oldest, rest, hcons, hperform⟩ := perform_of_copied toTimestamp hcopied hcallback
    have holdest : Readable oldest := by
      have hmem : oldest ∈ withRoom c.source.frameQueue ++ [frame] := by
        rw [hcons]
        exact List.mem_cons_self ..
      rcases List.mem_append.mp hmem with hold | hnew
      · exact hqueue oldest (hroom.suffix.subset hold)
      · rw [List.mem_singleton.mp hnew]
        exact hpost frame hcopied
    have hhanded := inTurn_handed toTimestamp post holdest rest c.session pending
    rw [← hcons] at hhanded
    have hserved := hroom.append hhanded
    rw [hperform, List.flatMap_append, hdropped]
    simpa [Handling.calls, hcons] using hserved

/-- Whatever the receiver has pending. -/
theorem inTurn_performAll {posts : List Post}
    (hposts : ∀ post ∈ posts, ∀ frame, post.frame? = some frame → Readable frame) {c : Channel}
    (hcallback : c.source.callback = some ())
    (hqueue : ∀ frame ∈ c.source.frameQueue, Readable frame) (pending : Pending) :
    InTurn (c.source.frameQueue ++ posts.flatMap fun post ↦ post.frame?.toList)
      (performAll toTimestamp posts c).1.2 (performAll toTimestamp posts c).1.1.source.frameQueue
      (forEach depacketize
        (rtpPackets ((performAll toTimestamp posts c).1.2.flatMap Handling.calls)) pending).2 := by
  induction posts generalizing c pending with
  | nil =>
    rw [List.flatMap_nil, List.append_nil]
    exact .idle c.source.frameQueue
  | cons post posts ih =>
    have hpost := hposts post (List.mem_cons_self ..)
    have hhead := inTurn_perform toTimestamp hpost hcallback hqueue pending
    have hnext : ∀ frame ∈ (post.perform toTimestamp c).1.1.source.frameQueue, Readable frame := by
      intro frame hmem
      rcases List.mem_append.mp (hhead.suffix.subset hmem) with hold | hnew
      · exact hqueue frame hold
      · exact hpost frame (Option.mem_toList.mp hnew)
    have htail := ih (fun later hlater ↦ hposts later (List.mem_cons_of_mem _ hlater))
      (callback_perform toTimestamp post hcallback) hnext
      (forEach depacketize
        (rtpPackets ((post.perform toTimestamp c).1.2.flatMap Handling.calls)) pending).1
    have hboth := hhead.append htail
    rw [List.append_assoc] at hboth
    rw [performAll, tryEach_cons, List.flatMap_cons, List.flatMap_append, rtpPackets_append,
      forEach_append, andThen_snd]
    exact hboth

/-- The first unit arrives twice. -/
example :
    receive (wire ((performAll (fun _ ↦ 0)
        [⟨[0, 0, 0, 1, 0x67, 1, 0, 0, 0, 1, 0x65, 2], 12, 0, 0, 0, 0, false, ⟨0, 0, by decide⟩,
            [false, false, true]⟩,
          ⟨[0, 0, 0, 1, 0x41, 3], 6, 40000, 0, 0, 1, false, ⟨0, 40000, by decide⟩, []⟩]
        (Channel.wired { Session.construct 0 1 with tcpSock := some 3 })).1.2.flatMap
          Handling.calls)) = some [[0x67, 1], [0x67, 1], [0x65, 2]] := by
  decide +kernel

end RtpSender.Main
