import RtpSender.Main.Concurrency
import RtpSender.Receiver.Connections

/-!
# What receivers get from concurrent callers

Several threads push frames or send them on the channels of a wired program whose sessions have
descriptors of their own.  No access to a session changes its descriptor, so at every moment, locked
or not, a session has written on its own connection only.  With the order in which the calls take
effect, the receiver of a connection gets whole frames.
-/

open RtpSender.Emitter RtpSender.Threads RtpSender.Wire
open RtpSender.RtpSendingSession (AccessUnit FrameInput NalUnit Session Syscall Timeval
  exactTimestamp sendFrames sentOn sentOn_of_sends wire)
open RtpSender.Receiver (carries_sendFrames receive)
open RtpSender.Source (CustomFramedSource Frame)
open RtpSender.Main (Program Wired callSendFrame syscallsOn syscallsOn_append
  syscallsOn_callSendFrame)

namespace RtpSender.Locking

variable {channels : ℕ} {chn : Fin channels} {toTimestamp : ℤ → UInt32}
  {next : Code (Object channels)} {socks : Fin channels → Option ℕ}

/-! ## Own descriptors -/

/-- Every session sends on its own descriptor only. -/
def OwnSends (socks : Fin channels → Option ℕ) : (lock : Lock channels) → Object channels lock → Prop
  | .source _, _ => True
  | .session chn, object => object.1.tcpSock = socks chn ∧
    ∀ call ∈ object.2, ∃ buffer, call = .send (socks chn) buffer

theorem keeps_onSession {program : Emit Session Syscall} {next : Session → Code (Object channels)}
    (hsock : ∀ s, (program s).1.tcpSock = s.tcpSock)
    (hsends : ∀ s, ∀ call ∈ (program s).2, ∃ buffer, call = .send s.tcpSock buffer)
    (h : ∀ s, (next s).Keeps (OwnSends socks)) :
    (onSession chn program next).Keeps (OwnSends socks) := by
  refine ⟨fun found hfound ↦ ⟨(hsock found.1).trans hfound.1, fun call hcall ↦ ?_⟩,
    fun found ↦ h found.1⟩
  rcases List.mem_append.mp hcall with hold | hnew
  · exact hfound.2 call hold
  · rw [← hfound.1]
    exact hsends found.1 call hnew

/-- An access that makes no system call. -/
theorem keeps_silently {access : Session → Session} {next : Session → Code (Object channels)}
    (hsock : ∀ s, (access s).tcpSock = s.tcpSock) (h : ∀ s, (next s).Keeps (OwnSends socks)) :
    (onSession chn (fun s ↦ (access s, [])) next).Keeps (OwnSends socks) :=
  keeps_onSession hsock (fun _ _ hcall ↦ nomatch hcall) h

theorem keeps_send {buffer : Session → Bytes} {next : Session → Code (Object channels)}
    (h : ∀ s, (next s).Keeps (OwnSends socks)) :
    (onSession chn (fun s ↦ (s, [.send s.tcpSock (buffer s)])) next).Keeps (OwnSends socks) :=
  keeps_onSession (fun _ ↦ rfl) (fun s _ hcall ↦ ⟨buffer s, List.mem_singleton.mp hcall⟩) h

theorem keeps_onSource {program : Emit (CustomFramedSource (Fin channels)) Frame}
    {next : CustomFramedSource (Fin channels) → Code (Object channels)}
    (h : ∀ s, (next s).Keeps (OwnSends socks)) :
    (onSource chn program next).Keeps (OwnSends socks) :=
  ⟨fun _ _ ↦ trivial, fun found ↦ h found.1⟩

theorem keeps_sendRtpPacket (payload : Bytes) (marker : Bool) (timestamp : UInt32)
    (h : next.Keeps (OwnSends socks)) :
    (sendRtpPacket chn payload marker timestamp next).Keeps (OwnSends socks) := by
  refine keeps_silently (fun _ ↦ rfl) fun _ ↦ ?_
  refine keeps_silently (fun _ ↦ rfl) fun _ ↦ ?_
  refine keeps_send fun _ ↦ ?_
  refine keeps_silently (fun _ ↦ rfl) fun _ ↦ ?_
  exact keeps_silently (fun _ ↦ rfl) fun _ ↦ h

theorem keeps_sendRtcpSr (timestamp : UInt32) (now : Timeval) (h : next.Keeps (OwnSends socks)) :
    (sendRtcpSr chn timestamp now next).Keeps (OwnSends socks) := by
  refine keeps_silently (fun _ ↦ rfl) fun _ ↦ ?_
  refine keeps_silently (fun _ ↦ rfl) fun _ ↦ ?_
  refine keeps_silently (fun _ ↦ rfl) fun _ ↦ ?_
  exact keeps_send fun _ ↦ h

theorem keeps_fragmentLoop (nalu : Bytes) (size : ℕ) (nalHeader : UInt8) (timestamp : UInt32)
    (pos : ℕ) (h : next.Keeps (OwnSends socks)) :
    (fragmentLoop chn nalu size nalHeader timestamp pos next).Keeps (OwnSends socks) := by
  fun_induction fragmentLoop chn nalu size nalHeader timestamp pos next with
  | case1 pos hpos remaining payloadLen fuHeader buf =>
    rename_i ih
    exact keeps_sendRtpPacket _ _ _ ih
  | case2 pos hpos => exact h

theorem keeps_parseLoop (data : Bytes) (pts : ℤ) (pos : ℕ) (h : next.Keeps (OwnSends socks)) :
    (parseLoop chn toTimestamp data pts pos next).Keeps (OwnSends socks) := by
  fun_induction parseLoop chn toTimestamp data pts pos next with
  | case1 pos hpos hcode start hend =>
    rename_i ih
    refine keeps_silently (fun _ ↦ rfl) fun _ ↦ ?_
    unfold packetizeAndSendNalu
    split
    · exact keeps_sendRtpPacket _ _ _ ih
    · exact keeps_fragmentLoop _ _ _ _ _ ih
  | case2 pos hpos hcode ih => exact ih
  | case3 pos hpos => exact h

theorem keeps_sendTimed (input : FrameInput) (h : next.Keeps (OwnSends socks)) :
    (sendTimed chn toTimestamp input next).Keeps (OwnSends socks) := by
  refine keeps_silently (fun _ ↦ rfl) fun s ↦ keeps_parseLoop _ _ _ ?_
  refine keeps_silently (fun _ ↦ rfl) fun s' ↦ ?_
  split
  · exact keeps_sendRtcpSr _ _ (keeps_silently (fun _ ↦ rfl) fun _ ↦ h)
  · exact h

theorem keeps_sendFrame (input : FrameInput) (h : next.Keeps (OwnSends socks)) :
    (sendFrame chn toTimestamp input next).Keeps (OwnSends socks) := by
  unfold sendFrame
  rw [Code.Keeps]
  refine keeps_silently (fun _ ↦ rfl) fun s ↦ ?_
  split
  · exact keeps_silently (fun _ ↦ rfl) fun _ ↦ keeps_sendTimed input h
  · exact keeps_sendTimed input h

theorem keeps_deliverNext (now : Timeval) (h : next.Keeps (OwnSends socks)) :
    (deliverNext chn toTimestamp now next).Keeps (OwnSends socks) := by
  refine keeps_onSource fun s ↦ ?_
  cases s.callback with
  | none => exact h
  | some callback =>
    refine keeps_onSource fun s' ↦ ?_
    cases s'.frameQueue with
    | nil => exact h
    | cons frame rest => exact keeps_sendFrame _ (keeps_onSource fun _ ↦ h)

/-- No access changes the descriptor of a session. -/
theorem keeps_code (call : Call channels) : (call.code toTimestamp).Keeps (OwnSends socks) := by
  cases call with
  | sendFrame chn input => exact keeps_sendFrame input trivial
  | setCallback chn callback => exact ⟨fun _ _ ↦ trivial, fun _ ↦ trivial⟩
  | pushFrame chn data pts number streamType frameType now =>
    unfold Call.code Locking.pushFrame
    rw [Code.Keeps]
    refine keeps_onSource fun s ↦ ?_
    split
    · exact keeps_onSource fun _ ↦ keeps_onSource fun _ ↦ keeps_deliverNext now trivial
    · exact keeps_onSource fun _ ↦ keeps_deliverNext now trivial

end RtpSender.Locking

namespace RtpSender.Concurrency

open RtpSender.Locking

variable {channels : ℕ} {toTimestamp : ℤ → UInt32} {γ ι : Type}

/-! ## Receivers -/

/-- A frame that a thread sends, by a push or by a call of `sendFrame`. -/
structure Submission (channels : ℕ) where
  chn : Fin channels
  unit : AccessUnit
  direct : Bool
  number : ℤ
  streamType : ℤ
  frameType : ℤ

def Submission.call (submission : Submission channels) : Call channels :=
  if submission.direct then .sendFrame submission.chn submission.unit.input
  else .pushFrame submission.chn submission.unit.input.data submission.unit.pts submission.number
    submission.streamType submission.frameType submission.unit.now

/-- The frames for a channel. -/
def unitsOn (chn : Fin channels) (order : List (ι × Submission channels)) : List AccessUnit :=
  order.filterMap fun entry ↦ if entry.2.chn = chn then some entry.2.unit else none

/-- Pushed or not, a frame goes to the session at once. -/
theorem perform_submission (submission : Submission channels) {program : Program channels}
    (h : Wired program) :
    perform toTimestamp submission.call program =
      ({ program with sessions := (callSendFrame toTimestamp submission.chn submission.unit.input
          program.sessions).1 },
        (callSendFrame toTimestamp submission.chn submission.unit.input program.sessions).2) := by
  unfold Submission.call
  split
  · rfl
  · simp only [perform, Source.pushFrame_of_drained _ _ _ _ _ _ _ (h.callback submission.chn)
      (h.queue submission.chn), Function.update_eq_self, forEach_singleton]
    rfl

/-- On a wired program the session of a channel sends the frames for the channel. -/
theorem syscallsOn_submissions (chn : Fin channels) (order : List (ι × Submission channels))
    {program : Program channels} (h : Wired program) :
    syscallsOn chn (forEach (fun entry ↦ perform toTimestamp entry.2.call) order program).2 =
      (sendFrames toTimestamp ((unitsOn chn order).map AccessUnit.input)
        (program.sessions chn)).2 := by
  induction order generalizing program with
  | nil => rfl
  | cons entry order ih =>
    have hwired : Wired { program with sessions :=
        (callSendFrame toTimestamp entry.2.chn entry.2.unit.input program.sessions).1 } :=
      ⟨h.queue, h.callback⟩
    rw [forEach_cons, andThen_snd, syscallsOn_append, perform_submission entry.2 h, ih hwired,
      syscallsOn_callSendFrame]
    rcases eq_or_ne entry.2.chn chn with rfl | hne
    · simp [unitsOn, callSendFrame, sendFrames, forEach_cons]
    · simp [unitsOn, callSendFrame, hne, hne.symm]

/-- What receivers get when several threads send frames over connections with descriptors `fd`. -/
structure Received [DecidableEq ι] (fd : Fin channels → ℕ)
    (submissions : ι → List (Submission channels)) (merged : List (ι × Submission channels))
    (config : Config ι (Submission channels) (Object channels)) : Prop where
  /-- The frames of each thread are in the order in which the thread sends them. -/
  made : ∀ thread, madeBy merged thread <+: submissions thread
  ended : config.Ended → ∀ thread, madeBy merged thread = submissions thread
  /-- Frames never mix on the wire. -/
  received : ∀ chn, config.owner (.session chn) = none →
    receive (wire (sentOn (fd chn) (config.state (.session chn)).2)) =
      some ((unitsOn chn merged).flatMap fun unit ↦ unit.nals.map NalUnit.bytes)
  /-- No other session, locked or not, has sent anything on the connection. -/
  alone : ∀ chn chn', chn' ≠ chn → sentOn (fd chn) (config.state (.session chn')).2 = []

/-- At every moment a session has sent on its own descriptor only. -/
theorem ownSends_of_reaches [DecidableEq ι] {program : Program channels} {fd : Fin channels → ℕ}
    (hstarted : ∀ chn, (program.sessions chn).tcpSock = some (fd chn))
    {submissions : ι → List (Submission channels)}
    {config : Config ι (Submission channels) (Object channels)}
    (hreach : Reaches (fun submission : Submission channels ↦ submission.call.code toTimestamp)
      (.start (snapshot program []) submissions) config) (chn : Fin channels) :
    ∀ call ∈ (config.state (.session chn)).2, ∃ buffer, call = .send (some (fd chn)) buffer := by
  have hstate (lock : Lock channels) :
      OwnSends (fun chn ↦ some (fd chn)) lock (snapshot program [] lock) := by
    cases lock with
    | source chn => trivial
    | session chn => exact ⟨hstarted chn, fun _ hcall ↦ nomatch hcall⟩
  exact (hreach.keeps (fun submission ↦ keeps_code submission.call) hstate (.session chn)).2

theorem mem_madeBy [DecidableEq ι] {order : List (ι × γ)} {entry : ι × γ} (h : entry ∈ order) :
    entry.2 ∈ madeBy order entry.1 := by
  unfold madeBy
  exact List.mem_map.mpr ⟨entry, by simp [h], rfl⟩

/-- **Threads and receivers.** Whatever the schedule, the receiver of a channel gets the units of
whole frames, those of each thread in order. -/
theorem received_submissions [DecidableEq ι] (program : Program channels) (hwired : Wired program)
    (fd : Fin channels → ℕ) (hstarted : ∀ chn, (program.sessions chn).tcpSock = some (fd chn))
    (hdistinct : Function.Injective fd) (submissions : ι → List (Submission channels))
    (htyped : ∀ thread, ∀ submission ∈ submissions thread, ∀ nal ∈ submission.unit.nals, nal.Typed)
    {config : Config ι (Submission channels) (Object channels)}
    (hreach : Reaches (fun submission : Submission channels ↦ submission.call.code toTimestamp)
      (.start (snapshot program []) submissions) config) :
    ∃ merged, Received fd submissions merged config := by
  obtain ⟨merged, -, hmerged, -⟩ := exists_serialised
    (fun submission : Submission channels ↦ growing_code submission.call) hreach .refl
  have hmade (thread : ι) : madeBy merged thread <+: submissions thread := by
    obtain ⟨present, -, -, hcalls⟩ := hmerged.program thread
    rw [← hcalls, List.append_assoc]
    exact List.prefix_append _ _
  have hunits (chn : Fin channels) :
      ∀ unit ∈ unitsOn chn merged, ∀ nal ∈ unit.nals, nal.Typed := by
    intro unit hunit
    obtain ⟨entry, hentry, hchn⟩ := List.mem_filterMap.mp hunit
    obtain ⟨-, hentry'⟩ := Option.ite_none_right_eq_some.mp hchn
    rw [← Option.some.inj hentry']
    exact htyped entry.1 entry.2 ((hmade entry.1).subset (mem_madeBy hentry))
  have hsent (chn chn' : Fin channels) : sentOn (fd chn) (config.state (.session chn')).2 =
      if chn' = chn then (config.state (.session chn')).2 else [] := by
    rw [sentOn_of_sends (ownSends_of_reaches hstarted hreach chn') (fd chn)]
    exact ite_congr (propext ⟨fun heq ↦ hdistinct (Option.some.inj heq), fun heq ↦ heq ▸ rfl⟩)
      (fun _ ↦ rfl) fun _ ↦ rfl
  refine ⟨merged, hmade, fun hended ↦ (hmerged.of_ended hended).2, fun chn hfree ↦ ?_,
    fun chn chn' hne ↦ ?_⟩
  · rw [hsent, if_pos rfl, hmerged.free _ hfree, serial_snapshot, List.nil_append]
    change receive (wire (syscallsOn chn _)) = _
    rw [syscallsOn_submissions chn merged hwired]
    have hcarries := carries_sendFrames toTimestamp _ (hunits chn) (program.sessions chn)
    rw [hstarted chn] at hcarries
    exact hcarries.receive
  · rw [hsent, if_neg hne]

/-- One thread pushes a frame while another one sends on the session of another channel. -/
theorem received_submissions_two :
    let program : Program 2 :=
      ⟨fun chn ↦ { Session.construct 0 7 with tcpSock := some (3 + chn) }, fun chn ↦ ⟨[], some chn⟩⟩
    let unit : AccessUnit := ⟨[⟨0x65, [0x88], by decide⟩], 0, ⟨0, 0, by decide⟩⟩
    let submissions (thread : Bool) : List (Submission 2) :=
      [⟨if thread then 1 else 0, unit, thread, 0, 0, 0⟩]
    ∃ config, Reaches (fun submission : Submission 2 ↦ submission.call.code exactTimestamp)
        (.start (snapshot program []) submissions) config ∧
      config.owner (.source 0) = some false ∧
      ∃ merged, Received (fun chn ↦ 3 + chn.val) submissions merged config := by
  intro program unit submissions
  have hbegun := ((Reaches.refl.step true (.call rfl rfl)).step false (.call rfl rfl) :
    Reaches (fun submission : Submission 2 ↦ submission.call.code exactTimestamp)
      (.start (snapshot program []) submissions) _)
  have hlocked := (hbegun.step false (.acquire rfl rfl)).step true (.acquire rfl rfl)
  have htyped : ∀ nal ∈ unit.nals, nal.Typed := by
    unfold NalUnit.Typed
    decide
  refine ⟨_, hlocked, rfl, received_submissions program ⟨fun _ ↦ rfl, fun _ ↦ rfl⟩ _
    (fun _ ↦ rfl) (fun chn chn' heq ↦ Fin.ext (Nat.add_left_cancel heq)) submissions ?_ hlocked⟩
  intro thread submission hsubmission
  rw [List.mem_singleton.mp hsubmission]
  exact htyped

end RtpSender.Concurrency
