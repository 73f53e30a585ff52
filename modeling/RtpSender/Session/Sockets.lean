import RtpSender.Foundation.History
import RtpSender.Session.Emission
import RtpSender.Session.Lifecycle
import RtpSender.Session.TimeBase

/-!
# Descriptors

The system calls of a session tell which descriptors it has open.  `stop` closes the descriptor in
`tcpSock_`, and `createSockets` closes the one it has just got when `connect` fails.  But `start`
writes over `tcpSock_` without looking at it, so a descriptor is lost exactly when `start` finds one
there.
-/

open RtpSender.Emitter RtpSender.Wire RtpSender.History

namespace RtpSender.RtpSendingSession

/-! ## Open descriptors -/

/-- The open descriptors after one more call, the latest one first. -/
def Syscall.openAfter (fds : List ℕ) : Syscall → List ℕ
  | .socket (some fd) => fd :: fds
  | .close fd => fds.erase fd
  | _ => fds

/-- The descriptors that some calls leave open. -/
def openSockets (calls : List Syscall) : List ℕ := calls.foldl Syscall.openAfter []

/-- Only open descriptors are closed, so none is closed twice. -/
def ClosesOpen (calls : List Syscall) : Prop :=
  HistoryForall (fun before call ↦ ∀ fd, call = .close fd → fd ∈ openSockets before) calls

def Syscall.isSentOn (fd : ℕ) : Syscall → Bool
  | .send (some via) _ => via == fd
  | _ => false

/-- The `send` calls on a descriptor. -/
def sentOn (fd : ℕ) (calls : List Syscall) : List Syscall := calls.filter (Syscall.isSentOn fd)

theorem openSockets_concat (calls : List Syscall) (call : Syscall) :
    openSockets (calls ++ [call]) = call.openAfter (openSockets calls) := by
  rw [openSockets, List.foldl_append]
  rfl

theorem openSockets_append (calls calls' : List Syscall) :
    openSockets (calls ++ calls') = calls'.foldl Syscall.openAfter (openSockets calls) :=
  List.foldl_append

/-- Every descriptor obtained is closed once or still open. -/
theorem ClosesOpen.count_socket {calls : List Syscall} (h : ClosesOpen calls) (fd : ℕ) :
    calls.count (.socket (some fd)) = calls.count (.close fd) + (openSockets calls).count fd := by
  induction calls using List.reverseRecOn with
  | nil => rfl
  | append_singleton calls call ih =>
    obtain ⟨hcalls, hlast⟩ := historyForall_concat.mp h
    have hcount := ih hcalls
    rw [List.count_append, List.count_append, openSockets_concat, hcount]
    cases call with
    | socket result =>
      cases result with
      | none => simp [Syscall.openAfter]
      | some obtained =>
        simp only [Syscall.openAfter, List.count_cons, List.count_nil, beq_iff_eq,
          Syscall.socket.injEq, Option.some.injEq, reduceCtorEq, if_false]
        omega
    | connect => simp [Syscall.openAfter]
    | send => simp [Syscall.openAfter]
    | close closed =>
      have hopen : closed ∈ openSockets calls := hlast closed rfl
      have hpos : 0 < (openSockets calls).count closed := List.count_pos_iff.mpr hopen
      simp only [Syscall.openAfter, List.count_cons, List.count_nil, List.count_erase, beq_iff_eq,
        Syscall.close.injEq, reduceCtorEq, if_false]
      by_cases hsame : closed = fd
      · subst hsame
        rw [if_pos rfl]
        omega
      · rw [if_neg hsame]
        omega

theorem sentOn_append (fd : ℕ) (calls calls' : List Syscall) :
    sentOn fd (calls ++ calls') = sentOn fd calls ++ sentOn fd calls' := List.filter_append ..

theorem sentOn_of_quiet {calls : List Syscall} (h : ∀ fd buffer, .send fd buffer ∉ calls) (fd : ℕ) :
    sentOn fd calls = [] := by
  refine List.filter_eq_nil_iff.mpr fun call hcall ↦ ?_
  match call with
  | .send via buffer => exact absurd hcall (h via buffer)
  | .socket _ | .connect .. | .close _ => exact Bool.false_ne_true

/-- All calls send on one descriptor. -/
theorem sentOn_of_sends {sock : Option ℕ} {calls : List Syscall}
    (h : ∀ call ∈ calls, ∃ buffer, call = .send sock buffer) (fd : ℕ) :
    sentOn fd calls = if sock = some fd then calls else [] := by
  split
  · next hsock =>
    refine List.filter_eq_self.mpr fun call hcall ↦ ?_
    obtain ⟨buffer, rfl⟩ := h call hcall
    simp [Syscall.isSentOn, hsock]
  · next hsock =>
    refine List.filter_eq_nil_iff.mpr fun call hcall ↦ ?_
    obtain ⟨buffer, rfl⟩ := h call hcall
    cases sock with
    | none => simp [Syscall.isSentOn]
    | some via => simpa [Syscall.isSentOn] using hsock

/-! ## One call of the public interface -/

variable (toTimestamp : ℤ → UInt32)

theorem history_concat (operations : List Operation) (operation : Operation) (s : Session) :
    history toTimestamp (operations ++ [operation]) s =
      ((operation.perform toTimestamp (history toTimestamp operations s).1).1,
        (history toTimestamp operations s).2 ++
          (operation.perform toTimestamp (history toTimestamp operations s).1).2) := by
  rw [history, forEach_append, andThen_apply, forEach_singleton]
  rfl

/-- `start` leaves the descriptors that were open before as they are. -/
theorem foldl_openAfter_start (ip : String) (port : ℤ) (streamId : String) (outcome : StartOutcome)
    (s : Session) (fds : List ℕ) :
    (start ip port streamId outcome s).1.2.foldl Syscall.openAfter fds =
      outcome.sock.toList ++ fds := by
  obtain ⟨ssrc, -, socketFd, connected⟩ := outcome
  cases socketFd with
  | none => cases connected <;> rfl
  | some fd =>
    cases connected with
    | false => exact List.erase_cons_head fd _
    | true => rfl

theorem openSockets_start (ip : String) (port : ℤ) (streamId : String) (outcome : StartOutcome)
    (s : Session) (calls : List Syscall) :
    openSockets (calls ++ (start ip port streamId outcome s).1.2) =
      outcome.sock.toList ++ openSockets calls := by
  rw [openSockets_append, foldl_openAfter_start]

/-- `stop` closes the descriptor in `tcpSock_`. -/
theorem openSockets_stop (s : Session) {calls : List Syscall}
    (h : openSockets calls = s.tcpSock.toList) : openSockets (calls ++ (stop s).2) = [] := by
  rw [openSockets_append, h]
  unfold stop
  cases s.tcpSock with
  | none => rfl
  | some fd => exact List.erase_cons_head fd []

/-- The invariant of a session that knows its descriptors. -/
structure Tracked (s : Session) (calls : List Syscall) : Prop where
  open_eq : openSockets calls = s.tcpSock.toList
  closes : ClosesOpen calls

theorem closesOpen_concat {calls : List Syscall} (call : Syscall) (h : ClosesOpen calls)
    (hclose : ∀ fd, call = .close fd → fd ∈ openSockets calls) : ClosesOpen (calls ++ [call]) :=
  historyForall_concat.mpr ⟨h, hclose⟩

theorem closesOpen_start (ip : String) (port : ℤ) (streamId : String) (outcome : StartOutcome)
    (s : Session) {calls : List Syscall} (h : ClosesOpen calls) :
    ClosesOpen (calls ++ (start ip port streamId outcome s).1.2) := by
  obtain ⟨ssrc, -, socketFd, connected⟩ := outcome
  cases socketFd with
  | none => exact closesOpen_concat _ h (by simp)
  | some fd =>
    have hsocket : ClosesOpen (calls ++ [.socket (some fd)]) := closesOpen_concat _ h (by simp)
    cases connected with
    | true =>
      have hconnect := closesOpen_concat (.connect fd ((inetPton (cStr ip)).getD 0)
        (UInt16.ofInt port) true) hsocket (by simp)
      rwa [List.append_assoc] at hconnect
    | false =>
      have hconnect := closesOpen_concat (.connect fd ((inetPton (cStr ip)).getD 0)
        (UInt16.ofInt port) false) hsocket (by simp)
      have hclose := closesOpen_concat (.close fd) hconnect (by
        intro closed hclosed
        rw [← Syscall.close.inj hclosed, openSockets_concat, openSockets_concat]
        exact List.mem_cons_self ..)
      rwa [List.append_assoc, List.append_assoc] at hclose

theorem closesOpen_stop {s : Session} {calls : List Syscall} (h : Tracked s calls) :
    ClosesOpen (calls ++ (stop s).2) := by
  have hopen := h.open_eq
  unfold stop
  cases hsock : s.tcpSock with
  | none =>
    rw [List.append_nil]
    exact h.closes
  | some fd =>
    apply closesOpen_concat _ h.closes
    intro closed hclosed
    rw [hopen, hsock, Syscall.close.inj hclosed]
    exact List.mem_cons_self ..

/-- `send` neither opens nor closes. -/
theorem Tracked.send {s s' : Session} {calls : List Syscall} (h : Tracked s calls)
    (hsock : s'.tcpSock = s.tcpSock) (fd : Option ℕ) (buffer : Bytes) :
    Tracked s' (calls ++ [.send fd buffer]) := by
  constructor
  · rw [openSockets_concat, hsock]
    exact h.open_eq
  · exact closesOpen_concat _ h.closes (by simp)

theorem tracked_sendFrame (input : FrameInput) :
    Preserves Tracked (sendFrame toTimestamp input) := by
  apply preserves_sendFrame
  · intro s calls h
    rw [latchBase_eq]
    exact ⟨h.open_eq, h.closes⟩
  · intro payload marker timestamp _ s calls h
    refine h.send ?_ _ _
    rfl
  · intro timestamp s calls h
    refine h.send ?_ _ _
    rfl

/-- `start` finds no descriptor in `tcpSock_`. -/
def Operation.FindsClosed : Operation → Session → Prop
  | .start .., s => s.tcpSock = none
  | _, _ => True

/-- A call keeps track of the descriptors exactly when it is no `start` of a started session. -/
theorem tracked_perform_iff (operation : Operation) {s : Session} {calls : List Syscall}
    (h : Tracked s calls) :
    Tracked (operation.perform toTimestamp s).1 (calls ++ (operation.perform toTimestamp s).2) ↔
      operation.FindsClosed s := by
  cases operation with
  | start ip port streamId outcome =>
    have hopen := openSockets_start ip port streamId outcome s calls
    have hsock := start_tcpSock ip port streamId outcome s
    rw [h.open_eq] at hopen
    constructor
    · intro htracked
      have hlost := htracked.open_eq
      simp only [Operation.perform, hopen, hsock, List.append_right_eq_self] at hlost
      exact Option.toList_eq_nil_iff.mp hlost
    · intro hnone
      rw [Operation.FindsClosed] at hnone
      rw [hnone, Option.toList_none, List.append_nil, ← hsock] at hopen
      exact ⟨hopen, closesOpen_start ip port streamId outcome s h.closes⟩
  | stop =>
    have hsock : (stop s).1.tcpSock = none := by
      unfold stop
      split
      · rfl
      · assumption
    apply iff_of_true _ trivial
    constructor
    · rw [Operation.perform, hsock]
      exact openSockets_stop s h.open_eq
    · exact closesOpen_stop h
  | sendFrame input => exact iff_of_true (tracked_sendFrame toTimestamp input s calls h) trivial

/-! ## Runs that end with the destructor -/

/-- What a session owes its descriptors in a run from `s` on. -/
structure SocketLifecycle (operations : List Operation) (s : Session) : Prop where
  /-- Between two calls no descriptor is open but the one in `tcpSock_`. -/
  tracked : ∀ before, before <+: operations →
    openSockets (history toTimestamp before s).2 =
      (history toTimestamp before s).1.tcpSock.toList
  /-- `start` returns `true` when it leaves an open connected descriptor, and only then. -/
  result : HistoryForall (fun before operation ↦ ∀ ip port streamId outcome,
    operation = .start ip port streamId outcome →
      ((start ip port streamId outcome (history toTimestamp before s).1).2 = true ↔
        ∃ fd address port', (history toTimestamp (before ++ [operation]) s).1.tcpSock = some fd ∧
          fd ∈ openSockets (history toTimestamp (before ++ [operation]) s).2 ∧
          .connect fd address port' true ∈
            (operation.perform toTimestamp (history toTimestamp before s).1).2)) operations
  closes : ClosesOpen (history toTimestamp (operations ++ [.stop]) s).2
  balanced : ∀ fd, (history toTimestamp (operations ++ [.stop]) s).2.count (.socket (some fd)) =
    (history toTimestamp (operations ++ [.stop]) s).2.count (.close fd)
  stopped : ∀ before, before <+: operations →
    openSockets (history toTimestamp (before ++ [.stop]) s).2 = []

/-- Where `start` succeeds, it has connected. -/
theorem connect_mem_start (ip : String) (port : ℤ) (streamId : String) {outcome : StartOutcome}
    (s : Session) {fd : ℕ} (h : outcome.sock = some fd) :
    .connect fd ((inetPton (cStr ip)).getD 0) (UInt16.ofInt port) true ∈
      (start ip port streamId outcome s).1.2 := by
  rcases outcome with ⟨ssrc, hssrc, socketFd, connected⟩
  cases connected with
  | false => cases h
  | true =>
    obtain rfl : socketFd = some fd := h
    exact List.mem_cons_of_mem _ (List.mem_cons_self ..)

theorem start_result_iff (ip : String) (port : ℤ) (streamId : String) (outcome : StartOutcome)
    (s : Session) (calls : List Syscall) :
    (start ip port streamId outcome s).2 = true ↔
      ∃ fd address port', (start ip port streamId outcome s).1.1.tcpSock = some fd ∧
        fd ∈ openSockets (calls ++ (start ip port streamId outcome s).1.2) ∧
        .connect fd address port' true ∈ (start ip port streamId outcome s).1.2 := by
  rw [start_eq_true_iff, openSockets_start, start_tcpSock]
  constructor
  · rintro ⟨fd, hfd⟩
    refine ⟨fd, _, _, hfd, ?_, connect_mem_start ip port streamId s hfd⟩
    rw [hfd]
    exact List.mem_cons_self ..
  · rintro ⟨fd, _, _, hfd, -, -⟩
    exact ⟨fd, hfd⟩

variable {toTimestamp}

/-- Where no call loses a descriptor, the invariant holds after every call. -/
theorem tracked_history {operations : List Operation} {s : Session} (hinit : Tracked s [])
    (h : HistoryForall (fun before operation ↦
      operation.FindsClosed (history toTimestamp before s).1) operations) :
    Tracked (history toTimestamp operations s).1 (history toTimestamp operations s).2 := by
  induction operations using List.reverseRecOn with
  | nil => exact hinit
  | append_singleton operations operation ih =>
    obtain ⟨hbefore, hlast⟩ := historyForall_concat.mp h
    rw [history_concat]
    exact (tracked_perform_iff toTimestamp operation (ih hbefore)).mpr hlast

/-- A descriptor that was lost once stays open. -/
theorem findsClosed_of_tracked {operations : List Operation} {s : Session} (hinit : Tracked s [])
    (h : ∀ before, before <+: operations → openSockets (history toTimestamp before s).2 =
      (history toTimestamp before s).1.tcpSock.toList) :
    HistoryForall (fun before operation ↦
      operation.FindsClosed (history toTimestamp before s).1) operations := by
  induction operations using List.reverseRecOn with
  | nil => exact historyForall_nil
  | append_singleton operations operation ih =>
    have hbefore := ih fun before hbegins ↦ h before (hbegins.trans (List.prefix_append _ _))
    have htracked := tracked_history hinit hbefore
    have hopen := h (operations ++ [operation]) List.prefix_rfl
    rw [history_concat] at hopen
    refine historyForall_concat.mpr ⟨hbefore, ?_⟩
    cases operation with
    | start ip port streamId outcome =>
      apply (tracked_perform_iff toTimestamp _ htracked).mp
      exact ⟨hopen, closesOpen_start ip port streamId outcome _ htracked.closes⟩
    | stop => trivial
    | sendFrame input => trivial

variable (toTimestamp)

/-- **Descriptors.** A session keeps its side in a run exactly when every `start` finds it without a
descriptor: new, stopped, or after a `start` that failed. -/
theorem socketLifecycle_iff (rtpPort : ℤ) (rtpSsrc : UInt32) (operations : List Operation) :
    SocketLifecycle toTimestamp operations (Session.construct rtpPort rtpSsrc) ↔
      HistoryForall (fun before operation ↦ operation.FindsClosed
        (history toTimestamp before (Session.construct rtpPort rtpSsrc)).1) operations := by
  have hinit : Tracked (Session.construct rtpPort rtpSsrc) [] := ⟨rfl, historyForall_nil⟩
  constructor
  · intro h
    exact findsClosed_of_tracked hinit h.tracked
  · intro h
    have htracked (before : List Operation) (hbegins : before <+: operations) :
        Tracked (history toTimestamp before (Session.construct rtpPort rtpSsrc)).1
          (history toTimestamp before (Session.construct rtpPort rtpSsrc)).2 := by
      obtain ⟨after, rfl⟩ := hbegins
      exact tracked_history hinit h.of_append
    have hstopped (before : List Operation) (hbegins : before <+: operations) :
        openSockets (history toTimestamp (before ++ [.stop])
          (Session.construct rtpPort rtpSsrc)).2 = [] := by
      rw [history_concat]
      exact openSockets_stop _ (htracked before hbegins).open_eq
    have hcloses : ClosesOpen (history toTimestamp (operations ++ [.stop])
        (Session.construct rtpPort rtpSsrc)).2 := by
      rw [history_concat]
      exact closesOpen_stop (htracked operations List.prefix_rfl)
    constructor
    · exact fun before hbegins ↦ (htracked before hbegins).open_eq
    · rintro before operation after - ip port streamId outcome rfl
      rw [history_concat]
      exact start_result_iff ip port streamId outcome _ _
    · exact hcloses
    · intro fd
      rw [hcloses.count_socket fd, hstopped operations List.prefix_rfl, List.count_nil,
        Nat.add_zero]
    · exact hstopped

/-- Two `start` calls in a row: the first descriptor is never closed. -/
theorem not_socketLifecycle_restarted :
    ¬ SocketLifecycle exactTimestamp
      [.start "10.0.0.1" 9000 "cam" ⟨7, by decide, some 3, true⟩,
        .start "10.0.0.1" 9000 "cam" ⟨8, by decide, some 4, true⟩] (Session.construct 0 0) := by
  intro h
  have hopen := h.tracked _ List.prefix_rfl
  revert hopen
  decide +kernel

end RtpSender.RtpSendingSession
