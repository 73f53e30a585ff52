import RtpSender.Receiver.Lossless
import RtpSender.Session.Sockets

/-!
# Connections over the life of a session

A session may be started and stopped any number of times, start anew while it is connected, fail to
start, and be handed frames while it has no connection.  A connection is known by its descriptor,
from `connect` until the descriptor is closed, and the kernel hands out only descriptors that are
not open.  What a receiver of one connection sees is independent of the others: it gets the units of
the frames that were sent while the connection was the one of the session, although a connection
that a second `start` has left behind stays open.  The reference is a sender that knows nothing of
packets, only whether it is connected.
-/

open RtpSender.Emitter RtpSender.Wire RtpSender.RecordStream RtpSender.RtpSendingSession

namespace RtpSender.Receiver

/-! ## Connections and links -/

/-- Calls of the public interface with frames made of units. -/
inductive Order where
  | start (ip : String) (port : ℤ) (streamId : String) (outcome : StartOutcome)
  | stop
  | send (unit : AccessUnit)

def Order.operation : Order → Operation
  | .start ip port streamId outcome => .start ip port streamId outcome
  | .stop => .stop
  | .send unit => .sendFrame unit.input

def Order.units : Order → List NalUnit
  | .send unit => unit.nals
  | _ => []

/-- What an open descriptor carries until it is closed. -/
def line (fd : ℕ) (calls : List Syscall) : List Syscall :=
  sentOn fd (calls.takeWhile fun call ↦ !decide (call = .close fd))

/-- What each connection carries that is made. -/
def connections : List Syscall → List (List Syscall)
  | [] => []
  | .connect fd _ _ true :: calls => line fd calls :: connections calls
  | _ :: calls => connections calls

/-- What the connection carries that a session has, and each one that is made later. -/
def lines (sock : Option ℕ) (calls : List Syscall) : List (List Syscall) :=
  sock.elim [] (line · calls) :: connections calls

/-- The kernel hands out no descriptor that is open. -/
def FreshDescriptors : List ℕ → List Syscall → Prop
  | _, [] => True
  | opened, call :: calls =>
    (∀ fd ∈ opened, call ≠ .socket (some fd)) ∧ FreshDescriptors (call.openAfter opened) calls

instance decidableFreshDescriptors :
    (opened : List ℕ) → (calls : List Syscall) → Decidable (FreshDescriptors opened calls)
  | _, [] => .isTrue trivial
  | opened, call :: calls =>
    have := decidableFreshDescriptors (call.openAfter opened) calls
    inferInstanceAs (Decidable (_ ∧ _))

/-- The reference: the units sent on the present connection if there is one, and those sent on each
later connection. -/
def links : Bool → List Order → List Bytes × List (List Bytes)
  | _, [] => ([], [])
  | _, .start _ _ _ outcome :: orders =>
    let (present, later) := links outcome.sock.isSome orders
    if outcome.sock.isSome then ([], present :: later) else (present, later)
  | _, .stop :: orders => links false orders
  | connected, .send unit :: orders =>
    let (present, later) := links connected orders
    ((if connected then unit.nals.map NalUnit.bytes else []) ++ present, later)

theorem connections_append {calls : List Syscall}
    (h : ∀ fd address port, .connect fd address port true ∉ calls) (calls' : List Syscall) :
    connections (calls ++ calls') = connections calls' := by
  induction calls with
  | nil => rfl
  | cons call calls ih =>
    have hrest := ih fun fd address port hmem ↦ h fd address port (List.mem_cons_of_mem _ hmem)
    match call with
    | .connect fd address port true => exact absurd (List.mem_cons_self ..) (h fd address port)
    | .connect fd address port false | .socket fd | .close fd | .send fd buffer =>
      rw [List.cons_append, connections, hrest]
      simp

theorem line_append {fd : ℕ} {calls : List Syscall} (h : .close fd ∉ calls)
    (calls' : List Syscall) : line fd (calls ++ calls') = sentOn fd calls ++ line fd calls' := by
  have hopen : ∀ call ∈ calls, (!decide (call = .close fd)) = true := by
    intro call hmem
    rw [Bool.not_eq_true', decide_eq_false_iff_not]
    rintro rfl
    exact h hmem
  rw [line, List.takeWhile_append_of_pos hopen, sentOn_append]
  rfl

theorem line_close (fd : ℕ) (calls : List Syscall) : line fd (.close fd :: calls) = [] := by
  simp [line, sentOn]

theorem freshDescriptors_append {opened : List ℕ} {calls calls' : List Syscall} :
    FreshDescriptors opened (calls ++ calls') ↔
      FreshDescriptors opened calls ∧
        FreshDescriptors (calls.foldl Syscall.openAfter opened) calls' := by
  induction calls generalizing opened with
  | nil => simp [FreshDescriptors]
  | cons call calls ih => simp [FreshDescriptors, ih, and_assoc]

/-! ## What a connection carries -/

/-- The packets sent on a connection. -/
def linePackets (calls : List Syscall) : List Packet :=
  calls.filterMap fun
    | .send (some fd) buffer => (Syscall.send (some fd) buffer).packet?
    | _ => none

/-- Whatever a receiver has pending, it reads the units from these calls. -/
structure Carries (calls : List Syscall) (nals : List Bytes) : Prop where
  wire_eq : wire calls = (linePackets calls).flatMap Packet.buffer
  wellFormed : ∀ packet ∈ linePackets calls, packet.WellFormed
  read : ∀ pending, (forEach depacketize ((linePackets calls).filterMap rtpParts) pending).2 = nals

theorem linePackets_append (calls calls' : List Syscall) :
    linePackets (calls ++ calls') = linePackets calls ++ linePackets calls' :=
  List.filterMap_append

theorem Carries.append {calls calls' : List Syscall} {nals nals' : List Bytes}
    (h : Carries calls nals) (h' : Carries calls' nals') :
    Carries (calls ++ calls') (nals ++ nals') where
  wire_eq := by
    rw [wire_append, h.wire_eq, h'.wire_eq, linePackets_append, List.flatMap_append]
  wellFormed packet hmem := by
    rw [linePackets_append] at hmem
    exact (List.mem_append.mp hmem).elim (h.wellFormed packet) (h'.wellFormed packet)
  read pending := by
    rw [linePackets_append, List.filterMap_append, forEach_append, andThen_snd, h.read, h'.read]

/-- Nothing is carried without a connection. -/
theorem carries_nil {calls : List Syscall}
    (h : ∀ fd buffer, .send (some fd) buffer ∉ calls) : Carries calls [] := by
  have hnone : linePackets calls = [] := by
    rw [linePackets, List.filterMap_eq_nil_iff]
    rintro (_ | _ | _ | ⟨_ | fd, buffer⟩) hcall
    case send.some => exact absurd hcall (h fd buffer)
    all_goals rfl
  have hwire : wire calls = [] := by
    rw [wire, List.flatMap_eq_nil_iff]
    rintro (_ | _ | _ | ⟨_ | fd, buffer⟩) hcall
    case send.some => exact absurd hcall (h fd buffer)
    all_goals rfl
  refine ⟨?_, ?_, fun pending ↦ ?_⟩
  · rw [hwire, hnone]
    rfl
  · rw [hnone]
    exact fun packet hmem ↦ absurd hmem List.not_mem_nil
  · rw [hnone]
    rfl

theorem Carries.receive {calls : List Syscall} {nals : List Bytes} (h : Carries calls nals) :
    receive (wire calls) = some nals := by
  have hread := mapM_read_pmap_frame (linePackets calls) h.wellFormed
  rw [h.wire_eq, ← Packet.encodeAll_pmap_frame _ h.wellFormed]
  simp only [Receiver.receive, deframe, decodeAll_encodeAll, Option.bind_eq_bind,
    Option.bind_some, hread, h.read]

/-- The descriptor of the session stays, and every call sends a packet on it. -/
structure SendsVia (sock : Option ℕ) (s : Session) (calls : List Syscall) : Prop where
  sock_eq : s.tcpSock = sock
  sends : ∀ call ∈ calls, ∃ packet : Packet, packet.WellFormed ∧ call = .send sock packet.buffer

theorem SendsVia.emit {sock : Option ℕ} {s s' : Session} {calls : List Syscall}
    (h : SendsVia sock s calls) (hsock : s'.tcpSock = s.tcpSock) {packet : Packet}
    (hpacket : packet.WellFormed) :
    SendsVia sock s' (calls ++ [.send s.tcpSock packet.buffer]) := by
  refine ⟨hsock.trans h.sock_eq, fun call hcall ↦ ?_⟩
  rcases List.mem_append.mp hcall with hold | hnew
  · exact h.sends call hold
  · rw [List.mem_singleton.mp hnew, h.sock_eq]
    exact ⟨packet, hpacket, rfl⟩

section SendsVia

variable {sock : Option ℕ} {s : Session} {calls : List Syscall}

theorem SendsVia.sentOn_eq (h : SendsVia sock s calls) (fd : ℕ) :
    sentOn fd calls = if sock = some fd then calls else [] := by
  refine sentOn_of_sends (fun call hcall ↦ ?_) fd
  obtain ⟨packet, -, rfl⟩ := h.sends call hcall
  exact ⟨packet.buffer, rfl⟩

theorem SendsVia.notMem (h : SendsVia sock s calls) {call : Syscall}
    (hcall : ∀ buffer, call ≠ .send sock buffer) : call ∉ calls := by
  intro hmem
  obtain ⟨packet, -, heq⟩ := h.sends call hmem
  exact hcall packet.buffer heq

theorem SendsVia.foldl_openAfter (h : SendsVia sock s calls) (opened : List ℕ) :
    calls.foldl Syscall.openAfter opened = opened := by
  have hsends := h.sends
  clear h
  induction calls with
  | nil => rfl
  | cons call calls ih =>
    obtain ⟨packet, -, rfl⟩ := hsends _ (List.mem_cons_self ..)
    exact ih fun call hcall ↦ hsends call (List.mem_cons_of_mem _ hcall)

end SendsVia

section Frames

variable (toTimestamp : ℤ → UInt32)

theorem sendsVia_sendFrame (input : FrameInput) (s : Session) :
    SendsVia s.tcpSock (sendFrame toTimestamp input s).1 (sendFrame toTimestamp input s).2 := by
  have hkeep : Preserves (SendsVia s.tcpSock) (sendFrame toTimestamp input) := by
    apply preserves_sendFrame
    · intro state calls h
      rw [latchBase_eq]
      exact ⟨h.sock_eq, h.sends⟩
    · intro payload marker timestamp hpayload state calls h
      refine h.emit ?_ (rtpPacket_wellFormed state marker timestamp hpayload)
      rfl
    · intro timestamp state calls h
      refine h.emit ?_ (senderReport_wellFormed state timestamp input.now)
      rfl
  exact hkeep s [] ⟨rfl, fun call hcall ↦ absurd hcall List.not_mem_nil⟩

theorem linePackets_of_sendsOn {fd : ℕ} {calls : List Syscall} (h : SendsOn fd calls) :
    linePackets calls = sentPackets calls := by
  apply List.filterMap_congr
  intro call hcall
  obtain ⟨packet, -, rfl⟩ := h call hcall
  rfl

/-- A frame goes to the present connection or is lost. -/
theorem carries_sendFrame (unit : AccessUnit) (htyped : ∀ nal ∈ unit.nals, nal.Typed)
    (s : Session) :
    Carries (sendFrame toTimestamp unit.input s).2
      (if s.tcpSock.isSome then unit.nals.map NalUnit.bytes else []) := by
  have hvia := sendsVia_sendFrame toTimestamp unit.input s
  cases hsock : s.tcpSock with
  | none =>
    refine carries_nil fun fd buffer hmem ↦ ?_
    obtain ⟨packet, -, hcall⟩ := hvia.sends _ hmem
    rw [hsock] at hcall
    cases hcall
  | some fd =>
    have hsends : SendsOn fd (sendFrame toTimestamp unit.input s).2 := by
      intro call hcall
      obtain ⟨packet, hpacket, rfl⟩ := hvia.sends call hcall
      exact ⟨packet, hpacket, by rw [hsock]⟩
    have hline := linePackets_of_sendsOn hsends
    refine ⟨?_, ?_, fun pending ↦ ?_⟩
    · rw [hline]
      exact hsends.wire_eq_flatMap_buffer
    · rw [hline]
      exact hsends.wellFormed
    · rw [hline]
      exact delivers_sendFrame toTimestamp unit htyped s pending

theorem carries_sendFrames (units : List AccessUnit)
    (htyped : ∀ unit ∈ units, ∀ nal ∈ unit.nals, nal.Typed) (s : Session) :
    Carries (sendFrames toTimestamp (units.map AccessUnit.input) s).2
      (if s.tcpSock.isSome then units.flatMap fun unit ↦ unit.nals.map NalUnit.bytes else []) := by
  induction units generalizing s with
  | nil =>
    rw [List.flatMap_nil, ite_self]
    exact carries_nil fun _ _ hmem ↦ nomatch hmem
  | cons unit units ih =>
    have hhead := carries_sendFrame toTimestamp unit (htyped unit (List.mem_cons_self ..)) s
    have htail := ih (fun unit hunit ↦ htyped unit (List.mem_cons_of_mem _ hunit))
      (sendFrame toTimestamp unit.input s).1
    rw [(sendsVia_sendFrame toTimestamp unit.input s).sock_eq] at htail
    have hboth := hhead.append htail
    rw [List.map_cons, sendFrames, forEach_cons, andThen_snd, List.flatMap_cons]
    cases hsock : s.tcpSock with
    | none =>
      rw [hsock] at hboth
      exact hboth
    | some fd =>
      rw [hsock] at hboth
      exact hboth

/-! ## Histories -/

/-- What the calls carry of a session with descriptor `sock`, where the descriptors `opened` are
open. -/
structure CarriesAll (sock : Option ℕ) (opened : List ℕ) (calls : List Syscall)
    (nals : List Bytes × List (List Bytes)) : Prop where
  carries : List.Forall₂ Carries (lines sock calls) (nals.1 :: nals.2)
  /-- A descriptor that the session has lost carries nothing any more. -/
  lost : ∀ fd ∈ opened, sock ≠ some fd → line fd calls = []
  octets : ((lines sock calls).map fun line ↦ (wire line).length).sum = (wire calls).length

theorem carries_nil_nil : Carries [] [] := carries_nil fun _ _ hmem ↦ nomatch hmem

/-- A session without a descriptor is where it is after calls that touch no open descriptor. -/
theorem CarriesAll.of_idle {sock : Option ℕ} {opened : List ℕ} {calls calls' : List Syscall}
    {nals : List Bytes × List (List Bytes)} (h : CarriesAll none opened calls' nals)
    (hsock : ∀ fd, sock = some fd → fd ∈ opened)
    (hclose : ∀ fd ∈ opened, .close fd ∉ calls) (hsend : ∀ fd buffer, .send fd buffer ∉ calls)
    (hconnect : ∀ fd address port, .connect fd address port true ∉ calls) :
    CarriesAll sock opened (calls ++ calls') nals := by
  have hline (fd : ℕ) (hfd : fd ∈ opened) : line fd (calls ++ calls') = [] := by
    rw [line_append (hclose fd hfd), sentOn_of_quiet hsend, List.nil_append]
    exact h.lost fd hfd (Option.some_ne_none fd).symm
  have hlines : lines sock (calls ++ calls') = lines none calls' := by
    unfold lines
    rw [connections_append hconnect]
    cases sock with
    | none => rfl
    | some fd => exact congrArg (· :: _) (hline fd (hsock fd rfl))
  have hwire : wire calls = [] := by
    rw [wire, List.flatMap_eq_nil_iff]
    intro call hcall
    cases call with
    | send via buffer => exact absurd hcall (hsend via buffer)
    | socket fd => rfl
    | connect fd address port connected => rfl
    | close fd => rfl
  refine ⟨hlines ▸ h.carries, fun fd hfd _ ↦ hline fd hfd, ?_⟩
  rw [hlines, wire_append, hwire, List.nil_append, h.octets]

theorem CarriesAll.of_connected {sock : Option ℕ} {opened : List ℕ} {fd : ℕ} {address : UInt32}
    {port : UInt16} {calls : List Syscall} {nals : List Bytes × List (List Bytes)}
    (h : CarriesAll (some fd) (fd :: opened) calls nals) (hfresh : fd ∉ opened)
    (hsock : ∀ fd, sock = some fd → fd ∈ opened) :
    CarriesAll sock opened ([.socket (some fd), .connect fd address port true] ++ calls)
      ([], nals.1 :: nals.2) := by
  have hline (via : ℕ) (hvia : via ∈ opened) :
      line via ([.socket (some fd), .connect fd address port true] ++ calls) = [] := by
    have hne : some fd ≠ some via := by
      rintro ⟨⟩
      exact hfresh hvia
    rw [line_append (by simp)]
    exact h.lost via (List.mem_cons_of_mem _ hvia) hne
  have hlines : lines sock ([.socket (some fd), .connect fd address port true] ++ calls) =
      [] :: lines (some fd) calls := by
    cases sock with
    | none => rfl
    | some via => exact congrArg (· :: _) (hline via (hsock via rfl))
  refine ⟨hlines ▸ .cons carries_nil_nil h.carries, fun via hvia _ ↦ hline via hvia, ?_⟩
  rw [hlines, List.map_cons, List.sum_cons, h.octets]
  exact Nat.zero_add _

theorem CarriesAll.of_stopped {fd : ℕ} {opened : List ℕ} {calls : List Syscall}
    {nals : List Bytes × List (List Bytes)} (h : CarriesAll none (opened.erase fd) calls nals) :
    CarriesAll (some fd) opened (.close fd :: calls) nals := by
  have hlines : lines (some fd) (.close fd :: calls) = lines none calls :=
    congrArg (· :: _) (line_close fd calls)
  refine ⟨hlines ▸ h.carries, fun via hvia hne ↦ ?_, ?_⟩
  · have hother : via ≠ fd := fun heq ↦ hne (congrArg some heq.symm)
    have hkept := h.lost via ((List.mem_erase_of_ne hother).mpr hvia) (Option.some_ne_none _).symm
    rw [← List.singleton_append, line_append (by simpa using hother), hkept]
    rfl
  · rw [hlines, h.octets]
    rfl

theorem CarriesAll.of_sent {sock : Option ℕ} {opened : List ℕ} {s : Session}
    {calls calls' : List Syscall} {nals : List Bytes} {nals' : List Bytes × List (List Bytes)}
    (h : CarriesAll sock opened calls' nals') (hvia : SendsVia sock s calls)
    (hcarries : Carries calls nals) (hnone : sock = none → nals = []) :
    CarriesAll sock opened (calls ++ calls') (nals ++ nals'.1, nals'.2) := by
  have hline (fd : ℕ) : line fd (calls ++ calls') =
      (if sock = some fd then calls else []) ++ line fd calls' := by
    rw [line_append (hvia.notMem fun _ heq ↦ nomatch heq), hvia.sentOn_eq]
  have hconnections : connections (calls ++ calls') = connections calls' :=
    connections_append (fun _ _ _ ↦ hvia.notMem fun _ heq ↦ nomatch heq) calls'
  constructor
  · obtain ⟨hfirst, hlater⟩ := List.forall₂_cons.mp h.carries
    rw [lines, hconnections]
    refine .cons ?_ hlater
    cases sock with
    | none =>
      rw [hnone rfl]
      exact hfirst
    | some fd =>
      rw [Option.elim_some, hline, if_pos rfl]
      exact hcarries.append hfirst
  · intro fd hfd hne
    rw [hline, if_neg hne, List.nil_append]
    exact h.lost fd hfd hne
  · rw [wire_append, List.length_append, ← h.octets, lines, lines, hconnections]
    cases sock with
    | none =>
      have hwire : wire calls = [] := by
        rw [wire, List.flatMap_eq_nil_iff]
        intro call hcall
        obtain ⟨packet, -, rfl⟩ := hvia.sends call hcall
        rfl
      rw [hwire]
      exact (Nat.zero_add _).symm
    | some fd =>
      rw [Option.elim_some, Option.elim_some, hline, if_pos rfl, List.map_cons, List.map_cons,
        List.sum_cons, List.sum_cons, wire_append, List.length_append, Nat.add_assoc]

theorem carriesAll_start (ip : String) (port : ℤ) (streamId : String) (outcome : StartOutcome)
    (s : Session) {opened : List ℕ} {calls : List Syscall} {nals : List Bytes × List (List Bytes)}
    (hsock : ∀ fd, s.tcpSock = some fd → fd ∈ opened)
    (hfresh : FreshDescriptors opened (start ip port streamId outcome s).1.2)
    (h : CarriesAll outcome.sock (outcome.sock.toList ++ opened) calls nals) :
    CarriesAll s.tcpSock opened ((start ip port streamId outcome s).1.2 ++ calls)
      (if outcome.sock.isSome then ([], nals.1 :: nals.2) else nals) := by
  obtain ⟨ssrc, hssrc, socketFd, connected⟩ := outcome
  match socketFd, connected with
  | some fd, true => exact CarriesAll.of_connected h (fun hmem ↦ hfresh.1 fd hmem rfl) hsock
  | some fd, false =>
    have hnew : fd ∉ opened := fun hmem ↦ hfresh.1 fd hmem rfl
    refine CarriesAll.of_idle h hsock (fun via hvia ↦ ?_) ?_ ?_
    · have hne : via ≠ fd := fun heq ↦ hnew (heq ▸ hvia)
      simpa [start, createSockets] using hne
    · simp [start, createSockets]
    · simp [start, createSockets]
  | none, connected =>
    have hnone : (StartOutcome.mk ssrc hssrc none connected).sock = none := by
      cases connected <;> rfl
    rw [hnone] at h ⊢
    refine CarriesAll.of_idle h hsock (fun via _ ↦ ?_) ?_ ?_
    · simp [start, createSockets]
    · simp [start, createSockets]
    · simp [start, createSockets]

theorem carriesAll_stop (s : Session) {opened : List ℕ} {calls : List Syscall}
    {nals : List Bytes × List (List Bytes)}
    (h : CarriesAll none ((stop s).2.foldl Syscall.openAfter opened) calls nals) :
    CarriesAll s.tcpSock opened ((stop s).2 ++ calls) nals := by
  unfold stop at h ⊢
  cases hsock : s.tcpSock with
  | none =>
    rw [hsock] at h
    exact h
  | some fd =>
    rw [hsock] at h
    exact CarriesAll.of_stopped h

theorem carriesAll_history (orders : List Order)
    (htyped : ∀ order ∈ orders, ∀ nal ∈ order.units, nal.Typed) (s : Session) {opened : List ℕ}
    (hsock : ∀ fd, s.tcpSock = some fd → fd ∈ opened)
    (hfresh : FreshDescriptors opened
      (history toTimestamp (orders.map Order.operation) s).2) :
    CarriesAll s.tcpSock opened (history toTimestamp (orders.map Order.operation) s).2
      (links s.tcpSock.isSome orders) := by
  induction orders generalizing s opened with
  | nil =>
    have hnothing : lines s.tcpSock [] = [[]] := by
      cases h : s.tcpSock with
      | none => rfl
      | some fd => rfl
    refine ⟨?_, fun _ _ _ ↦ rfl, ?_⟩
    · rw [List.map_nil, history, forEach_nil, skip_apply, hnothing]
      exact .cons carries_nil_nil .nil
    · rw [List.map_nil, history, forEach_nil, skip_apply, hnothing]
      rfl
  | cons order orders ih =>
    have htail := fun order hmem ↦ htyped order (List.mem_cons_of_mem _ hmem)
    obtain ⟨hnow, hlater⟩ := freshDescriptors_append.mp hfresh
    cases order with
    | start ip port streamId outcome =>
      have hopened : (start ip port streamId outcome s).1.2.foldl Syscall.openAfter opened = _ :=
        foldl_openAfter_start ..
      have hnext := @ih htail (start ip port streamId outcome s).1.1 (outcome.sock.toList ++ opened)
      rw [start_tcpSock] at hnext
      refine carriesAll_start ip port streamId outcome s hsock hnow (hnext (fun fd hfd ↦ ?_) ?_)
      · rw [hfd]
        exact List.mem_cons_self ..
      · rw [← hopened]
        exact hlater
    | stop =>
      have hnext := @ih htail (stop s).1 ((stop s).2.foldl Syscall.openAfter opened)
      rw [stop_tcpSock] at hnext
      exact carriesAll_stop s (hnext (fun fd hfd ↦ absurd hfd (Option.some_ne_none fd).symm) hlater)
    | send unit =>
      have hvia := sendsVia_sendFrame toTimestamp unit.input s
      have hnext := @ih htail (sendFrame toTimestamp unit.input s).1 opened
      rw [hvia.sock_eq] at hnext
      change FreshDescriptors ((sendFrame toTimestamp unit.input s).2.foldl _ _) _ at hlater
      rw [hvia.foldl_openAfter] at hlater
      have hunit := carries_sendFrame toTimestamp unit (htyped (.send unit) (List.mem_cons_self ..)) s
      refine CarriesAll.of_sent (hnext hsock hlater) hvia hunit fun hnone ↦ ?_
      rw [hnone]
      rfl

/-- **Connections.** Over any history of a session, the receiver of each connection gets the units
sent while the connection was the one of the session.  Every octet that leaves belongs to one of the
connections. -/
theorem receive_connections (orders : List Order)
    (htyped : ∀ order ∈ orders, ∀ nal ∈ order.units, nal.Typed) (s : Session)
    (hfresh : FreshDescriptors s.tcpSock.toList
      (history toTimestamp (orders.map Order.operation) s).2) :
    let calls := (history toTimestamp (orders.map Order.operation) s).2
    let nals := links s.tcpSock.isSome orders
    (lines s.tcpSock calls).map (fun line ↦ receive (wire line)) = some nals.1 :: nals.2.map some ∧
      ((lines s.tcpSock calls).map fun line ↦ (wire line).length).sum = (wire calls).length := by
  intro calls nals
  have hall := carriesAll_history toTimestamp orders htyped s
    (fun fd hfd ↦ Option.mem_toList.mpr hfd) hfresh
  refine ⟨?_, hall.octets⟩
  rw [← List.map_cons, ← List.forall₂_eq_eq_eq, List.forall₂_map_left_iff,
    List.forall₂_map_right_iff]
  exact hall.carries.imp fun _ _ h ↦ h.receive

/-- A frame before the first connection is lost; a second connection starts afresh while the first
one is still open. -/
theorem receive_connections_restarted :
    let unit : AccessUnit := ⟨[⟨0x65, [0x88], by decide⟩], 0, ⟨0, 0, by decide⟩⟩
    let orders : List Order := [.send unit,
      .start "10.0.0.1" 9000 "cam00" ⟨7, by decide, some 3, true⟩, .send unit,
      .start "10.0.0.1" 9000 "cam00" ⟨8, by decide, some 4, true⟩, .send unit, .stop, .send unit]
    let calls := (history exactTimestamp (orders.map Order.operation) (Session.construct 0 0)).2
    (lines none calls).map (fun line ↦ receive (wire line)) =
        [some [], some [[0x65, 0x88]], some [[0x65, 0x88]]] ∧
      ((lines none calls).map fun line ↦ (wire line).length).sum = (wire calls).length := by
  intro unit orders
  refine receive_connections exactTimestamp orders ?_ (Session.construct 0 0) (by decide +kernel)
  unfold NalUnit.Typed
  decide

end Frames

end RtpSender.Receiver
