import RtpSender.Receiver.Lossless
import RtpSender.Session.OutOfMemory

/-!
# What arrives when memory runs out

A call that throws has sent the first of its packets.  The units all of whose packets are among them
arrive.  The unit in which the call stopped does not, and its fragments get into no other unit: only
the last fragment of a unit completes it, and the next unit starts with a packet of its own,
whatever is pending.  So the loss stays inside the calls that throw.
-/

open RtpSender.Emitter RtpSender.Throwing RtpSender.Wire RtpSender.Chunks
open RtpSender.RtpSendingSession

namespace RtpSender.Receiver

/-- An access unit with the outcomes of the allocations of its call. -/
structure UnitTrial where
  unit : AccessUnit
  failures : List Bool

def UnitTrial.trial (trial : UnitTrial) : Trial := ⟨trial.unit.input, trial.failures⟩

/-- The units all of whose packets are among the first `count` packets. -/
def completed : List Bytes → ℕ → List Bytes
  | [], _ => []
  | nal :: nals, count =>
    if (nalPackets nal).length ≤ count then
      nal :: completed nals (count - (nalPackets nal).length)
    else []

/-- From the packets of a call the receiver gets the units that are complete in them, which are all
of its units if the call returned. -/
structure Kept (unit : AccessUnit) (calls : List Syscall) (returned : Bool) (nals : List Bytes) :
    Prop where
  complete : nals = completed (unit.nals.map NalUnit.bytes) (rtpPackets calls).length
  whole : returned = true → nals = unit.nals.map NalUnit.bytes

/-- The units that arrive come from one call after the other. -/
def KeptAll : List UnitTrial → List (List Syscall × Bool) → List Bytes → Prop
  | [], [], nals => nals = []
  | trial :: trials, (calls, returned) :: runs, nals =>
    ∃ kept rest, nals = kept ++ rest ∧ Kept trial.unit calls returned kept ∧ KeptAll trials runs rest
  | _, _, _ => False

/-! ## Complete units -/

theorem length_nalPackets_pos (nal : Bytes) : 0 < (nalPackets nal).length := by
  by_cases hsmall : nal.length ≤ rtpMtu
  · rw [nalPackets_of_small hsmall]
    exact Nat.one_pos
  · rw [nalPackets_of_large (Nat.lt_of_not_le hsmall)]
    exact Nat.succ_pos _

theorem completed_zero (nals : List Bytes) : completed nals 0 = [] := by
  cases nals with
  | nil => rfl
  | cons nal nals => rw [completed, if_neg (Nat.not_le.mpr (length_nalPackets_pos nal))]

/-- The packets of the first units tell nothing about the others. -/
theorem completed_append_of_le {nals : List Bytes} {count : ℕ}
    (h : count ≤ (nals.flatMap nalPackets).length) (nals' : List Bytes) :
    completed (nals ++ nals') count = completed nals count := by
  induction nals generalizing count with
  | nil =>
    obtain rfl : count = 0 := Nat.le_zero.mp h
    exact completed_zero nals'
  | cons nal nals ih =>
    rw [List.flatMap_cons, List.length_append] at h
    rw [List.cons_append, completed, completed, ih (by omega)]

theorem completed_append (nals nals' : List Bytes) (count : ℕ) :
    completed (nals ++ nals') ((nals.flatMap nalPackets).length + count) =
      nals ++ completed nals' count := by
  induction nals with
  | nil => rw [List.flatMap_nil, List.length_nil, Nat.zero_add, List.nil_append, List.nil_append]
  | cons nal nals ih =>
    rw [List.flatMap_cons, List.length_append, List.cons_append, completed, if_pos (by omega),
      Nat.add_assoc, Nat.add_sub_cancel_left, ih, List.cons_append]

theorem completed_all (nals : List Bytes) :
    completed nals (nals.flatMap nalPackets).length = nals := by
  have hall := completed_append nals [] 0
  rwa [List.append_nil, Nat.add_zero, completed, List.append_nil] at hall

/-! ## A unit of which some packets are missing -/

/-- A fragment that does not complete its unit. -/
def Unfinished (packet : Bytes × Bool) : Prop :=
  packet.1.length ≤ rtpMtu ∧ ∃ nalHeader fuHeader body,
    packet.1 = fuPayload nalHeader fuHeader body ∧ (fuHeader &&& 0x40 != 0) = false

theorem laterFragments_ne_nil {nalHeader : UInt8} {bodies : List Bytes} (h : bodies ≠ []) :
    laterFragments nalHeader bodies ≠ [] := by
  fun_cases laterFragments nalHeader bodies with
  | case1 => exact absurd rfl h
  | case2 body => exact List.cons_ne_nil _ _
  | case3 body next rest => exact List.cons_ne_nil _ _

theorem unfinished_of_mem_laterFragments {nalHeader : UInt8} {bodies : List Bytes}
    (hbodies : ∀ body ∈ bodies, body.length ≤ rtpMtu - 2) {packet : Bytes × Bool}
    (h : packet ∈ (laterFragments nalHeader bodies).dropLast) : Unfinished packet := by
  fun_induction laterFragments nalHeader bodies with
  | case1 => cases h
  | case2 body => cases h
  | case3 body next rest ih =>
    have hlater := @laterFragments_ne_nil nalHeader (next :: rest) (List.cons_ne_nil _ _)
    rw [List.dropLast_cons_of_ne_nil hlater] at h
    rcases List.mem_cons.mp h with rfl | htail
    · have hbody := hbodies body (List.mem_cons_self ..)
      refine ⟨?_, _, _, _, rfl, fuHeaderMid_marker nalHeader⟩
      simp only [length_fuPayload, rtpMtu] at hbody ⊢
      omega
    · exact ih (fun b hb ↦ hbodies b (List.mem_cons_of_mem _ hb)) htail

/-- Only the last packet of a unit completes it. -/
theorem unfinished_of_mem_dropLast {nal : Bytes} {packet : Bytes × Bool}
    (h : packet ∈ (nalPackets nal).dropLast) : Unfinished packet := by
  have hfits := length_le_of_mem_nalPackets (List.mem_of_mem_dropLast h)
  by_cases hsmall : nal.length ≤ rtpMtu
  · rw [nalPackets_of_small hsmall] at h
    cases h
  · have hlarge := Nat.lt_of_not_le hsmall
    have hlater := @laterFragments_ne_nil (nal.headD 0) _ (laterChunks_ne_nil hlarge)
    rw [nalPackets_of_large hlarge, List.dropLast_cons_of_ne_nil hlater] at h
    rcases List.mem_cons.mp h with rfl | htail
    · exact ⟨hfits, _, _, _, rfl, fuHeaderStart_marker _⟩
    · exact unfinished_of_mem_laterFragments (fun _ hbody ↦ length_le_of_mem_chunks hbody) htail

theorem depacketize_unfinished {packets : List (Bytes × Bool)}
    (h : ∀ packet ∈ packets, Unfinished packet) (timestamp : UInt32) (s : Session)
    (pending : Pending) :
    (forEach depacketize (rtpPackets (sendRtpPackets packets timestamp s).2) pending).2 = [] := by
  induction packets generalizing s pending with
  | nil => rfl
  | cons packet packets ih =>
    obtain ⟨payload, marker⟩ := packet
    obtain ⟨hfits, nalHeader, fuHeader, body, hpayload, hend⟩ := h _ (List.mem_cons_self ..)
    have hnothing (seq : UInt16) (indicator : UInt8) :
        (joinFragment seq indicator fuHeader body pending).2 = [] := by
      unfold joinFragment
      simp only [hend, Bool.false_eq_true, if_false]
      split
      · rfl
      · split <;> rfl
      · rfl
    rw [depacketize_sendRtpPackets_cons _ _ _ _ _ hfits, andThen_snd,
      ih (fun packet hmem ↦ h packet (List.mem_cons_of_mem _ hmem)), List.append_nil]
    obtain rfl : payload = fuPayload nalHeader fuHeader body := hpayload
    rw [depacketize_fuPayload]
    exact hnothing _ _

theorem length_rtpPackets_sendRtpPackets {packets : List (Bytes × Bool)}
    (h : ∀ packet ∈ packets, packet.1.length ≤ rtpMtu) (timestamp : UInt32) (s : Session) :
    (rtpPackets (sendRtpPackets packets timestamp s).2).length = packets.length := by
  induction packets generalizing s with
  | nil => rfl
  | cons packet packets ih =>
    have hrest := ih (fun later hmem ↦ h later (List.mem_cons_of_mem _ hmem))
      (sendRtpPacket packet.1 packet.2 timestamp s).1
    rw [sendRtpPackets] at hrest ⊢
    rw [forEach_cons, andThen_snd, rtpPackets_append,
      rtpPackets_sendRtpPacket _ _ _ _ (h packet (List.mem_cons_self ..)), List.length_append,
      hrest, List.length_singleton, List.length_cons, Nat.add_comm]

/-- Every packet is one call. -/
theorem exists_prefix_of_sendRtpPackets {packets : List (Bytes × Bool)} {timestamp : UInt32}
    {s : Session} {calls : List Syscall}
    (h : calls <+: (sendRtpPackets packets timestamp s).2) :
    ∃ sent, sent <+: packets ∧ calls = (sendRtpPackets sent timestamp s).2 := by
  induction packets generalizing s calls with
  | nil => exact ⟨[], List.nil_prefix, List.prefix_nil.mp h⟩
  | cons packet packets ih =>
    rw [sendRtpPackets, forEach_cons, andThen_snd, sendRtpPacket_snd, List.singleton_append] at h
    rcases List.prefix_cons_iff.mp h with rfl | ⟨later, rfl, hlater⟩
    · exact ⟨[], List.nil_prefix, rfl⟩
    · obtain ⟨sent, hsent, rfl⟩ := ih hlater
      exact ⟨packet :: sent, List.cons_prefix_cons.mpr ⟨rfl, hsent⟩, rfl⟩

/-! ## Programs that stop on the way -/

/-- However far `program` gets, a receiver reads the units that are complete by then. -/
structure DeliversUpTo (program : Emit Session Syscall) (nals : List Bytes) : Prop where
  count : ∀ s, (rtpPackets (program s).2).length = (nals.flatMap nalPackets).length
  read : ∀ s pending calls, calls <+: (program s).2 →
    (forEach depacketize (rtpPackets calls) pending).2 = completed nals (rtpPackets calls).length

theorem length_rtpPackets_le {calls calls' : List Syscall} (h : calls <+: calls') :
    (rtpPackets calls).length ≤ (rtpPackets calls').length := by
  obtain ⟨later, rfl⟩ := h
  rw [rtpPackets_append, List.length_append]
  exact Nat.le_add_right _ _

theorem deliversUpTo_of_silent {program : Emit Session Syscall}
    (h : ∀ s, rtpPackets (program s).2 = []) : DeliversUpTo program [] := by
  refine ⟨fun s ↦ congrArg List.length (h s), fun s pending calls hprefix ↦ ?_⟩
  have hlength := length_rtpPackets_le hprefix
  rw [h s, List.length_nil, Nat.le_zero, List.length_eq_zero_iff] at hlength
  rw [hlength]
  rfl

theorem DeliversUpTo.andThen {first second : Emit Session Syscall} {nals nals' : List Bytes}
    (hfirst : DeliversUpTo first nals) (hsecond : DeliversUpTo second nals') :
    DeliversUpTo (andThen first second) (nals ++ nals') := by
  constructor
  · intro s
    rw [andThen_snd, rtpPackets_append, List.length_append, hfirst.count, hsecond.count,
      List.flatMap_append, List.length_append]
  · intro s pending calls hprefix
    rw [andThen_snd] at hprefix
    rcases List.prefix_or_prefix_of_prefix hprefix (List.prefix_append _ _) with
      hearly | ⟨later, rfl⟩
    · have hcount := length_rtpPackets_le hearly
      rw [hfirst.count] at hcount
      rw [completed_append_of_le hcount]
      exact hfirst.read s pending calls hearly
    · have hlater := (List.prefix_append_right_inj _).mp hprefix
      have hwhole := hfirst.read s pending _ List.prefix_rfl
      rw [hfirst.count, completed_all] at hwhole
      rw [rtpPackets_append, forEach_append, andThen_snd, List.length_append, hfirst.count,
        completed_append, hwhole, hsecond.read _ _ later hlater]

theorem deliversUpTo_forEach {α : Type*} {body : α → Emit Session Syscall} {nals : α → List Bytes}
    {as : List α} (hbody : ∀ a ∈ as, DeliversUpTo (body a) (nals a)) :
    DeliversUpTo (forEach body as) (as.flatMap nals) := by
  induction as with
  | nil => exact deliversUpTo_of_silent fun _ ↦ rfl
  | cons a as ih =>
    have hhead := hbody a (List.mem_cons_self ..)
    have htail := ih fun b hb ↦ hbody b (List.mem_cons_of_mem _ hb)
    rw [List.flatMap_cons, forEach_cons]
    exact hhead.andThen htail

theorem deliversUpTo_nalPackets (nal : NalUnit) (htyped : nal.Typed) (timestamp : UInt32) :
    DeliversUpTo (sendRtpPackets (nalPackets nal.bytes) timestamp) [nal.bytes] := by
  have hfits := fun packet (hmem : packet ∈ nalPackets nal.bytes) ↦
    length_le_of_mem_nalPackets hmem
  constructor
  · intro s
    rw [length_rtpPackets_sendRtpPackets hfits, List.flatMap_singleton]
  · intro s pending calls hprefix
    obtain ⟨sent, hsent, rfl⟩ := exists_prefix_of_sendRtpPackets hprefix
    rw [length_rtpPackets_sendRtpPackets fun packet hmem ↦ hfits packet (hsent.subset hmem)]
    rcases hsent.length_le.eq_or_lt with hall | hpart
    · rw [hsent.eq_of_length hall, depacketize_nalPackets nal htyped, completed, if_pos le_rfl,
        completed]
    · have hmissing : sent <+: (nalPackets nal.bytes).dropLast := by
        rw [List.prefix_iff_eq_take.mp hsent, List.dropLast_eq_take]
        exact List.take_prefix_take_left (Nat.le_sub_one_of_lt hpart)
      rw [completed, if_neg (Nat.not_le.mpr hpart)]
      exact depacketize_unfinished
        (fun packet hmem ↦ unfinished_of_mem_dropLast (hmissing.subset hmem)) timestamp s pending

theorem deliversUpTo_framePackets (nals : List NalUnit) (htyped : ∀ nal ∈ nals, nal.Typed)
    (timestamp : UInt32) :
    DeliversUpTo (sendRtpPackets (framePackets (frameBytes nals)) timestamp)
      (nals.map NalUnit.bytes) := by
  have hunits : DeliversUpTo (forEach (fun nal : NalUnit ↦
      sendRtpPackets (nalPackets nal.bytes) timestamp) nals) (nals.flatMap fun nal ↦ [nal.bytes]) :=
    deliversUpTo_forEach fun nal hnal ↦ deliversUpTo_nalPackets nal (htyped nal hnal) timestamp
  rw [sendRtpPackets_frameBytes, List.map_eq_flatMap]
  exact hunits

/-! ## Calls -/

variable (toTimestamp : ℤ → UInt32)

theorem deliversUpTo_sendFrame (unit : AccessUnit) (htyped : ∀ nal ∈ unit.nals, nal.Typed) :
    DeliversUpTo (sendFrame toTimestamp unit.input) (unit.nals.map NalUnit.bytes) := by
  have hcall (s : Session) : ∃ program, DeliversUpTo program (unit.nals.map NalUnit.bytes) ∧
      (sendFrame toTimestamp unit.input s).2 = (program (latchBase unit.input.pts s)).2 := by
    have hpackets := deliversUpTo_framePackets unit.nals htyped
      (frameTimestamp toTimestamp unit.input s)
    have htail : DeliversUpTo (if unit.input.pts - s.lastRtcpPts ≥ 1000000 then
        sendReport (frameTimestamp toTimestamp unit.input s) unit.input else skip) [] := by
      refine deliversUpTo_of_silent fun s' ↦ ?_
      split
      · exact rtpPackets_sendReport _ _ _
      · rfl
    have hboth := hpackets.andThen htail
    rw [List.append_nil] at hboth
    exact ⟨_, hboth, by rw [sendFrame_eq]; rfl⟩
  constructor
  · intro s
    obtain ⟨program, hprogram, hcalls⟩ := hcall s
    rw [hcalls, hprogram.count]
  · intro s pending calls hprefix
    obtain ⟨program, hprogram, hcalls⟩ := hcall s
    rw [hcalls] at hprefix
    exact hprogram.read _ pending calls hprefix

theorem kept_attempt (trial : UnitTrial) (htyped : ∀ nal ∈ trial.unit.nals, nal.Typed) (s : Session)
    (pending : Pending) :
    Kept trial.unit (trial.trial.attempt toTimestamp s).1.2 (trial.trial.attempt toTimestamp s).2
      (forEach depacketize (rtpPackets (trial.trial.attempt toTimestamp s).1.2) pending).2 := by
  have hstops := stops_attempt toTimestamp trial.trial
  have hdelivers := deliversUpTo_sendFrame toTimestamp trial.unit htyped
  have hwhole (hreturned : (trial.trial.attempt toTimestamp s).2 = true) :
      (trial.trial.attempt toTimestamp s).1.2 = (sendFrame toTimestamp trial.unit.input s).2 :=
    congrArg Prod.snd (hstops.returned s hreturned)
  have hprefix : (trial.trial.attempt toTimestamp s).1.2 <+:
      (sendFrame toTimestamp trial.unit.input s).2 := by
    cases hreturned : (trial.trial.attempt toTimestamp s).2 with
    | false => exact hstops.threw s hreturned
    | true => rw [hwhole hreturned]
  have hread := hdelivers.read s pending _ hprefix
  refine ⟨hread, fun hreturned ↦ ?_⟩
  rw [hread, hwhole hreturned, hdelivers.count, completed_all]

/-- Whatever an earlier call left pending. -/
theorem keptAll_runs (trials : List UnitTrial)
    (htyped : ∀ trial ∈ trials, ∀ nal ∈ trial.unit.nals, nal.Typed) (s : Session)
    (pending : Pending) :
    KeptAll trials (runs (Trial.attempt toTimestamp) (trials.map UnitTrial.trial) s)
      (forEach depacketize (rtpPackets ((runs (Trial.attempt toTimestamp)
        (trials.map UnitTrial.trial) s).flatMap Prod.fst)) pending).2 := by
  induction trials generalizing s pending with
  | nil => rfl
  | cons trial trials ih =>
    have hhead := kept_attempt toTimestamp trial (htyped trial (List.mem_cons_self ..)) s pending
    have htail := ih (fun later hlater ↦ htyped later (List.mem_cons_of_mem _ hlater))
      (trial.trial.attempt toTimestamp s).1.1
      (forEach depacketize (rtpPackets (trial.trial.attempt toTimestamp s).1.2) pending).1
    refine ⟨_, _, ?_, hhead, htail⟩
    rw [List.map_cons, runs, List.flatMap_cons, rtpPackets_append, forEach_append, andThen_snd]

theorem bears_onConnection (fd : ℕ) : Bears fun _ ↦ OnConnection fd where
  weaken _ _ _ h := h
  latch pts _ s calls h := by
    rw [latch, List.append_nil]
    exact h.latch pts
  packet payload marker timestamp hpayload _ s calls h := by
    refine h.emit ?_ (rtpPacket_wellFormed s marker timestamp hpayload)
    rfl
  lost _ s calls h := ⟨h.sock, h.sends⟩
  report timestamp now _ s calls h := by
    refine h.emit ?_ (senderReport_wellFormed s timestamp now)
    rfl
  note pts _ s calls h := by
    rw [noteReport, List.append_nil]
    exact ⟨h.sock, h.sends⟩

/-- **Calls that throw.** On an open connection the receiver gets, from each call in turn, the units
all of whose packets the call has sent, which are all its units if it returned. -/
theorem receive_attempts (fd : ℕ) (trials : List UnitTrial) (s : Session)
    (hstarted : s.tcpSock = some fd)
    (htyped : ∀ trial ∈ trials, ∀ nal ∈ trial.unit.nals, nal.Typed) :
    ∃ nals, receive (wire (attempts toTimestamp (trials.map UnitTrial.trial) s).1.2) = some nals ∧
      KeptAll trials (runs (Trial.attempt toTimestamp) (trials.map UnitTrial.trial) s) nals := by
  have hinit : OnConnection fd s [] := ⟨hstarted, fun call hcall ↦ absurd hcall List.not_mem_nil⟩
  have hrun := costs_attempts toTimestamp (bears_onConnection fd) (trials.map UnitTrial.trial) hinit
  rw [List.nil_append] at hrun
  have hkept := keptAll_runs toTimestamp trials htyped s none
  rw [flatMap_runs] at hkept
  exact ⟨_, receive_wire hrun.sends, hkept⟩

/-- Memory is short when the second unit of the first frame is sent. -/
theorem receive_attempts_short :
    let trials : List UnitTrial :=
      [⟨⟨[⟨0x67, [1], by decide⟩, ⟨0x65, [2], by decide⟩], 0, ⟨0, 0, by decide⟩⟩,
          [false, false, true]⟩,
        ⟨⟨[⟨0x41, [3], by decide⟩], 40000, ⟨0, 0, by decide⟩⟩, []⟩]
    let s := { Session.construct 0 1 with tcpSock := some 3 }
    ∃ nals, receive (wire (attempts (fun _ ↦ 0) (trials.map UnitTrial.trial) s).1.2) =
        some nals ∧
      KeptAll trials (runs (Trial.attempt (fun _ ↦ 0)) (trials.map UnitTrial.trial) s) nals := by
  intro trials s
  refine receive_attempts (fun _ ↦ 0) 3 trials s rfl ?_
  unfold NalUnit.Typed
  decide

end RtpSender.Receiver
