import RtpSender.Receiver.Lossless
import RtpSender.Session.Transport

/-!
# Packets that the transport refuses

The session counts a packet whether or not the transport takes it, so a receiver sees a gap in the
sequence numbers where a packet was refused.  As long as fewer than `2 ^ 16` packets in a row are
refused, a fragment behind a gap never continues the unit before the gap: the receiver gets exactly
the units all of whose packets were taken.
-/

open RtpSender.Emitter RtpSender.Wire RtpSender.Chunks
open RtpSender.RtpSendingSession

namespace RtpSender.Receiver

/-! ## Gaps -/

/-- The number of packets refused in a row, after `gap` of them. -/
def gapAfter : ℕ → List Bool → ℕ
  | gap, [] => gap
  | _, true :: taken => gapAfter 0 taken
  | gap, false :: taken => gapAfter (gap + 1) taken

/-- Every packet that is taken comes after fewer than `2 ^ 16` refused in a row. -/
def ShortGaps : ℕ → List Bool → Prop
  | _, [] => True
  | gap, true :: taken => gap < 65536 ∧ ShortGaps 0 taken
  | gap, false :: taken => ShortGaps (gap + 1) taken

theorem shortGaps_append {gap : ℕ} {taken taken' : List Bool} :
    ShortGaps gap (taken ++ taken') ↔
      ShortGaps gap taken ∧ ShortGaps (gapAfter gap taken) taken' := by
  induction taken generalizing gap with
  | nil => simp [ShortGaps, gapAfter]
  | cons flag taken ih =>
    cases flag with
    | true => simp [ShortGaps, gapAfter, ih, and_assoc]
    | false => simp [ShortGaps, gapAfter, ih]

theorem gapAfter_append (gap : ℕ) (taken taken' : List Bool) :
    gapAfter gap (taken ++ taken') = gapAfter (gapAfter gap taken) taken' := by
  induction taken generalizing gap with
  | nil => rfl
  | cons flag taken ih => cases flag <;> exact ih _

/-- The pending unit expects a packet that was refused. -/
def Stale (pending : Pending) (next : UInt16) (gap : ℕ) : Prop :=
  ∀ expected nal, pending = some (expected, nal) →
    ∃ lost, 0 < lost ∧ lost ≤ gap ∧ next = expected + UInt16.ofNat lost

theorem stale_none (next : UInt16) (gap : ℕ) : Stale none next gap :=
  fun _ _ h ↦ nomatch h

theorem Stale.refuse {pending : Pending} {next : UInt16} {gap : ℕ} (h : Stale pending next gap) :
    Stale pending (next + 1) (gap + 1) := by
  intro expected nal hpending
  obtain ⟨lost, hpos, hle, rfl⟩ := h expected nal hpending
  refine ⟨lost + 1, Nat.succ_pos _, Nat.succ_le_succ hle, ?_⟩
  rw [UInt16.ofNat_add, UInt16.add_assoc]
  rfl

/-- The pending unit is stale once the packet that it expects is refused. -/
theorem stale_of_refused (next : UInt16) (nal : Bytes) (gap : ℕ) :
    Stale (some (next, nal)) (next + 1) (gap + 1) := by
  rintro _ _ ⟨⟩
  exact ⟨1, Nat.one_pos, Nat.succ_le_succ (Nat.zero_le _), rfl⟩

/-- Behind a short gap no packet has the number that a stale unit expects. -/
theorem Stale.ne {expected next : UInt16} {nal : Bytes} {gap : ℕ}
    (h : Stale (some (expected, nal)) next gap) (hgap : gap < 65536) : next ≠ expected := by
  obtain ⟨lost, hpos, hle, rfl⟩ := h expected nal rfl
  intro heq
  have hzero : (UInt16.ofNat lost).toNat = 0 := by
    rw [UInt16.add_eq_left.mp heq]
    rfl
  rw [UInt16.toNat_ofNat', Nat.mod_eq_of_lt (by omega)] at hzero
  omega

/-! ## Listening to a log -/

/-- The RTP packet of an exchange, and whether it was taken. -/
def heard (exchange : Exchange) : Option ((RtpHeader × Bytes) × Bool) :=
  (exchange.call.packet?.bind rtpParts).map fun parts ↦ (parts, exchange.takenWhole)

def observed (log : List Exchange) : List ((RtpHeader × Bytes) × Bool) := log.filterMap heard

/-- Which RTP packets were taken. -/
def taken (log : List Exchange) : List Bool := (observed log).map Prod.snd

/-- A receiver does not see a packet that was refused. -/
def listen (packet : (RtpHeader × Bytes) × Bool) : Emit Pending Bytes :=
  if packet.2 then depacketize packet.1 else skip

def packetCount (nals : List NalUnit) : ℕ :=
  (nals.map fun nal ↦ (nalPackets nal.bytes).length).sum

/-- The units all of whose packets were taken. -/
def arrived : List NalUnit → List Bool → List Bytes
  | [], _ => []
  | nal :: nals, taken =>
    let count := (nalPackets nal.bytes).length
    (if (taken.take count).all id then [nal.bytes] else []) ++ arrived nals (taken.drop count)

theorem arrived_append {nals : List NalUnit} {taken : List Bool}
    (h : taken.length = packetCount nals) (nals' : List NalUnit) (taken' : List Bool) :
    arrived (nals ++ nals') (taken ++ taken') = arrived nals taken ++ arrived nals' taken' := by
  induction nals generalizing taken with
  | nil =>
    rw [List.eq_nil_of_length_eq_zero h]
    rfl
  | cons nal nals ih =>
    simp only [packetCount, List.map_cons, List.sum_cons] at h
    have hdrop : (taken.drop (nalPackets nal.bytes).length).length = packetCount nals := by
      rw [List.length_drop, h, packetCount]
      omega
    rw [List.cons_append, arrived, arrived, List.take_append_of_le_length (by omega),
      List.drop_append_of_le_length (by omega), ih hdrop, List.append_assoc]

/-- From any state of session and receiver, and whatever packets of `program` are refused behind
short gaps, a receiver recovers those of the units `nals` that arrived. -/
def Resilient (program : Emit Session Syscall) (nals : List NalUnit) : Prop :=
  ∀ s log gap pending, log.map Exchange.call = (program s).2 → Stale pending s.rtpSeq gap →
    ShortGaps gap (taken log) →
    (taken log).length = packetCount nals ∧
    (forEach listen (observed log) pending).2 = arrived nals (taken log) ∧
    Stale (forEach listen (observed log) pending).1 (program s).1.rtpSeq
      (gapAfter gap (taken log))

theorem observed_append (log log' : List Exchange) :
    observed (log ++ log') = observed log ++ observed log' := List.filterMap_append

theorem taken_append (log log' : List Exchange) :
    taken (log ++ log') = taken log ++ taken log' := by
  rw [taken, observed_append, List.map_append]
  rfl

theorem resilient_skip : Resilient skip [] := by
  intro s log gap pending hlog hstale _
  obtain rfl := List.map_eq_nil_iff.mp hlog
  exact ⟨rfl, rfl, hstale⟩

theorem Resilient.andThen {first second : Emit Session Syscall} {nals nals' : List NalUnit}
    (hfirst : Resilient first nals) (hsecond : Resilient second nals') :
    Resilient (andThen first second) (nals ++ nals') := by
  intro s log gap pending hlog hstale hgaps
  obtain ⟨before, after, rfl, hbefore, hafter⟩ := List.map_eq_append_iff.mp hlog
  rw [taken_append, shortGaps_append] at hgaps
  obtain ⟨hcount, hheard, hmiddle⟩ := hfirst s before gap pending hbefore hstale hgaps.1
  obtain ⟨hcount', hheard', hfinal⟩ := hsecond _ after _ _ hafter hmiddle hgaps.2
  rw [taken_append, observed_append, forEach_append, andThen_fst, andThen_snd, gapAfter_append,
    arrived_append hcount, hheard, hheard', List.length_append]
  refine ⟨?_, rfl, hfinal⟩
  rw [hcount, hcount', packetCount, packetCount, packetCount, List.map_append, List.sum_append]

theorem resilient_forEach {α : Type*} {body : α → Emit Session Syscall} {nals : α → List NalUnit}
    {as : List α} (hbody : ∀ a ∈ as, Resilient (body a) (nals a)) :
    Resilient (forEach body as) (as.flatMap nals) := by
  induction as with
  | nil => exact resilient_skip
  | cons a as ih =>
    have hhead := hbody a (List.mem_cons_self ..)
    have htail := ih fun b hb ↦ hbody b (List.mem_cons_of_mem _ hb)
    rw [List.flatMap_cons, forEach_cons]
    exact hhead.andThen htail

/-! ## The packets of one unit -/

/-- The first of several planned packets. -/
theorem listen_sendRtpPackets_cons {payload : Bytes} {marker : Bool}
    {packets : List (Bytes × Bool)} {timestamp : UInt32} {s : Session} {log : List Exchange}
    (hpayload : payload.length ≤ rtpMtu)
    (hlog : log.map Exchange.call =
      (sendRtpPackets ((payload, marker) :: packets) timestamp s).2) :
    ∃ flag rest, taken log = flag :: taken rest ∧
      forEach listen (observed log) =
        andThen (listen ((rtpHeader s marker timestamp, payload), flag))
          (forEach listen (observed rest)) ∧
      rest.map Exchange.call =
        (sendRtpPackets packets timestamp (sendRtpPacket payload marker timestamp s).1).2 := by
  rw [sendRtpPackets, forEach_cons, andThen_snd, sendRtpPacket_snd, List.singleton_append] at hlog
  obtain ⟨exchange, rest, rfl, hcall, hrest⟩ := List.map_eq_cons_iff.mp hlog
  have hheard : heard exchange =
      some ((rtpHeader s marker timestamp, payload), exchange.takenWhole) := by
    rw [heard, hcall, packet?_send _ _ (rtpPacket_wellFormed s marker timestamp hpayload)]
    rfl
  have hobserved : observed (exchange :: rest) =
      ((rtpHeader s marker timestamp, payload), exchange.takenWhole) :: observed rest :=
    List.filterMap_cons_some hheard
  exact ⟨exchange.takenWhole, rest, by rw [taken, hobserved]; rfl, by rw [hobserved]; rfl, hrest⟩

theorem rtpSeq_sendRtpPackets_cons (payload : Bytes) (marker : Bool)
    (packets : List (Bytes × Bool)) (timestamp : UInt32) (s : Session) :
    (sendRtpPackets ((payload, marker) :: packets) timestamp s).1.rtpSeq =
      (sendRtpPackets packets timestamp (sendRtpPacket payload marker timestamp s).1).1.rtpSeq :=
  rfl

/-- A fragment that does not continue the pending unit is discarded. -/
theorem joinFragment_stale {seq : UInt16} {gap : ℕ} {pending : Pending} {fuHeader : UInt8}
    (indicator : UInt8) (body : Bytes) (hstart : (fuHeader &&& 0x80 != 0) = false)
    (h : Stale pending seq gap) (hgap : gap < 65536) :
    joinFragment seq indicator fuHeader body pending = (none, []) := by
  match pending, h with
  | none, _ => simp only [joinFragment, hstart]
  | some (expected, nal), h =>
    have hne := h.ne hgap
    simp only [joinFragment, hstart, if_neg hne]

/-- A fragment other than the first one of its unit. -/
def Later (payload : Bytes) : Prop :=
  payload.length ≤ rtpMtu ∧ ∃ nalHeader fuHeader body, payload = fuPayload nalHeader fuHeader body ∧
    (fuHeader &&& 0x80 != 0) = false

theorem later_of_mem_laterFragments {nalHeader : UInt8} {bodies : List Bytes}
    (hbodies : ∀ body ∈ bodies, body.length ≤ rtpMtu - 2) {packet : Bytes × Bool}
    (h : packet ∈ laterFragments nalHeader bodies) : Later packet.1 := by
  have hfits (fuHeader : UInt8) {body : Bytes} (hbody : body ∈ bodies) :
      (fuPayload nalHeader fuHeader body).length ≤ rtpMtu := by
    have hlength := hbodies body hbody
    simp only [length_fuPayload, rtpMtu] at hlength ⊢
    omega
  fun_induction laterFragments nalHeader bodies with
  | case1 => cases h
  | case2 body =>
    rw [List.mem_singleton.mp h]
    exact ⟨hfits _ (List.mem_cons_self ..), _, _, _, rfl, fuHeaderEnd_start nalHeader⟩
  | case3 body next rest ih =>
    rcases List.mem_cons.mp h with rfl | htail
    · exact ⟨hfits _ (List.mem_cons_self ..), _, _, _, rfl, fuHeaderMid_start nalHeader⟩
    · exact ih (fun b hb ↦ hbodies b (List.mem_cons_of_mem _ hb)) htail
        fun fuHeader _ hb ↦ hfits fuHeader (List.mem_cons_of_mem _ hb)

section Fragments

variable {timestamp : UInt32} {s : Session} {log : List Exchange} {gap : ℕ}

/-- Once a fragment was refused, the later ones are discarded. -/
theorem listen_later {packets : List (Bytes × Bool)} {pending : Pending}
    (hlater : ∀ packet ∈ packets, Later packet.1)
    (hlog : log.map Exchange.call = (sendRtpPackets packets timestamp s).2)
    (hstale : Stale pending s.rtpSeq gap) (hgaps : ShortGaps gap (taken log)) :
    (taken log).length = packets.length ∧ (forEach listen (observed log) pending).2 = [] ∧
      Stale (forEach listen (observed log) pending).1
        (sendRtpPackets packets timestamp s).1.rtpSeq (gapAfter gap (taken log)) := by
  induction packets generalizing s log gap pending with
  | nil =>
    obtain rfl := List.map_eq_nil_iff.mp hlog
    exact ⟨rfl, rfl, hstale⟩
  | cons packet packets ih =>
    obtain ⟨payload, marker⟩ := packet
    obtain ⟨hfits, nalHeader, fuHeader, body, hpayload, hstart⟩ := hlater _ (List.mem_cons_self ..)
    obtain ⟨flag, rest, htaken, hlisten, hrest⟩ := listen_sendRtpPackets_cons hfits hlog
    have hothers := fun packet hmem ↦ hlater packet (List.mem_cons_of_mem _ hmem)
    rw [htaken] at hgaps ⊢
    rw [hlisten, andThen_fst, andThen_snd, rtpSeq_sendRtpPackets_cons]
    cases flag with
    | false =>
      obtain ⟨hcount, hheard, hfinal⟩ := ih hothers hrest hstale.refuse hgaps
      exact ⟨congrArg Nat.succ hcount, hheard, hfinal⟩
    | true =>
      have hdiscard : listen ((rtpHeader s marker timestamp, payload), true) pending =
          (none, []) := by
        rw [listen, if_pos rfl]
        obtain rfl : payload = fuPayload nalHeader fuHeader body := hpayload
        rw [depacketize_fuPayload]
        exact joinFragment_stale _ _ hstart hstale hgaps.1
      obtain ⟨hcount, hheard, hfinal⟩ := ih hothers hrest (stale_none _ 0) hgaps.2
      rw [hdiscard]
      exact ⟨congrArg Nat.succ hcount, hheard, hfinal⟩

/-- The later fragments complete the pending unit if all of them are taken. -/
theorem listen_laterFragments {nalHeader : UInt8} {bodies : List Bytes} (hne : bodies ≠ [])
    (hbodies : ∀ body ∈ bodies, body.length ≤ rtpMtu - 2) {nal : Bytes}
    (hlog : log.map Exchange.call =
      (sendRtpPackets (laterFragments nalHeader bodies) timestamp s).2)
    (hgaps : ShortGaps gap (taken log)) :
    (taken log).length = (laterFragments nalHeader bodies).length ∧
      (forEach listen (observed log) (some (s.rtpSeq, nal))).2 =
        (if (taken log).all id then [nal ++ bodies.flatten] else []) ∧
      Stale (forEach listen (observed log) (some (s.rtpSeq, nal))).1
        (sendRtpPackets (laterFragments nalHeader bodies) timestamp s).1.rtpSeq
        (gapAfter gap (taken log)) := by
  have hlater (packet : Bytes × Bool) (hmem : packet ∈ laterFragments nalHeader bodies) :
      Later packet.1 := later_of_mem_laterFragments hbodies hmem
  fun_induction laterFragments nalHeader bodies generalizing s log gap nal with
  | case1 => exact absurd rfl hne
  | case2 body =>
    obtain ⟨flag, rest, htaken, hlisten, hrest⟩ :=
      listen_sendRtpPackets_cons (hlater _ (List.mem_cons_self ..)).1 hlog
    obtain rfl := List.map_eq_nil_iff.mp hrest
    rw [htaken, hlisten, List.flatten_singleton]
    cases flag with
    | false => exact ⟨rfl, rfl, stale_of_refused s.rtpSeq nal gap⟩
    | true =>
      have hjoin : listen ((rtpHeader s true timestamp,
          fuPayload nalHeader (fuHeaderEnd nalHeader) body), true) (some (s.rtpSeq, nal)) =
          (none, [nal ++ body]) := by
        rw [listen, if_pos rfl, depacketize_fuPayload]
        exact joinFragment_end s.rtpSeq nalHeader body nal
      rw [andThen_fst, andThen_snd, hjoin]
      exact ⟨rfl, rfl, stale_none _ _⟩
  | case3 body next rest ih =>
    obtain ⟨flag, log', htaken, hlisten, hrest⟩ :=
      listen_sendRtpPackets_cons (hlater _ (List.mem_cons_self ..)).1 hlog
    have hothers (packet : Bytes × Bool) (hmem : packet ∈ laterFragments nalHeader (next :: rest)) :
        Later packet.1 := hlater packet (List.mem_cons_of_mem _ hmem)
    rw [htaken] at hgaps ⊢
    rw [hlisten, andThen_fst, andThen_snd, rtpSeq_sendRtpPackets_cons]
    cases flag with
    | false =>
      obtain ⟨hcount, hheard, hfinal⟩ :=
        listen_later hothers hrest (stale_of_refused s.rtpSeq nal gap) hgaps
      exact ⟨congrArg Nat.succ hcount, hheard, hfinal⟩
    | true =>
      have hjoin : listen ((rtpHeader s false timestamp,
          fuPayload nalHeader (fuHeaderMid nalHeader) body), true) (some (s.rtpSeq, nal)) =
          (some (s.rtpSeq + 1, nal ++ body), []) := by
        rw [listen, if_pos rfl, depacketize_fuPayload]
        exact joinFragment_mid s.rtpSeq nalHeader body nal
      obtain ⟨hcount, hheard, hfinal⟩ := ih (List.cons_ne_nil _ _)
        (fun b hb ↦ hbodies b (List.mem_cons_of_mem _ hb)) hrest hgaps.2 hothers
      rw [hjoin, List.flatten_cons, ← List.append_assoc]
      exact ⟨congrArg Nat.succ hcount, hheard, hfinal⟩

end Fragments

theorem arrived_singleton {nal : NalUnit} {taken : List Bool}
    (h : taken.length = (nalPackets nal.bytes).length) :
    arrived [nal] taken = if taken.all id then [nal.bytes] else [] := by
  rw [arrived, arrived, List.append_nil, List.take_of_length_le h.le]

/-- The receiver reads the unit exactly if the transport took all of its packets. -/
def ReadIfTaken (nal : NalUnit) (timestamp : UInt32) (s : Session) (gap : ℕ) (pending : Pending)
    (log : List Exchange) : Prop :=
  (taken log).length = (nalPackets nal.bytes).length ∧
    (forEach listen (observed log) pending).2 =
      (if (taken log).all id then [nal.bytes] else []) ∧
    Stale (forEach listen (observed log) pending).1
      (sendRtpPackets (nalPackets nal.bytes) timestamp s).1.rtpSeq (gapAfter gap (taken log))

section Unit

variable {nal : NalUnit} {timestamp : UInt32} {s : Session} {gap : ℕ} {pending : Pending}
  {log : List Exchange}

theorem readIfTaken_of_small (htyped : nal.Typed) (hsmall : nal.bytes.length ≤ rtpMtu)
    (hlog : log.map Exchange.call = (sendRtpPackets (nalPackets nal.bytes) timestamp s).2)
    (hstale : Stale pending s.rtpSeq gap) : ReadIfTaken nal timestamp s gap pending log := by
  unfold ReadIfTaken
  rw [nalPackets_of_small hsmall] at hlog ⊢
  obtain ⟨flag, rest, htaken, hlisten, hrest⟩ := listen_sendRtpPackets_cons hsmall hlog
  obtain rfl := List.map_eq_nil_iff.mp hrest
  rw [htaken, hlisten]
  cases flag with
  | false => exact ⟨rfl, rfl, hstale.refuse⟩
  | true =>
    have hsingle : listen ((rtpHeader s true timestamp, nal.bytes), true) pending =
        (none, [nal.bytes]) := depacketize_single _ _ htyped pending
    rw [andThen_fst, andThen_snd, hsingle]
    exact ⟨rfl, rfl, stale_none _ _⟩

/-- A first fragment that is refused makes the receiver pass over the later ones. -/
theorem readIfTaken_of_large (hlarge : rtpMtu < nal.bytes.length)
    (hlog : log.map Exchange.call = (sendRtpPackets (nalPackets nal.bytes) timestamp s).2)
    (hstale : Stale pending s.rtpSeq gap) (hgaps : ShortGaps gap (taken log)) :
    ReadIfTaken nal timestamp s gap pending log := by
  have hplan : nalPackets nal.bytes =
      (fuPayload nal.nalHeader (fuHeaderStart nal.nalHeader) (nal.rest.take (rtpMtu - 2)),
        false) ::
      laterFragments nal.nalHeader (chunks (rtpMtu - 2) (nal.rest.drop (rtpMtu - 2))) :=
    nalPackets_of_large hlarge
  have hfirst : (fuPayload nal.nalHeader (fuHeaderStart nal.nalHeader)
      (nal.rest.take (rtpMtu - 2))).length ≤ rtpMtu := by
    have htake := List.length_take_le (rtpMtu - 2) nal.rest
    simp only [length_fuPayload, rtpMtu] at htake ⊢
    omega
  have hbodies (body : Bytes)
      (hbody : body ∈ chunks (rtpMtu - 2) (nal.rest.drop (rtpMtu - 2))) :
      body.length ≤ rtpMtu - 2 := length_le_of_mem_chunks hbody
  unfold ReadIfTaken
  rw [hplan] at hlog ⊢
  obtain ⟨flag, rest, htaken, hlisten, hrest⟩ := listen_sendRtpPackets_cons hfirst hlog
  rw [htaken] at hgaps ⊢
  rw [hlisten, andThen_fst, andThen_snd, rtpSeq_sendRtpPackets_cons]
  cases flag with
  | false =>
    obtain ⟨hcount, hheard, hfinal⟩ := listen_later
      (fun packet hmem ↦ later_of_mem_laterFragments hbodies hmem) hrest hstale.refuse hgaps
    exact ⟨congrArg Nat.succ hcount, hheard, hfinal⟩
  | true =>
    have hstart : listen ((rtpHeader s false timestamp,
        fuPayload nal.nalHeader (fuHeaderStart nal.nalHeader) (nal.rest.take (rtpMtu - 2))),
          true) pending =
        (some (s.rtpSeq + 1, nal.nalHeader :: nal.rest.take (rtpMtu - 2)), []) := by
      rw [listen, if_pos rfl, depacketize_fuPayload]
      exact joinFragment_start s.rtpSeq nal.nalHeader _ pending
    obtain ⟨hcount, hheard, hfinal⟩ :=
      listen_laterFragments (laterChunks_ne_nil hlarge) hbodies hrest hgaps.2
    rw [flatten_chunks (by decide), List.cons_append, List.take_append_drop] at hheard
    rw [hstart]
    exact ⟨congrArg Nat.succ hcount, hheard, hfinal⟩

end Unit

theorem resilient_nalPackets (nal : NalUnit) (htyped : nal.Typed) (timestamp : UInt32) :
    Resilient (sendRtpPackets (nalPackets nal.bytes) timestamp) [nal] := by
  intro s log gap pending hlog hstale hgaps
  have hread : ReadIfTaken nal timestamp s gap pending log := by
    by_cases hsmall : nal.bytes.length ≤ rtpMtu
    · exact readIfTaken_of_small htyped hsmall hlog hstale
    · exact readIfTaken_of_large (Nat.lt_of_not_le hsmall) hlog hstale hgaps
  rw [arrived_singleton hread.1]
  exact ⟨by simpa [packetCount] using hread.1, hread.2⟩

/-! ## Runs -/

theorem resilient_framePackets (nals : List NalUnit) (htyped : ∀ nal ∈ nals, nal.Typed)
    (timestamp : UInt32) :
    Resilient (sendRtpPackets (framePackets (frameBytes nals)) timestamp) nals := by
  have hunits : Resilient (forEach (fun nal : NalUnit ↦
      sendRtpPackets (nalPackets nal.bytes) timestamp) nals) (nals.flatMap fun nal ↦ [nal]) :=
    resilient_forEach fun nal hnal ↦ resilient_nalPackets nal (htyped nal hnal) timestamp
  rw [sendRtpPackets_frameBytes]
  simpa using hunits

theorem resilient_sendReport (timestamp : UInt32) (input : FrameInput) :
    Resilient (sendReport timestamp input) [] := by
  intro s log gap pending hlog hstale _
  rw [sendReport_snd] at hlog
  obtain ⟨exchange, rfl, hcall⟩ := List.map_eq_singleton_iff.mp hlog
  have hheard : heard exchange = none := by
    rw [heard, hcall, packet?_send _ _ (senderReport_wellFormed s timestamp input.now)]
    rfl
  have hobserved : observed [exchange] = [] := List.filterMap_cons_none hheard
  rw [taken, hobserved]
  exact ⟨rfl, rfl, hstale⟩

variable (toTimestamp : ℤ → UInt32)

theorem resilient_sendFrame (unit : AccessUnit) (htyped : ∀ nal ∈ unit.nals, nal.Typed) :
    Resilient (sendFrame toTimestamp unit.input) unit.nals := by
  intro s log gap pending hlog hstale hgaps
  rw [sendFrame_eq] at hlog ⊢
  have hpackets := resilient_framePackets unit.nals htyped
    (frameTimestamp toTimestamp unit.input s)
  have htail : Resilient (if unit.input.pts - s.lastRtcpPts ≥ 1000000 then
      sendReport (frameTimestamp toTimestamp unit.input s) unit.input else skip) [] := by
    split
    · exact resilient_sendReport _ _
    · exact resilient_skip
  have hboth := hpackets.andThen htail
  rw [List.append_nil] at hboth
  have hseq : (latchBase unit.input.pts s).rtpSeq = s.rtpSeq := by rw [latchBase_eq]
  exact hboth _ log gap pending hlog (hseq ▸ hstale) hgaps

theorem resilient_sendFrames (units : List AccessUnit)
    (htyped : ∀ unit ∈ units, ∀ nal ∈ unit.nals, nal.Typed) :
    Resilient (sendFrames toTimestamp (units.map AccessUnit.input))
      (units.flatMap AccessUnit.nals) := by
  rw [sendFrames, forEach_map]
  exact resilient_forEach fun unit hunit ↦
    resilient_sendFrame toTimestamp unit (htyped unit hunit)

end RtpSender.Receiver
