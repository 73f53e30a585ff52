import RtpSender.Foundation.Split
import RtpSender.Session.AccessUnit
import RtpSender.Session.Emission

/-!
# The parser and a plain split

The parser is compared with a split of the buffer at every `00 00 00 01`, which drops what comes
before the first code and all empty pieces.  Both of its loops demand `i + 4 < len`, one byte more
than a start code has, and it keeps empty pieces.  So a start code at the very end becomes part of
the unit before it, and between two adjacent start codes an empty unit is packetized.  Buffers
without these two arrangements are split as they should be.
-/

open RtpSender.Emitter RtpSender.Wire RtpSender.Delimiter

namespace RtpSender.RtpSendingSession

/-! ## The reference -/

/-- Start and size of pieces with start codes in front of them, from `pos` on. -/
def pieceRanges (pos : ℕ) : List Bytes → List (ℕ × ℕ)
  | [] => []
  | piece :: pieces => (pos + 4, piece.length) :: pieceRanges (pos + 4 + piece.length) pieces

/-- The nonempty pieces behind the start codes of a buffer. -/
def referenceRanges (data : Bytes) : List (ℕ × ℕ) :=
  (pieceRanges (splitAll startCode data).1.length (splitAll startCode data).2).filter
    fun range ↦ 0 < range.2

/-- The parser does what the reference does; units are free of start codes and payloads are not
empty. -/
structure SplitsAtStartCodes (data : Bytes) : Prop where
  ranges : naluRanges data 0 = referenceRanges data
  free : ∀ nal ∈ nalus data, ¬ startCode <:+: nal
  payloads : ∀ toTimestamp pts s header payload,
    .rtp header payload ∈ sentPackets (parseAndSendFrame toTimestamp data pts s).2 → payload ≠ []

/-- No two adjacent start codes, and none at the end unless it is the only one. -/
structure WellSeparated (data : Bytes) : Prop where
  not_adjacent : ¬ startCode ++ startCode <:+: data
  not_last : ∀ before, before ++ startCode = data → ¬ startCode <:+: before

/-! ## What the parser makes of the pieces -/

/-- The units that the parser sees in the pieces behind the start codes. -/
def heard : List Bytes → List Bytes
  | [] => []
  | [[]] => []
  | [piece, []] => [piece ++ startCode]
  | piece :: pieces => piece :: heard pieces

theorem startCode_ne_nil : startCode ≠ [] := List.cons_ne_nil _ _

theorem startsNalu_joinPieces {pieces : List Bytes} (hnil : pieces ≠ []) (hlast : pieces ≠ [[]]) :
    startsNalu (joinPieces startCode pieces) = true := by
  obtain ⟨piece, pieces, rfl⟩ := List.exists_cons_of_ne_nil hnil
  rw [joinPieces_cons, startsNalu_iff]
  refine ⟨?_, List.prefix_append _ _⟩
  have hpos : 0 < (piece ++ joinPieces startCode pieces).length := by
    rw [List.length_pos_iff]
    intro hempty
    obtain ⟨rfl, hrest⟩ := List.append_eq_nil_iff.mp hempty
    cases pieces with
    | nil => exact hlast rfl
    | cons next pieces =>
      rw [joinPieces_cons] at hrest
      exact startCode_ne_nil (List.append_eq_nil_iff.mp hrest).1
  rw [List.length_append]
  simp only [startCode, List.length_cons, List.length_nil] at hpos ⊢
  omega

/-- A text free of start codes is passed over, also in front of a start code. -/
theorem cutWhen_free {text : Bytes} (hfree : ¬ startCode <:+: text) (rest : Bytes) :
    cutWhen startsNalu (text ++ (startCode ++ rest)) =
      (text ++ (cutWhen startsNalu (startCode ++ rest)).1,
        (cutWhen startsNalu (startCode ++ rest)).2) := by
  apply cutWhen_append
  intro x hx hsuffix
  apply startsNalu_eq_false
  exact startCode_unbordered.not_prefix_append hfree hx hsuffix rest

theorem cutWhen_joinPieces {text : Bytes} (hfree : ¬ startCode <:+: text) {pieces : List Bytes}
    (hlast : pieces ≠ [[]]) :
    cutWhen startsNalu (text ++ joinPieces startCode pieces) =
      (text, joinPieces startCode pieces) := by
  cases pieces with
  | nil =>
    have hgo : ∀ x, x ≠ [] → x <:+ text → startsNalu (x ++ []) = false := by
      intro x _ hsuffix
      rw [List.append_nil]
      exact startsNalu_eq_false (not_prefix_of_suffix hfree hsuffix)
    have hcut := cutWhen_append text [] hgo
    rw [cutWhen_nil, List.append_nil] at hcut
    rw [joinPieces_nil, List.append_nil, hcut]
  | cons piece pieces =>
    have hstop := startsNalu_joinPieces (List.cons_ne_nil piece pieces) hlast
    rw [joinPieces_cons] at hstop ⊢
    rw [cutWhen_free hfree, cutWhen_of_stop hstop, List.append_nil]

theorem cutWhen_startCode : cutWhen startsNalu startCode = (startCode, []) :=
  cutWhen_short (by decide)

/-- A start code at the very end is not seen. -/
theorem cutWhen_last {text : Bytes} (hfree : ¬ startCode <:+: text) :
    cutWhen startsNalu (text ++ startCode) = (text ++ startCode, []) := by
  have hcut := cutWhen_free hfree []
  rwa [List.append_nil, cutWhen_startCode] at hcut

/-- The scanner behind a start code that it sees. -/
theorem scanNalus_joinPieces_cons {piece : Bytes} {pieces : List Bytes}
    (hlast : piece :: pieces ≠ [[]]) :
    scanNalus (joinPieces startCode (piece :: pieces)) =
      (cutWhen startsNalu (piece ++ joinPieces startCode pieces)).1 ::
        scanNalus (cutWhen startsNalu (piece ++ joinPieces startCode pieces)).2 := by
  have hcut := cutWhen_of_stop (startsNalu_joinPieces (List.cons_ne_nil piece pieces) hlast)
  have hne : joinPieces startCode (piece :: pieces) ≠ [] := by
    rw [joinPieces_cons]
    exact List.append_ne_nil_of_left_ne_nil startCode_ne_nil _
  have hdrop : (joinPieces startCode (piece :: pieces)).drop 4 =
      piece ++ joinPieces startCode pieces := by
    rw [joinPieces_cons]
    rfl
  rw [scanNalus, hcut, if_neg hne, hdrop]

theorem scanNalus_joinPieces (pieces : List Bytes)
    (hfree : ∀ piece ∈ pieces, ¬ startCode <:+: piece) :
    scanNalus (joinPieces startCode pieces) = heard pieces := by
  fun_induction heard pieces with
  | case1 => exact scanNalus_nil
  | case2 =>
    have hnone : cutWhen startsNalu (joinPieces startCode [[]]) = (startCode, []) :=
      cutWhen_startCode
    rw [scanNalus, hnone, if_pos rfl]
  | case3 piece =>
    have hjoin : joinPieces startCode [[]] = startCode := rfl
    rw [scanNalus_joinPieces_cons (by simp), hjoin,
      cutWhen_last (hfree piece (List.mem_cons_self ..)), scanNalus_nil]
  | case4 piece pieces hsingle hlast ih =>
    have hrest := ih fun p hp ↦ hfree p (List.mem_cons_of_mem _ hp)
    have hpieces : pieces ≠ [[]] := fun h ↦ hlast h
    have hwhole : piece :: pieces ≠ [[]] := by
      intro h
      obtain ⟨rfl, rfl⟩ := List.cons.inj h
      exact hsingle rfl rfl
    rw [scanNalus_joinPieces_cons hwhole,
      cutWhen_joinPieces (hfree piece (List.mem_cons_self ..)) hpieces, hrest]

/-! ## Ranges -/

/-- Behind a unit the scanner stands at a start code or at the end. -/
theorem cutWhen_findEnd (data : Bytes) (i : ℕ) (hi : i ≤ data.length) :
    (cutWhen startsNalu (data.drop (findEnd data i))).1 = [] := by
  by_cases hnil : data.drop (findEnd data i) = []
  · rw [hnil, cutWhen_nil]
  · have hagain : (cutWhen startsNalu (data.drop i)).2 ≠ [] →
        startsNalu (cutWhen startsNalu (data.drop i)).2 = true :=
      stop_cutWhen_snd (data.drop i)
    rw [cutWhen_drop data i hi] at hagain
    rw [cutWhen_of_stop (hagain hnil)]

/-- The ranges of the parser lie behind each other, with a start code in front of each. -/
theorem naluRanges_eq_pieceRanges (data : Bytes) (pos : ℕ) :
    naluRanges data pos =
      pieceRanges (pos + (cutWhen startsNalu (data.drop pos)).1.length)
        (scanNalus (data.drop pos)) := by
  fun_induction naluRanges data pos with
  | case1 pos hpos hcode hend ih =>
    have hstop : startsNalu (data.drop pos) = true := by rw [startsNalu_drop data pos hpos, hcode]
    have hlast := findEnd_le data (pos + 4) (by omega)
    have hsize : (slice data (pos + 4, findEnd data (pos + 4) - (pos + 4))).length =
        findEnd data (pos + 4) - (pos + 4) := by
      rw [slice, List.length_take, List.length_drop]
      omega
    have hnext : naluRanges data (findEnd data (pos + 4)) =
        pieceRanges (findEnd data (pos + 4)) (scanNalus (data.drop (findEnd data (pos + 4)))) := by
      rw [ih, cutWhen_findEnd data (pos + 4) (by omega), List.length_nil, Nat.add_zero]
    rw [scanNalus_drop data hpos hcode, cutWhen_of_stop hstop, hnext, pieceRanges,
      List.length_nil, Nat.add_zero, hsize, Nat.add_sub_cancel' hend]
  | case2 pos hpos hcode ih =>
    have hgo : startsNalu (data.drop pos) = false := by
      rw [startsNalu_drop data pos hpos, Bool.eq_false_iff]
      exact hcode
    have hscan := scanNalus_cutWhen (data.drop pos)
    rw [List.drop_eq_getElem_cons (by omega : pos < data.length)] at hgo hscan ⊢
    rw [cutWhen_cons_of_not_stop hgo] at hscan ⊢
    rw [ih, ← hscan, scanNalus_cutWhen, List.length_cons, Nat.add_assoc, Nat.add_comm 1]
  | case3 pos hpos =>
    have hshort : (data.drop pos).length ≤ 4 := by rw [List.length_drop]; omega
    rw [scanNalus, cutWhen_short hshort, if_pos rfl, pieceRanges]

/-- The units of a buffer and their ranges, from its pieces. -/
theorem nalus_eq_heard (data : Bytes) :
    nalus data = heard (splitAll startCode data).2 ∧
      naluRanges data 0 =
        pieceRanges (splitAll startCode data).1.length (heard (splitAll startCode data).2) := by
  obtain ⟨hfirst, hpieces⟩ := not_infix_splitAll startCode_ne_nil data
  have hjoin := append_joinPieces_splitAll startCode data
  have hranges := naluRanges_eq_pieceRanges data 0
  rw [List.drop_zero, Nat.zero_add] at hranges
  rw [nalus_eq_scanNalus, hranges, ← scanNalus_cutWhen]
  generalize (splitAll startCode data).1 = first at *
  generalize (splitAll startCode data).2 = pieces at *
  by_cases hlast : pieces = [[]]
  · have hcut : cutWhen startsNalu data = (data, []) := by
      rw [← hjoin, hlast]
      exact cutWhen_last hfirst
    rw [hcut, hlast, scanNalus_nil]
    exact ⟨rfl, rfl⟩
  · have hcut : cutWhen startsNalu data = (first, joinPieces startCode pieces) := by
      rw [← hjoin]
      exact cutWhen_joinPieces hfirst hlast
    rw [hcut, scanNalus_joinPieces pieces hpieces]
    exact ⟨rfl, rfl⟩

/-! ## When the parser agrees -/

/-- The bytes that ranges take up, with the start codes in front of them. -/
def extent (ranges : List (ℕ × ℕ)) : ℕ := (ranges.map fun range ↦ range.2 + 4).sum

theorem extent_pieceRanges (pos : ℕ) (pieces : List Bytes) :
    extent (pieceRanges pos pieces) = (joinPieces startCode pieces).length := by
  induction pieces generalizing pos with
  | nil => rfl
  | cons piece pieces ih =>
    have hrest := ih (pos + 4 + piece.length)
    rw [extent] at hrest
    rw [pieceRanges, extent, List.map_cons, List.sum_cons, hrest, joinPieces_cons,
      List.length_append, List.length_append]
    simp only [startCode, List.length_cons, List.length_nil]
    omega

/-- Leaving the empty ranges out costs their start codes. -/
theorem extent_filter_pieceRanges (pos : ℕ) (pieces : List Bytes) :
    extent ((pieceRanges pos pieces).filter fun range ↦ 0 < range.2) + 4 * pieces.count [] =
      extent (pieceRanges pos pieces) := by
  induction pieces generalizing pos with
  | nil => rfl
  | cons piece pieces ih =>
    have hrest := ih (pos + 4 + piece.length)
    rw [extent, extent] at hrest
    cases piece with
    | nil =>
      rw [pieceRanges, List.filter_cons_of_neg (by simp), List.count_cons_self, extent, extent,
        List.map_cons, List.sum_cons]
      simp only [List.length_nil] at hrest ⊢
      omega
    | cons b piece =>
      rw [pieceRanges, List.filter_cons_of_pos (by simp), List.count_cons_of_ne (by simp), extent,
        extent, List.map_cons, List.map_cons, List.sum_cons, List.sum_cons]
      omega

theorem length_of_mem_pieceRanges {pos : ℕ} {pieces : List Bytes} {range : ℕ × ℕ}
    (h : range ∈ pieceRanges pos pieces) : ∃ piece ∈ pieces, range.2 = piece.length := by
  induction pieces generalizing pos with
  | nil => cases h
  | cons piece pieces ih =>
    rcases List.mem_cons.mp h with rfl | htail
    · exact ⟨piece, List.mem_cons_self .., rfl⟩
    · obtain ⟨later, hlater, hsize⟩ := ih htail
      exact ⟨later, List.mem_cons_of_mem _ hlater, hsize⟩

theorem joinPieces_heard (pieces : List Bytes) (h : pieces ≠ [[]]) :
    joinPieces startCode (heard pieces) = joinPieces startCode pieces := by
  fun_induction heard pieces with
  | case1 => rfl
  | case2 => exact absurd rfl h
  | case3 piece => simp [joinPieces]
  | case4 piece pieces hsingle hlast ih =>
    rw [joinPieces_cons, joinPieces_cons, ih fun heq ↦ hlast heq]

theorem heard_eq_self {pieces : List Bytes} (h : [] ∉ pieces) : heard pieces = pieces := by
  fun_induction heard pieces with
  | case1 => rfl
  | case2 => simp at h
  | case3 piece => simp at h
  | case4 piece pieces hsingle hlast ih =>
    rw [ih fun hmem ↦ h (List.mem_cons_of_mem _ hmem)]

/-- The parser finds the nonempty pieces exactly when none is empty, but for a single one. -/
theorem pieceRanges_heard_eq_iff (pos : ℕ) (pieces : List Bytes) :
    pieceRanges pos (heard pieces) =
        (pieceRanges pos pieces).filter (fun range ↦ 0 < range.2) ↔
      pieces = [[]] ∨ [] ∉ pieces := by
  constructor
  · intro heq
    by_contra! hbad
    obtain ⟨hlast, hempty⟩ := hbad
    have hcount : 0 < pieces.count [] := List.count_pos_iff.mpr hempty
    have hfilter := extent_filter_pieceRanges pos pieces
    rw [← heq, extent_pieceRanges, extent_pieceRanges, joinPieces_heard pieces hlast] at hfilter
    omega
  · rintro (rfl | hnone)
    · rfl
    · rw [heard_eq_self hnone, eq_comm, List.filter_eq_self]
      intro range hrange
      obtain ⟨piece, hpiece, hsize⟩ := length_of_mem_pieceRanges hrange
      rw [hsize, decide_eq_true_eq, List.length_pos_iff]
      rintro rfl
      exact hnone hpiece

/-! ## The condition on the buffer -/

theorem splitAll_startCode (before after : Bytes) :
    splitAll startCode (before ++ (startCode ++ after)) =
      ((splitAll startCode before).1, (splitAll startCode before).2 ++
        (splitAll startCode after).1 :: (splitAll startCode after).2) :=
  splitAll_append_pattern startCode_unbordered startCode_ne_nil before after

theorem splitAll_nil : splitAll startCode [] = ([], []) :=
  splitAll_of_cutWhen_nil rfl

theorem WellSeparated.pieces {data : Bytes} (h : WellSeparated data) :
    (splitAll startCode data).2 = [[]] ∨ [] ∉ (splitAll startCode data).2 := by
  by_contra! hbad
  obtain ⟨hlast, hempty⟩ := hbad
  have hjoin := append_joinPieces_splitAll startCode data
  obtain ⟨earlier, later, hpieces⟩ := List.append_of_mem hempty
  rw [hpieces, joinPieces_append, joinPieces_cons, List.nil_append] at hjoin
  cases later with
  | cons next later =>
    -- an empty piece between two start codes
    apply h.not_adjacent
    rw [← hjoin, joinPieces_cons]
    exact ⟨(splitAll startCode data).1 ++ joinPieces startCode earlier,
      next ++ joinPieces startCode later, by simp⟩
  | nil =>
    -- an empty piece at the end, with a start code somewhere before it
    rw [joinPieces_nil, List.append_nil, ← List.append_assoc] at hjoin
    apply h.not_last _ hjoin
    cases earlier with
    | nil => exact absurd hpieces hlast
    | cons first earlier =>
      rw [joinPieces_cons]
      exact ⟨(splitAll startCode data).1, first ++ joinPieces startCode earlier, by simp⟩

/-- An empty piece is allowed as the only piece. -/
theorem not_pieces_of_nil_mem {earlier later : List Bytes} (h : earlier ≠ [] ∨ later ≠ []) :
    ¬ (earlier ++ [] :: later = [[]] ∨ [] ∉ earlier ++ [] :: later) := by
  rintro (hsingle | hnone)
  · obtain ⟨rfl, hlater⟩ | ⟨_, hcons⟩ := List.append_eq_singleton_iff.mp hsingle
    · exact h.elim (absurd rfl) (absurd (List.cons.inj hlater).2)
    · cases hcons
  · exact hnone (List.mem_append_right _ (List.mem_cons_self ..))

theorem wellSeparated_of_pieces {data : Bytes}
    (h : (splitAll startCode data).2 = [[]] ∨ [] ∉ (splitAll startCode data).2) :
    WellSeparated data := by
  constructor
  · rintro ⟨before, after, rfl⟩
    have hdata : before ++ (startCode ++ startCode) ++ after =
        before ++ (startCode ++ ([] ++ (startCode ++ after))) := by simp
    rw [hdata, splitAll_startCode, splitAll_startCode, splitAll_nil] at h
    exact not_pieces_of_nil_mem (.inr (List.cons_ne_nil _ _)) h
  · rintro _ rfl ⟨before, after, rfl⟩
    have hdata : before ++ startCode ++ after ++ startCode =
        before ++ (startCode ++ (after ++ (startCode ++ []))) := by simp
    rw [hdata, splitAll_startCode, splitAll_startCode, splitAll_nil, ← List.cons_append,
      ← List.append_assoc] at h
    exact not_pieces_of_nil_mem (.inl (by simp)) h

/-- The condition read off the pieces. -/
theorem wellSeparated_iff (data : Bytes) :
    WellSeparated data ↔
      (splitAll startCode data).2 = [[]] ∨ [] ∉ (splitAll startCode data).2 :=
  ⟨WellSeparated.pieces, wellSeparated_of_pieces⟩

/-! ## The main result -/

/-- The packets of a nonempty unit have nonempty payloads. -/
theorem ne_nil_of_mem_nalPackets {nal : Bytes} (hne : nal ≠ []) {packet : Bytes × Bool}
    (h : packet ∈ nalPackets nal) : packet.1 ≠ [] := by
  rcases exists_of_mem_nalPackets h with ⟨hunit, -⟩ | ⟨fuHeader, body, hpayload, -⟩
  · rwa [hunit]
  · rw [hpayload]
    exact List.cons_ne_nil _ _

/-- **Splitting.** The parser splits a buffer as the reference does exactly when no two start codes
are adjacent and none is at the end of the buffer, unless it is the only one. -/
theorem splitsAtStartCodes_iff (data : Bytes) :
    SplitsAtStartCodes data ↔ WellSeparated data := by
  obtain ⟨hnalus, hranges⟩ := nalus_eq_heard data
  rw [wellSeparated_iff]
  constructor
  · intro h
    rw [← pieceRanges_heard_eq_iff (splitAll startCode data).1.length, ← hranges]
    exact h.ranges
  · intro h
    have hunits : ∀ nal ∈ nalus data, nal ∈ (splitAll startCode data).2 ∧ nal ≠ [] := by
      rw [hnalus]
      rcases h with hsingle | hnone
      · rw [hsingle]
        simp [heard]
      · rw [heard_eq_self hnone]
        intro nal hnal
        refine ⟨hnal, ?_⟩
        rintro rfl
        exact hnone hnal
    constructor
    · rw [hranges, referenceRanges]
      exact (pieceRanges_heard_eq_iff _ _).mpr h
    · intro nal hnal
      exact (not_infix_splitAll startCode_ne_nil data).2 nal (hunits nal hnal).1
    · intro toTimestamp pts s header payload hmem
      rw [parseAndSendFrame_eq] at hmem
      obtain ⟨_, _, marker, hpacket, hplanned⟩ :=
        exists_of_mem_sentPackets (fun _ ↦ length_le_of_mem_framePackets) hmem
      obtain ⟨-, rfl⟩ := Packet.rtp.inj hpacket
      obtain ⟨nal, hnal, hplanned⟩ := List.mem_flatMap.mp hplanned
      exact ne_nil_of_mem_nalPackets (hunits nal hnal).2 hplanned

/-- Two adjacent start codes give an empty unit, and a start code at the end stays in the unit
before it. -/
theorem not_splitsAtStartCodes :
    ¬ SplitsAtStartCodes [0, 0, 0, 1, 0, 0, 0, 1, 0x65] ∧
      ¬ SplitsAtStartCodes [0, 0, 0, 1, 0x65, 0, 0, 0, 1] := by
  constructor
  · intro h
    have hranges := h.ranges
    revert hranges
    decide +kernel
  · intro h
    have hranges := h.ranges
    revert hranges
    decide +kernel

end RtpSender.RtpSendingSession
