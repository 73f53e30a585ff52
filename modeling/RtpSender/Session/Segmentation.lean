import RtpSender.Foundation.Delimiter
import RtpSender.Session.Fragmentation

/-!
# Segmentation of frames

`parseAndSendFrame` hands ranges of its buffer to `packetizeAndSendNalu`.  `naluRanges` runs the
same loops and records the ranges; the bytes in them are those that a scanner over lists cuts out,
one that stops at `00 00 00 01` wherever at least one byte follows.  The whole function is then an
iteration of `sendRtpPacket` over packets that are known before the first one is sent.
-/

open RtpSender.Emitter RtpSender.Wire RtpSender.Delimiter

namespace RtpSender.RtpSendingSession

/-! ## The ranges -/

/-- Start and size of every range that the loop of `parseAndSendFrame` packetizes from `pos` on. -/
def naluRanges (data : Bytes) (pos : ℕ) : List (ℕ × ℕ) :=
  if hpos : pos + 4 < data.length then
    if startCodeAt data pos then
      have hend : pos + 4 ≤ findEnd data (pos + 4) := le_findEnd data (pos + 4) hpos.le
      (pos + 4, findEnd data (pos + 4) - (pos + 4)) :: naluRanges data (findEnd data (pos + 4))
    else naluRanges data (pos + 1)
  else []
termination_by data.length - pos

theorem naluRanges_of_startCode {data : Bytes} {pos : ℕ} (hpos : pos + 4 < data.length)
    (hcode : startCodeAt data pos = true) :
    naluRanges data pos =
      (pos + 4, findEnd data (pos + 4) - (pos + 4)) :: naluRanges data (findEnd data (pos + 4)) := by
  rw [naluRanges.eq_def data pos, dif_pos hpos, if_pos hcode]

theorem findEnd_le (data : Bytes) (i : ℕ) (hi : i ≤ data.length) :
    findEnd data i ≤ data.length := by
  fun_induction findEnd data i with
  | case1 i hlt => omega
  | case2 i hlt _ ih => exact ih (by omega)
  | case3 => exact Nat.le_refl _

/-- Every range starts inside the buffer and ends there. -/
theorem naluRanges_bounds {data : Bytes} {pos : ℕ} {range : ℕ × ℕ}
    (h : range ∈ naluRanges data pos) :
    range.1 < data.length ∧ range.1 + range.2 ≤ data.length := by
  fun_induction naluRanges data pos with
  | case1 pos hpos _ hend ih =>
    have hlast := findEnd_le data (pos + 4) (by omega)
    rcases List.mem_cons.mp h with rfl | htail
    · exact ⟨hpos, by omega⟩
    · exact ih htail
  | case2 pos hpos _ ih => exact ih h
  | case3 => simp at h

/-- A range starts behind the start code that introduces it. -/
theorem le_start_of_mem_naluRanges {data : Bytes} {pos : ℕ} {range : ℕ × ℕ}
    (h : range ∈ naluRanges data pos) : pos + 4 ≤ range.1 := by
  fun_induction naluRanges data pos with
  | case1 pos hpos _ hend ih =>
    rcases List.mem_cons.mp h with rfl | htail
    · exact Nat.le_refl _
    · have hlater := ih htail
      omega
  | case2 pos hpos _ ih =>
    have hlater := ih h
    omega
  | case3 => simp at h

/-- The ranges are disjoint and in order; a start code lies between any two. -/
theorem naluRanges_pairwise (data : Bytes) (pos : ℕ) :
    (naluRanges data pos).Pairwise fun range later ↦ range.1 + range.2 + 4 ≤ later.1 := by
  fun_induction naluRanges data pos with
  | case1 pos hpos _ hend ih =>
    apply List.Pairwise.cons _ ih
    intro later hlater
    have hstart := le_start_of_mem_naluRanges hlater
    omega
  | case2 pos hpos _ ih => exact ih
  | case3 => exact .nil

theorem sendRtpPackets_basePts (packets : List (Bytes × Bool)) (timestamp : UInt32) (s : Session) :
    (sendRtpPackets packets timestamp s).1.basePts = s.basePts := by
  have hkeep : Preserves (fun (state : Session) (_ : List Syscall) ↦ state.basePts = s.basePts)
      (sendRtpPackets packets timestamp) :=
    preserves_forEach fun _ _ _ _ h ↦ h
  exact hkeep s [] rfl

/-- The bytes of a range. -/
def slice (data : Bytes) (range : ℕ × ℕ) : Bytes := (data.drop range.1).take range.2

variable (toTimestamp : ℤ → UInt32)

theorem parseLoop_of_startCode {data : Bytes} {pos : ℕ} (hpos : pos + 4 < data.length)
    (hcode : startCodeAt data pos = true) (pts : ℤ) :
    parseLoop toTimestamp data pts pos =
      andThen
        (fun s ↦ packetizeAndSendNalu (data.drop (pos + 4)) (findEnd data (pos + 4) - (pos + 4))
          (toTimestamp (pts - s.basePts)) s)
        (parseLoop toTimestamp data pts (findEnd data (pos + 4))) := by
  rw [parseLoop.eq_def toTimestamp data pts pos, dif_pos hpos, if_pos hcode]

/-- The loop packetizes its ranges one by one; the time base does not move meanwhile. -/
theorem parseLoop_eq (data : Bytes) (pts : ℤ) (pos : ℕ) (s : Session) :
    parseLoop toTimestamp data pts pos s =
      sendRtpPackets (((naluRanges data pos).map (slice data)).flatMap nalPackets)
        (toTimestamp (pts - s.basePts)) s := by
  fun_induction naluRanges data pos generalizing s with
  | case1 pos hpos hcode hend ih =>
    have hbounds := findEnd_le data (pos + 4) (by omega)
    have hsize : findEnd data (pos + 4) - (pos + 4) ≤ (data.drop (pos + 4)).length := by
      rw [List.length_drop]
      omega
    have hround : parseLoop toTimestamp data pts pos s =
        andThen
          (sendRtpPackets
            (nalPackets (slice data (pos + 4, findEnd data (pos + 4) - (pos + 4))))
            (toTimestamp (pts - s.basePts)))
          (parseLoop toTimestamp data pts (findEnd data (pos + 4))) s := by
      rw [parseLoop_of_startCode toTimestamp hpos hcode, andThen_apply,
        packetizeAndSendNalu_eq _ _ _ hsize]
      rfl
    rw [hround, andThen_apply, ih, sendRtpPackets_basePts, ← andThen_apply, List.map_cons,
      List.flatMap_cons]
    simp only [sendRtpPackets, forEach_append]
  | case2 pos hpos hcode ih =>
    rw [parseLoop, dif_pos hpos, if_neg hcode, ih]
  | case3 pos hpos =>
    rw [parseLoop, dif_neg hpos]
    rfl

/-! ## The scanner over lists -/

def startCode : Bytes := [0x00, 0x00, 0x00, 0x01]

/-- A start code with room for a NAL unit behind it. -/
def startsNalu (stream : Bytes) : Bool := 4 < stream.length && startCode.isPrefixOf stream

theorem startsNalu_iff {stream : Bytes} :
    startsNalu stream = true ↔ 4 < stream.length ∧ startCode <+: stream := by
  simp [startsNalu]

/-- Skip to a start code, take what follows up to the next one, and go on from there. -/
def scanNalus (stream : Bytes) : List Bytes :=
  if (cutWhen startsNalu stream).2 = [] then []
  else
    let cut := cutWhen startsNalu ((cutWhen startsNalu stream).2.drop 4)
    cut.1 :: scanNalus cut.2
termination_by stream.length
decreasing_by
  have hlength := @length_cutWhen_fst _ startsNalu
  have hfound := hlength stream
  have hrest := hlength ((cutWhen startsNalu stream).2.drop 4)
  have hpos : 0 < (cutWhen startsNalu stream).2.length := List.length_pos_iff.mpr ‹_›
  rw [List.length_drop] at hrest
  omega

theorem startCodeAt_iff (data : Bytes) (pos : ℕ) :
    startCodeAt data pos = true ↔ startCode <+: data.drop pos := by
  have hread (k : ℕ) : data[pos + k]? = (data.drop pos)[k]? := List.getElem?_drop.symm
  have hread₀ : data[pos]? = (data.drop pos)[0]? := hread 0
  simp only [startCodeAt, hread₀, hread 1, hread 2, hread 3, startCode, Bool.and_eq_true,
    beq_iff_eq]
  generalize data.drop pos = stream
  match stream with
  | [] => simp
  | [_] => simp
  | [_, _] => simp
  | [_, _, _] => simp
  | a :: b :: c :: d :: rest => simp [List.cons_prefix_cons, and_assoc, eq_comm]

theorem startsNalu_drop (data : Bytes) (pos : ℕ) (hpos : pos + 4 < data.length) :
    startsNalu (data.drop pos) = startCodeAt data pos := by
  rw [Bool.eq_iff_iff, startsNalu_iff, startCodeAt_iff, List.length_drop]
  constructor
  · exact And.right
  · intro h
    exact ⟨by omega, h⟩

theorem startsNalu_eq_false {stream : Bytes} (h : ¬ startCode <+: stream) :
    startsNalu stream = false := by
  rw [Bool.eq_false_iff, ne_eq, startsNalu_iff]
  intro hstarts
  exact h hstarts.2

theorem startsNalu_short {stream : Bytes} (h : stream.length ≤ 4) : startsNalu stream = false := by
  rw [Bool.eq_false_iff, ne_eq, startsNalu_iff]
  omega

theorem cutWhen_short {stream : Bytes} (h : stream.length ≤ 4) :
    cutWhen startsNalu stream = (stream, []) := by
  have hgo : ∀ x, x ≠ [] → x <:+ stream → startsNalu (x ++ []) = false := by
    intro x _ hsuffix
    rw [List.append_nil]
    exact startsNalu_short (hsuffix.length_le.trans h)
  simpa using cutWhen_append stream [] hgo

theorem scanNalus_nil : scanNalus [] = [] := by
  rw [scanNalus, cutWhen_nil, if_pos rfl]

/-- The scanner starts with the first start code. -/
theorem scanNalus_cutWhen (stream : Bytes) :
    scanNalus (cutWhen startsNalu stream).2 = scanNalus stream := by
  by_cases hnone : (cutWhen startsNalu stream).2 = []
  · rw [hnone, scanNalus_nil, scanNalus, if_pos hnone]
  · have hfound := cutWhen_of_stop (stop_cutWhen_snd stream hnone)
    rw [scanNalus, scanNalus, hfound]

/-- The inner search finds where the scanner cuts. -/
theorem cutWhen_drop (data : Bytes) (i : ℕ) (hi : i ≤ data.length) :
    cutWhen startsNalu (data.drop i) =
      ((data.drop i).take (findEnd data i - i), data.drop (findEnd data i)) := by
  fun_induction findEnd data i with
  | case1 i hlt hcode =>
    have hstop : startsNalu (data.drop i) = true := by rw [startsNalu_drop data i hlt, hcode]
    rw [cutWhen_of_stop hstop, Nat.sub_self, List.take_zero]
  | case2 i hlt hcode ih =>
    have hgo : startsNalu (data.drop i) = false := by
      rw [startsNalu_drop data i hlt, Bool.eq_false_iff]
      exact hcode
    have hend := le_findEnd data (i + 1) (by omega)
    have hsplit : findEnd data (i + 1) - i = (findEnd data (i + 1) - (i + 1)) + 1 := by omega
    rw [List.drop_eq_getElem_cons (by omega : i < data.length)] at hgo ⊢
    rw [cutWhen_cons_of_not_stop hgo, ih (by omega), hsplit, List.take_succ_cons]
  | case3 i hlt =>
    have hshort : (data.drop i).length ≤ 4 := by rw [List.length_drop]; omega
    rw [cutWhen_short hshort, List.take_of_length_le (by rw [List.length_drop]), List.drop_length]

/-- At a start code the scanner cuts out the range that ends where the inner search does. -/
theorem scanNalus_drop (data : Bytes) {pos : ℕ} (hpos : pos + 4 < data.length)
    (hcode : startCodeAt data pos = true) :
    scanNalus (data.drop pos) =
      slice data (pos + 4, findEnd data (pos + 4) - (pos + 4)) ::
        scanNalus (data.drop (findEnd data (pos + 4))) := by
  have hstop : startsNalu (data.drop pos) = true := by rw [startsNalu_drop data pos hpos, hcode]
  have hne : data.drop pos ≠ [] := by
    rw [ne_eq, List.drop_eq_nil_iff]
    omega
  rw [scanNalus, cutWhen_of_stop hstop, if_neg hne, List.drop_drop,
    cutWhen_drop data (pos + 4) (by omega)]
  rfl

/-- The recorded ranges hold what the scanner cuts out of the rest of the buffer. -/
theorem map_slice_naluRanges (data : Bytes) (pos : ℕ) :
    (naluRanges data pos).map (slice data) = scanNalus (data.drop pos) := by
  fun_induction naluRanges data pos with
  | case1 pos hpos hcode hend ih =>
    rw [scanNalus_drop data hpos hcode, List.map_cons, ih]
  | case2 pos hpos hcode ih =>
    have hgo : startsNalu (data.drop pos) = false := by
      rw [startsNalu_drop data pos hpos, Bool.eq_false_iff]
      exact hcode
    have hskip : (cutWhen startsNalu (data.drop pos)).2 =
        (cutWhen startsNalu (data.drop (pos + 1))).2 := by
      rw [List.drop_eq_getElem_cons (by omega : pos < data.length)] at hgo ⊢
      rw [cutWhen_cons_of_not_stop hgo]
    rw [ih, scanNalus, scanNalus, hskip]
  | case3 pos hpos =>
    have hshort : (data.drop pos).length ≤ 4 := by rw [List.length_drop]; omega
    rw [scanNalus, cutWhen_short hshort, if_pos rfl, List.map_nil]

/-! ## The packets of a frame -/

/-- The NAL units that `parseAndSendFrame` packetizes. -/
def nalus (data : Bytes) : List Bytes := (naluRanges data 0).map (slice data)

theorem nalus_eq_scanNalus (data : Bytes) : nalus data = scanNalus data := by
  rw [nalus, map_slice_naluRanges, List.drop_zero]

/-- Payloads and markers of the packets of one frame. -/
def framePackets (data : Bytes) : List (Bytes × Bool) := (nalus data).flatMap nalPackets

theorem parseAndSendFrame_eq (data : Bytes) (pts : ℤ) (s : Session) :
    parseAndSendFrame toTimestamp data pts s =
      sendRtpPackets (framePackets data) (toTimestamp (pts - s.basePts)) s :=
  parseLoop_eq toTimestamp data pts 0 s

end RtpSender.RtpSendingSession
