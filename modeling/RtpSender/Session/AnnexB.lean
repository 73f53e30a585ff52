import RtpSender.Session.Segmentation

/-!
# Annex B byte streams

In the byte stream format of H.264 a NAL unit stands behind the prefix `00 00 01`, and zero bytes
may stand around it: leading zeros, the zero byte that makes the prefix four bytes long, and
trailing zeros.  The parser only knows `00 00 00 01` and cuts right before it.  Of the zeros between
two units it takes one for the start code and leaves the others at the end of the unit before; units
without a zero between them stay together, and what comes before the first four-byte code is lost.
`pieces` says so for every byte stream, and the streams that come out as they went in are those with
exactly one zero between units.
-/

open RtpSender.Wire RtpSender.Delimiter

namespace RtpSender.RtpSendingSession

/-! ## The grammar -/

/-- A NAL unit as H.264 writes it, with emulation prevention and a stop bit. -/
structure AnnexBNal where
  bytes : Bytes
  ne_nil : bytes ≠ []
  no_zeros : ¬ [0x00, 0x00, 0x00] <:+: bytes
  no_prefix : ¬ [0x00, 0x00, 0x01] <:+: bytes
  no_two : ¬ [0x00, 0x00, 0x02] <:+: bytes
  last_ne_zero : bytes.getLast? ≠ some 0x00
  type_pos : 1 ≤ bytes.headD 0 &&& 0x1F
  type_le : bytes.headD 0 &&& 0x1F ≤ 23

/-- One `byte_stream_nal_unit`. -/
structure ByteStreamUnit where
  leadingZeros : ℕ
  zeroByte : Bool
  nal : AnnexBNal
  trailingZeros : ℕ

def zeros (n : ℕ) : Bytes := List.replicate n 0x00

def startCodePrefix : Bytes := [0x00, 0x00, 0x01]

/-- The zeros in front of the prefix. -/
def ByteStreamUnit.zerosBefore (unit : ByteStreamUnit) : ℕ :=
  unit.leadingZeros + unit.zeroByte.toNat

def ByteStreamUnit.bytes (unit : ByteStreamUnit) : Bytes :=
  zeros unit.zerosBefore ++ (startCodePrefix ++ (unit.nal.bytes ++ zeros unit.trailingZeros))

def byteStream (units : List ByteStreamUnit) : Bytes := units.flatMap ByteStreamUnit.bytes

/-! ## What the parser makes of it -/

/-- The pieces between four-byte start codes, when `text` and `carry` zeros have been read since the
last one. -/
def pieces : Bytes → ℕ → List ByteStreamUnit → List Bytes
  | text, carry, [] => [text ++ zeros carry]
  | text, carry, unit :: units =>
    match carry + unit.zerosBefore with
    | 0 => pieces (text ++ (startCodePrefix ++ unit.nal.bytes)) unit.trailingZeros units
    | more + 1 => (text ++ zeros more) :: pieces unit.nal.bytes unit.trailingZeros units

theorem zeros_add (m n : ℕ) : zeros m ++ zeros n = zeros (m + n) := List.replicate_append_replicate

/-- A NAL unit ends in a byte other than zero, so no start code begins inside it. -/
theorem AnnexBNal.not_startCode_prefix (nal : AnnexBNal) {x : Bytes} (hx : x ≠ [])
    (hsuffix : x <:+ nal.bytes) (rest : Bytes) : ¬ startCode <+: x ++ rest := by
  intro hoccurs
  rcases Nat.lt_or_ge x.length startCode.length with hshort | hlong
  · have hbegin : x <+: startCode :=
      List.prefix_of_prefix_length_le (List.prefix_append _ _) hoccurs hshort.le
    have hzeros : ∀ y ∈ startCode.inits, y ≠ [] → y.length < startCode.length →
        y.getLast? = some 0x00 := by decide
    have hlast := hzeros x ((List.mem_inits _ _).mpr hbegin) hx hshort
    obtain ⟨before, hbefore⟩ := hsuffix
    rw [← List.getLast?_append_of_ne_nil before hx, hbefore] at hlast
    exact nal.last_ne_zero hlast
  · have hinside : startCode <+: x :=
      List.prefix_of_prefix_length_le hoccurs (List.prefix_append _ _) hlong
    have hcode : startCodePrefix <:+: startCode := ⟨[0x00], [], rfl⟩
    exact nal.no_prefix (hcode.trans (hinside.isInfix.trans hsuffix.isInfix))

theorem cutWhen_annexBNal (nal : AnnexBNal) (rest : Bytes) :
    cutWhen startsNalu (nal.bytes ++ rest) =
      (nal.bytes ++ (cutWhen startsNalu rest).1, (cutWhen startsNalu rest).2) := by
  apply cutWhen_append
  intro x hx hsuffix
  apply startsNalu_eq_false
  exact nal.not_startCode_prefix hx hsuffix rest

/-- The three-byte prefix is passed over. -/
theorem cutWhen_startCodePrefix (rest : Bytes) :
    cutWhen startsNalu (startCodePrefix ++ rest) =
      (startCodePrefix ++ (cutWhen startsNalu rest).1, (cutWhen startsNalu rest).2) := by
  have hgo : ∀ x ∈ startCodePrefix.tails, x ≠ [] → ¬ startCode <+: x ++ rest := by
    simp [startCodePrefix, startCode, List.cons_prefix_cons]
  apply cutWhen_append
  intro x hx hsuffix
  apply startsNalu_eq_false
  exact hgo x ((List.mem_tails _ _).mpr hsuffix) hx

/-- Zeros at the end of the stream are passed over. -/
theorem cutWhen_zeros (n : ℕ) : cutWhen startsNalu (zeros n) = (zeros n, []) := by
  induction n with
  | zero => rfl
  | succ n ih =>
    have hgo : startsNalu (zeros (n + 1)) = false := by
      apply startsNalu_eq_false
      intro hoccurs
      have hone : (0x01 : UInt8) ∈ zeros (n + 1) := hoccurs.subset (by simp [startCode])
      exact absurd (List.eq_of_mem_replicate hone) (by decide)
    rw [zeros, List.replicate_succ] at hgo ⊢
    rw [cutWhen_cons_of_not_stop hgo]
    exact congrArg (fun cut ↦ (0x00 :: cut.1, cut.2)) ih

/-- Zeros in front of a four-byte start code are passed over up to the code. -/
theorem cutWhen_zeros_startCode (n : ℕ) (nal : AnnexBNal) (rest : Bytes) :
    cutWhen startsNalu (zeros n ++ (startCode ++ (nal.bytes ++ rest))) =
      (zeros n, startCode ++ (nal.bytes ++ rest)) := by
  induction n with
  | zero =>
    have hpos : 0 < nal.bytes.length := List.length_pos_iff.mpr nal.ne_nil
    apply cutWhen_of_stop
    apply startsNalu_iff.mpr
    constructor
    · simp only [zeros, List.replicate_zero, List.nil_append, List.length_append, startCode,
        List.length_cons, List.length_nil]
      omega
    · exact List.prefix_append _ _
  | succ n ih =>
    have hgo : startsNalu (zeros (n + 1) ++ (startCode ++ (nal.bytes ++ rest))) = false := by
      apply startsNalu_eq_false
      -- the fourth byte is still a zero
      rcases n with _ | _ | _ | n
      all_goals simp [zeros, startCode, List.replicate_succ, List.cons_prefix_cons]
    rw [zeros, List.replicate_succ, List.cons_append] at hgo ⊢
    rw [cutWhen_cons_of_not_stop hgo]
    exact congrArg (fun cut ↦ (0x00 :: cut.1, cut.2)) ih

theorem scanNalus_startCode (nal : AnnexBNal) (rest : Bytes) :
    scanNalus (startCode ++ (nal.bytes ++ rest)) =
      (nal.bytes ++ (cutWhen startsNalu rest).1) :: scanNalus (cutWhen startsNalu rest).2 := by
  have hcode := cutWhen_zeros_startCode 0 nal rest
  rw [zeros, List.replicate_zero, List.nil_append] at hcode
  have hne : startCode ++ (nal.bytes ++ rest) ≠ [] := List.cons_ne_nil _ _
  have hdrop : (startCode ++ (nal.bytes ++ rest)).drop 4 = nal.bytes ++ rest := rfl
  rw [scanNalus, hcode, if_neg hne, hdrop, cutWhen_annexBNal]

theorem zeros_append_byteStream (carry : ℕ) (unit : ByteStreamUnit) (units : List ByteStreamUnit) :
    zeros carry ++ byteStream (unit :: units) =
      zeros (carry + unit.zerosBefore) ++ (startCodePrefix ++ (unit.nal.bytes ++
        (zeros unit.trailingZeros ++ byteStream units))) := by
  simp only [byteStream, List.flatMap_cons, ByteStreamUnit.bytes, ← zeros_add, List.append_assoc]

/-- The scanner cuts a byte stream into its pieces. -/
theorem scanNalus_byteStream (units : List ByteStreamUnit) (text : Bytes) (carry : ℕ) :
    (text ++ (cutWhen startsNalu (zeros carry ++ byteStream units)).1) ::
        scanNalus (cutWhen startsNalu (zeros carry ++ byteStream units)).2 =
      pieces text carry units := by
  induction units generalizing text carry with
  | nil =>
    rw [byteStream, List.flatMap_nil, List.append_nil, cutWhen_zeros, scanNalus_nil, pieces]
  | cons unit units ih =>
    rw [zeros_append_byteStream, pieces]
    cases carry + unit.zerosBefore with
    | zero =>
      have hrest := ih (text ++ (startCodePrefix ++ unit.nal.bytes)) unit.trailingZeros
      rw [zeros, List.replicate_zero, List.nil_append, cutWhen_startCodePrefix, cutWhen_annexBNal]
      rw [← hrest]
      simp only [List.append_assoc]
    | succ more =>
      have hcode : zeros (more + 1) ++ (startCodePrefix ++ (unit.nal.bytes ++
          (zeros unit.trailingZeros ++ byteStream units))) =
            zeros more ++ (startCode ++ (unit.nal.bytes ++
              (zeros unit.trailingZeros ++ byteStream units))) := by
        calc zeros (more + 1) ++ (startCodePrefix ++ (unit.nal.bytes ++
              (zeros unit.trailingZeros ++ byteStream units)))
            = (zeros more ++ zeros 1) ++ (startCodePrefix ++ (unit.nal.bytes ++
                (zeros unit.trailingZeros ++ byteStream units))) := by rw [zeros_add]
          _ = zeros more ++ ((zeros 1 ++ startCodePrefix) ++ (unit.nal.bytes ++
                (zeros unit.trailingZeros ++ byteStream units))) := by
            rw [List.append_assoc, List.append_assoc]
          _ = _ := rfl
      rw [hcode, cutWhen_zeros_startCode, scanNalus_startCode, ih unit.nal.bytes unit.trailingZeros]

/-- What is packetized of a byte stream: its pieces without the one before the first start code. -/
theorem nalus_byteStream (units : List ByteStreamUnit) :
    nalus (byteStream units) = (pieces [] 0 units).tail := by
  have hpieces := scanNalus_byteStream units [] 0
  rw [zeros, List.replicate_zero, List.nil_append, List.nil_append] at hpieces
  calc nalus (byteStream units) = scanNalus (byteStream units) := nalus_eq_scanNalus _
    _ = scanNalus (cutWhen startsNalu (byteStream units)).2 := (scanNalus_cutWhen _).symm
    _ = (pieces [] 0 units).tail := by rw [← hpieces, List.tail_cons]

/-! ## The streams that come out right -/

/-- Exactly one zero before each of the units and none at the end, when `carry` zeros precede. -/
def SingleZeros : ℕ → List ByteStreamUnit → Prop
  | carry, [] => carry = 0
  | carry, unit :: units =>
    carry + unit.zerosBefore = 1 ∧ SingleZeros unit.trailingZeros units

/-- A four-byte start code in front, and one zero between units as their zero byte. -/
def FourByteCodes : List ByteStreamUnit → Prop
  | [] => True
  | unit :: units => 1 ≤ unit.zerosBefore ∧ SingleZeros unit.trailingZeros units

theorem length_pieces_le (units : List ByteStreamUnit) (text : Bytes) (carry : ℕ) :
    (pieces text carry units).length ≤ units.length + 1 := by
  induction units generalizing text carry with
  | nil => exact Nat.le_refl 1
  | cons unit units ih =>
    rw [pieces]
    cases carry + unit.zerosBefore with
    | zero => exact (ih _ _).trans (Nat.le_succ _)
    | succ more => exact Nat.succ_le_succ (ih _ _)

theorem append_zeros_eq_self_iff (text : Bytes) (n : ℕ) : text ++ zeros n = text ↔ n = 0 := by
  rw [List.append_right_eq_self, zeros, List.replicate_eq_nil_iff]

/-- The pieces behind a start code are the units exactly when single zeros separate them. -/
theorem pieces_eq_cons_iff (units : List ByteStreamUnit) (text : Bytes) (carry : ℕ) :
    pieces text carry units = text :: units.map (fun unit ↦ unit.nal.bytes) ↔
      SingleZeros carry units := by
  induction units generalizing text carry with
  | nil =>
    rw [pieces, List.map_nil, List.singleton_inj, append_zeros_eq_self_iff, SingleZeros]
  | cons unit units ih =>
    rw [pieces, SingleZeros]
    cases carry + unit.zerosBefore with
    | zero =>
      -- one piece is missing
      apply iff_of_false
      · intro heq
        have hlength := congrArg List.length heq
        have hle := length_pieces_le units (text ++ (startCodePrefix ++ unit.nal.bytes))
          unit.trailingZeros
        simp only [List.length_cons, List.length_map] at hlength
        omega
      · intro hsingle
        exact Nat.zero_ne_one hsingle.1
    | succ more =>
      rw [List.map_cons, List.cons.injEq, append_zeros_eq_self_iff, ih, Nat.add_eq_right]

/-- **Annex B.** The units of a byte stream are what is packetized exactly when the first one has a
four-byte start code, one zero stands between any two of them, and none after the last. -/
theorem nalus_byteStream_eq_iff (units : List ByteStreamUnit) :
    nalus (byteStream units) = units.map (fun unit ↦ unit.nal.bytes) ↔ FourByteCodes units := by
  rw [nalus_byteStream]
  cases units with
  | nil => exact iff_of_true rfl trivial
  | cons unit units =>
    rw [pieces, FourByteCodes, Nat.zero_add]
    cases unit.zerosBefore with
    | zero =>
      apply iff_of_false
      · intro heq
        have hlength := congrArg List.length heq
        have hle := length_pieces_le units ([] ++ (startCodePrefix ++ unit.nal.bytes))
          unit.trailingZeros
        simp only [List.length_tail, List.length_map, List.length_cons] at hlength
        omega
      · intro hcodes
        exact Nat.not_succ_le_zero 0 hcodes.1
    | succ more =>
      rw [List.tail_cons, List.map_cons, pieces_eq_cons_iff]
      exact (and_iff_right (Nat.le_add_left 1 more)).symm

/-- A unit behind `00 00 01` is not seen at all. -/
theorem nalus_byteStream_three_byte :
    ∃ unit : ByteStreamUnit, byteStream [unit] = [0x00, 0x00, 0x01, 0x65, 0x88] ∧
      nalus (byteStream [unit]) ≠ [unit.nal.bytes] :=
  ⟨⟨0, false, ⟨[0x65, 0x88], by decide, by decide, by decide, by decide, by decide, by decide,
    by decide⟩, 0⟩, rfl, by decide +kernel⟩

end RtpSender.RtpSendingSession
