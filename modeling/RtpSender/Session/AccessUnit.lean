import RtpSender.Session.Segmentation

/-!
# Access units with four-byte start codes

The frames that the sender is made for: NAL units free of start codes, each behind `00 00 00 01`.
The parser recovers exactly these units.  A start code cannot begin inside a unit and reach into the
next start code, since `00 00 00 01` has no border; and it is seen in front of every unit, since no
unit is empty.
-/

open RtpSender.Emitter RtpSender.Wire RtpSender.Delimiter

namespace RtpSender.RtpSendingSession

/-- A NAL unit is not empty and contains no start code. -/
structure NalUnit where
  nalHeader : UInt8
  rest : Bytes
  no_startCode : ¬ startCode <:+: nalHeader :: rest

/-- The types that RFC 6184 leaves to NAL units, as opposed to its own packet types. -/
def NalUnit.Typed (nal : NalUnit) : Prop :=
  1 ≤ nal.nalHeader &&& 0x1F ∧ nal.nalHeader &&& 0x1F ≤ 23

def NalUnit.bytes (nal : NalUnit) : Bytes := nal.nalHeader :: nal.rest

/-- The buffer of a frame that holds the given units. -/
def frameBytes (nals : List NalUnit) : Bytes := nals.flatMap fun nal ↦ startCode ++ nal.bytes

/-- A frame as an encoder hands it over: its units, its time and the clock while it is sent. -/
structure AccessUnit where
  nals : List NalUnit
  pts : ℤ
  now : Timeval

def AccessUnit.input (unit : AccessUnit) : FrameInput :=
  ⟨frameBytes unit.nals, unit.pts, unit.now⟩

theorem frameBytes_cons (nal : NalUnit) (nals : List NalUnit) :
    frameBytes (nal :: nals) = startCode ++ (nal.bytes ++ frameBytes nals) := by
  simp [frameBytes]

theorem startCode_unbordered : Unbordered startCode := by
  have hall : ∀ x ∈ startCode.inits, x ≠ [] → x <:+ startCode → x = startCode := by decide
  intro x hx hprefix
  exact hall x ((List.mem_inits _ _).mpr hprefix) hx

theorem startsNalu_frameBytes (nal : NalUnit) (nals : List NalUnit) :
    startsNalu (frameBytes (nal :: nals)) = true := by
  rw [frameBytes_cons, startsNalu_iff]
  refine ⟨?_, List.prefix_append _ _⟩
  simp only [List.length_append, startCode, NalUnit.bytes, List.length_cons, List.length_nil]
  omega

theorem cutWhen_frameBytes (nals : List NalUnit) :
    cutWhen startsNalu (frameBytes nals) = ([], frameBytes nals) := by
  cases nals with
  | nil => rfl
  | cons nal nals => exact cutWhen_of_stop (startsNalu_frameBytes nal nals)

/-- The search behind a start code stops at the end of its unit. -/
theorem cutWhen_nal_append (nal : NalUnit) (nals : List NalUnit) :
    cutWhen startsNalu (nal.bytes ++ frameBytes nals) = (nal.bytes, frameBytes nals) := by
  have hgo : ∀ x, x ≠ [] → x <:+ nal.bytes → startsNalu (x ++ frameBytes nals) = false := by
    intro x hx hsuffix
    rw [Bool.eq_false_iff, ne_eq, startsNalu_iff]
    rintro ⟨-, hoccurs⟩
    cases nals with
    | nil =>
      rw [frameBytes, List.flatMap_nil, List.append_nil] at hoccurs
      exact not_prefix_of_suffix nal.no_startCode hsuffix hoccurs
    | cons next nals =>
      rw [frameBytes_cons] at hoccurs
      exact startCode_unbordered.not_prefix_append nal.no_startCode hx hsuffix _ hoccurs
  rw [cutWhen_append _ _ hgo, cutWhen_frameBytes, List.append_nil]

theorem nalus_frameBytes (nals : List NalUnit) :
    nalus (frameBytes nals) = nals.map NalUnit.bytes := by
  rw [nalus_eq_scanNalus]
  induction nals with
  | nil =>
    rw [scanNalus, if_pos]
    · rfl
    · rfl
  | cons nal nals ih =>
    have hne : frameBytes (nal :: nals) ≠ [] := by
      rw [frameBytes_cons]
      exact List.cons_ne_nil _ _
    have hdrop : (frameBytes (nal :: nals)).drop 4 = nal.bytes ++ frameBytes nals := by
      rw [frameBytes_cons]
      rfl
    rw [scanNalus, cutWhen_frameBytes, if_neg hne, hdrop, cutWhen_nal_append, List.map_cons, ← ih]

end RtpSender.RtpSendingSession
