import RtpSender.Foundation.Emitter
import RtpSender.Foundation.RecordStream

/-!
# Reading records as they arrive

A byte channel delivers a stream in chunks that need not respect the records.  A reader keeps the
symbols that make no whole record yet and takes them up again with the next chunk.  On a
synchronised stream it finds the same records however the stream is cut into chunks.
-/

open RtpSender.Emitter

namespace RtpSender.RecordStream

variable {α β : Type*} (code : RecordCode α β)

/-- The records at the front of a stream, at most `fuel` of them, and what is left. -/
def readFuel : ℕ → List β → List α × List β
  | 0, stream => ([], stream)
  | fuel + 1, stream =>
    match code.next stream with
    | none => ([], stream)
    | some (record, rest) =>
      let (records, left) := readFuel fuel rest
      (record :: records, left)

/-- Take up a chunk: the state is what is left of the chunks before. -/
def readChunk (chunk : List β) : Emit (List β) α := fun unread ↦
  let (records, left) := readFuel code (unread ++ chunk).length (unread ++ chunk)
  (left, records)

def readChunks (chunks : List (List β)) : Emit (List β) α := forEach (readChunk code) chunks

variable {code}

theorem readFuel_encodeAll {records : List α} {tail : List β} (htail : Incomplete code tail)
    {fuel : ℕ} (hfuel : records.length ≤ fuel) :
    readFuel code fuel (encodeAll code records ++ tail) = (records, tail) := by
  induction records generalizing fuel with
  | nil =>
    rw [encodeAll_nil, List.nil_append]
    cases fuel with
    | zero => rfl
    | succ fuel => rw [readFuel, htail.next_eq_none]
  | cons record records ih =>
    cases fuel with
    | zero => exact absurd hfuel (Nat.not_succ_le_zero _)
    | succ fuel =>
      rw [encodeAll_cons, List.append_assoc, readFuel, code.next_encode]
      simp only [ih (Nat.le_of_succ_le_succ hfuel)]

theorem readChunk_of_eq {unread chunk tail : List β} {records : List α}
    (htail : Incomplete code tail) (h : unread ++ chunk = encodeAll code records ++ tail) :
    readChunk code chunk unread = (tail, records) := by
  have hfuel : records.length ≤ (unread ++ chunk).length := by
    have hlength := length_le_length_encodeAll code records
    rw [h, List.length_append]
    omega
  unfold readChunk
  rw [h] at hfuel ⊢
  rw [readFuel_encodeAll htail hfuel]

theorem Incomplete.of_prefix {tail front : List β} (h : Incomplete code tail)
    (hfront : front <+: tail) : Incomplete code front := by
  obtain ⟨record, missing, hmissing, hencode⟩ := h
  obtain ⟨rest, rfl⟩ := hfront
  refine ⟨record, rest ++ missing, ?_, by rw [hencode, List.append_assoc]⟩
  exact fun hnil ↦ hmissing (List.append_eq_nil_iff.mp hnil).2

/-- A synchronised stream can be cut anywhere. -/
theorem exists_cut {records : List α} {tail front back : List β} (htail : Incomplete code tail)
    (h : front ++ back = encodeAll code records ++ tail) :
    ∃ earlier later part, records = earlier ++ later ∧ Incomplete code part ∧
      front = encodeAll code earlier ++ part ∧ part ++ back = encodeAll code later ++ tail := by
  induction records generalizing front with
  | nil =>
    rw [encodeAll_nil, List.nil_append] at h
    exact ⟨[], [], front, rfl, htail.of_prefix ⟨back, h⟩, rfl, h⟩
  | cons record records ih =>
    rw [encodeAll_cons, List.append_assoc] at h
    by_cases hshort : front.length < (code.encode record).length
    · -- the cut is inside the first record
      have hprefix : front <+: code.encode record :=
        List.prefix_of_prefix_length_le ⟨back, h⟩ ⟨_, rfl⟩ hshort.le
      obtain ⟨missing, hmissing⟩ := hprefix
      refine ⟨[], record :: records, front, rfl, ⟨record, missing, ?_, hmissing.symm⟩, rfl, ?_⟩
      · rintro rfl
        rw [List.append_nil] at hmissing
        exact absurd (congrArg List.length hmissing) hshort.ne
      · rw [h, encodeAll_cons, List.append_assoc]
    · have hprefix : code.encode record <+: front :=
        List.prefix_of_prefix_length_le ⟨_, rfl⟩ ⟨back, h⟩ (Nat.le_of_not_lt hshort)
      obtain ⟨rest, rfl⟩ := hprefix
      rw [List.append_assoc] at h
      obtain ⟨earlier, later, part, rfl, hpart, rfl, hback⟩ := ih (List.append_cancel_left h)
      refine ⟨record :: earlier, later, part, rfl, hpart, ?_, hback⟩
      rw [encodeAll_cons, List.append_assoc]

/-- A reader that has kept `unread` finds the records of the whole stream. -/
theorem readChunks_of_eq {chunks : List (List β)} {unread tail : List β} {records : List α}
    (htail : Incomplete code tail) (hunread : Incomplete code unread)
    (h : unread ++ chunks.flatten = encodeAll code records ++ tail) :
    readChunks code chunks unread = (tail, records) := by
  induction chunks generalizing unread records with
  | nil =>
    rw [List.flatten_nil, List.append_nil] at h
    cases records with
    | nil =>
      rw [encodeAll_nil, List.nil_append] at h
      rw [readChunks, forEach_nil, skip_apply, h]
    | cons record records =>
      have hnone := hunread.next_eq_none
      rw [h, encodeAll_cons, List.append_assoc, code.next_encode] at hnone
      cases hnone
  | cons chunk chunks ih =>
    rw [List.flatten_cons, ← List.append_assoc] at h
    obtain ⟨earlier, later, part, rfl, hpart, hfront, hback⟩ := exists_cut htail h
    unfold readChunks at ih ⊢
    rw [forEach_cons, andThen_apply, readChunk_of_eq hpart hfront, ih hpart hback]

end RtpSender.RecordStream
