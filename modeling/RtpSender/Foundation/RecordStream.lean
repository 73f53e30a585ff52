import Mathlib.Tactic.Ring

/-!
# Streams of self-delimiting records

A record code encodes records as nonempty words over some alphabet, and a reader recovers the
first record of a stream together with what follows it.  Reading a concatenation of encoded records
then gives the records back, whatever their number.  A stream is synchronised when it is such a
concatenation followed by at most one record that is cut short, which is all that a reliable
byte channel may deliver at any moment.
-/

namespace RtpSender.RecordStream

/-- An encoder with a reader that finds the end of the first record by itself. -/
structure RecordCode (α β : Type*) where
  encode : α → List β
  next : List β → Option (α × List β)
  encode_ne_nil : ∀ record, encode record ≠ []
  next_encode : ∀ record rest, next (encode record ++ rest) = some (record, rest)
  next_append : ∀ {stream record rest}, next stream = some (record, rest) →
    ∀ more, next (stream ++ more) = some (record, rest ++ more)

variable {α β : Type*} (code : RecordCode α β)

/-- Read at most `fuel` records; fail unless the stream is used up exactly. -/
def decodeFuel : ℕ → List β → Option (List α)
  | _, [] => some []
  | 0, _ :: _ => none
  | fuel + 1, stream@(_ :: _) =>
    match code.next stream with
    | none => none
    | some (record, rest) => (decodeFuel fuel rest).map (record :: ·)

/-- Every record of a stream; the length of the stream bounds the number of records. -/
def decodeAll (stream : List β) : Option (List α) :=
  decodeFuel code stream.length stream

def encodeAll (records : List α) : List β := records.flatMap code.encode

@[simp]
theorem encodeAll_nil : encodeAll code [] = [] := rfl

@[simp]
theorem encodeAll_cons (record : α) (records : List α) :
    encodeAll code (record :: records) = code.encode record ++ encodeAll code records := by
  simp [encodeAll]

theorem encodeAll_append (records records' : List α) :
    encodeAll code (records ++ records') = encodeAll code records ++ encodeAll code records' := by
  simp [encodeAll]

theorem length_le_length_encodeAll (records : List α) :
    records.length ≤ (encodeAll code records).length := by
  induction records with
  | nil => simp
  | cons record records ih =>
    have hpos : 0 < (code.encode record).length :=
      List.length_pos_iff.mpr (code.encode_ne_nil record)
    simp only [encodeAll_cons, List.length_append, List.length_cons]
    omega

theorem decodeFuel_encodeAll (records : List α) (fuel : ℕ) (hfuel : records.length ≤ fuel) :
    decodeFuel code fuel (encodeAll code records) = some records := by
  induction records generalizing fuel with
  | nil => cases fuel <;> rfl
  | cons record records ih =>
    obtain ⟨fuel, rfl⟩ : ∃ less, fuel = less + 1 :=
      ⟨fuel - 1, by simp only [List.length_cons] at hfuel; omega⟩
    have hnext := code.next_encode record (encodeAll code records)
    obtain ⟨symbol, word, hword⟩ : ∃ symbol word, code.encode record = symbol :: word :=
      List.exists_cons_of_ne_nil (code.encode_ne_nil record)
    rw [hword, List.cons_append] at hnext
    rw [encodeAll_cons, hword, List.cons_append, decodeFuel]
    simp only [hnext, ih fuel (by simpa using hfuel), Option.map_some]

/-- Reading a concatenation of encoded records gives exactly these records. -/
@[simp]
theorem decodeAll_encodeAll (records : List α) :
    decodeAll code (encodeAll code records) = some records := by
  unfold decodeAll
  apply decodeFuel_encodeAll
  exact length_le_length_encodeAll code records

theorem encodeAll_injective {records records' : List α}
    (h : encodeAll code records = encodeAll code records') : records = records' := by
  have hread := congrArg (decodeAll code) h
  rwa [decodeAll_encodeAll, decodeAll_encodeAll, Option.some.injEq] at hread

/-! ## Truncated streams -/

/-- A possibly empty beginning of a record that lacks at least one symbol. -/
def Incomplete (tail : List β) : Prop :=
  ∃ record missing, missing ≠ [] ∧ code.encode record = tail ++ missing

/-- Whole records, then at most one that is cut short. -/
def Synchronised (stream : List β) : Prop :=
  ∃ records tail, Incomplete code tail ∧ stream = encodeAll code records ++ tail

theorem incomplete_nil [Nonempty α] : Incomplete code [] := by
  obtain ⟨record⟩ := ‹Nonempty α›
  exact ⟨record, code.encode record, code.encode_ne_nil record, rfl⟩

/-- No record can be read from a part of one. -/
theorem Incomplete.next_eq_none {tail : List β} (h : Incomplete code tail) :
    code.next tail = none := by
  obtain ⟨record, missing, hmissing, hencode⟩ := h
  cases hnext : code.next tail with
  | none => rfl
  | some parts =>
    obtain ⟨record', rest⟩ := parts
    have hwhole := code.next_append hnext missing
    have hread := code.next_encode record []
    rw [List.append_nil, hencode, hwhole] at hread
    obtain ⟨-, hnil⟩ := Prod.mk.inj (Option.some.inj hread)
    exact absurd (List.append_eq_nil_iff.mp hnil).2 hmissing

/-- A receiver that reads a record from a synchronised stream is left with a synchronised one. -/
theorem Synchronised.next {stream rest : List β} {record : α} (h : Synchronised code stream)
    (hnext : code.next stream = some (record, rest)) : Synchronised code rest := by
  obtain ⟨records, tail, htail, rfl⟩ := h
  cases records with
  | nil =>
    rw [encodeAll_nil, List.nil_append, htail.next_eq_none] at hnext
    cases hnext
  | cons first records =>
    rw [encodeAll_cons, List.append_assoc, code.next_encode] at hnext
    obtain ⟨-, rfl⟩ := Prod.mk.inj (Option.some.inj hnext)
    exact ⟨records, tail, htail, rfl⟩

/-- A stream that begins like no record is out of synchronisation. -/
theorem Synchronised.exists_encode_eq_cons {symbol : β} {stream : List β}
    (h : Synchronised code (symbol :: stream)) :
    ∃ record word, code.encode record = symbol :: word := by
  obtain ⟨records, tail, ⟨record, missing, -, hencode⟩, hsplit⟩ := h
  cases records with
  | nil =>
    rw [encodeAll_nil, List.nil_append] at hsplit
    exact ⟨record, stream ++ missing, by rw [hencode, ← hsplit, List.cons_append]⟩
  | cons first records =>
    obtain ⟨symbol', word, hword⟩ := List.exists_cons_of_ne_nil (code.encode_ne_nil first)
    rw [encodeAll_cons, hword, List.append_assoc, List.cons_append] at hsplit
    rw [(List.cons.inj hsplit).1]
    exact ⟨first, word, hword⟩

end RtpSender.RecordStream
