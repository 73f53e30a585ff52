import Mathlib.Data.List.TakeWhile
import RtpSender.Session.Sockets

/-!
# Where a session connects to

`createSockets` does not look at the result of `inet_pton`, and `htons` cuts the port to 16 bits.
An address that is no dotted quad leaves the zeroed `servAddr` as it is, that is `0.0.0.0`, and a
port outside the range becomes another port.  When the system calls succeed, `start` then reports
success for a connection that nobody asked for.  A descriptor from an earlier `start` stays open
even when this one fails.
-/

open RtpSender.Emitter RtpSender.Wire

namespace RtpSender.RtpSendingSession

/-- A dotted quad and a port of 16 bits. -/
def ValidEndpoint (ip : String) (port : ℤ) : Prop :=
  (inetPton ip.toList).isSome ∧ 0 ≤ port ∧ port ≤ 65535

/-- `start` reports success for the endpoint it was given only.  If there is none, it fails and
neither its own descriptor nor the one in `tcpSock_` is open behind it. -/
structure ConnectsAsTold (ip : String) (port : ℤ) (streamId : String) (outcome : StartOutcome)
    (s : Session) : Prop where
  endpoint : (start ip port streamId outcome s).2 = true →
    ∃ fd address port', inetPton ip.toList = some address ∧ (port'.toNat : ℤ) = port ∧
      .connect fd address port' true ∈ (start ip port streamId outcome s).1.2 ∧
      (start ip port streamId outcome s).1.1.tcpSock = some fd
  fails : ¬ ValidEndpoint ip port → (start ip port streamId outcome s).2 = false ∧
    (start ip port streamId outcome s).1.1.tcpSock = none ∧
    (start ip port streamId outcome s).1.2.foldl Syscall.openAfter s.tcpSock.toList = []

/-! ## The address -/

theorem mem_splitOn {α : Type*} [BEq α] [LawfulBEq α] {separator a : α} {list : List α}
    (hmem : a ∈ list) (hne : a ≠ separator) : ∃ field ∈ list.splitOn separator, a ∈ field := by
  have hjoined : a ∈ [separator].intercalate (list.splitOn separator) := by
    rwa [List.intercalate_splitOn]
  generalize list.splitOn separator = fields at hjoined
  induction fields with
  | nil => cases hjoined
  | cons field fields ih =>
    cases fields with
    | nil =>
      rw [List.intercalate_singleton] at hjoined
      exact ⟨field, List.mem_cons_self .., hjoined⟩
    | cons next fields =>
      rw [List.intercalate_cons_cons] at hjoined
      rcases List.mem_append.mp hjoined with hfirst | hrest
      · rcases List.mem_append.mp hfirst with hfield | hseparator
        · exact ⟨field, List.mem_cons_self .., hfield⟩
        · exact absurd (List.mem_singleton.mp hseparator) hne
      · obtain ⟨found, hfound, ha⟩ := ih hrest
        exact ⟨found, List.mem_cons_of_mem _ hfound, ha⟩

theorem isDigit_of_dottedField {digits : List Char} {value : ℕ}
    (h : dottedField digits = some value) : ∀ digit ∈ digits, digit.isDigit = true := by
  simp only [dottedField] at h
  split at h
  · next hvalid => exact List.all_eq_true.mp hvalid.1
  · cases h

theorem isSome_of_mem_of_mapM {α β : Type*} {f : α → Option β} {as : List α} {bs : List β}
    (h : as.mapM f = some bs) : ∀ a ∈ as, ∃ b, f a = some b := by
  induction as generalizing bs with
  | nil => simp
  | cons a as ih =>
    rw [List.mapM_cons] at h
    obtain ⟨b, hb, hrest⟩ := Option.bind_eq_some_iff.mp h
    obtain ⟨bs', hbs', -⟩ := Option.bind_eq_some_iff.mp hrest
    intro a' ha'
    rcases List.mem_cons.mp ha' with rfl | hmem
    · exact ⟨b, hb⟩
    · exact ih hbs' a' hmem

/-- A dotted quad has no null character, so `inet_pton` sees all of it. -/
theorem cStr_of_inetPton {ip : String} {address : UInt32}
    (h : inetPton ip.toList = some address) : cStr ip = ip.toList := by
  apply List.takeWhile_eq_self_iff.mpr
  intro char hchar
  by_cases hdot : char = '.'
  · rw [hdot]
    rfl
  · obtain ⟨field, hfield, hmem⟩ := mem_splitOn hchar hdot
    unfold inetPton at h
    cases hfields : (ip.toList.splitOn '.').mapM dottedField with
    | none =>
      rw [hfields] at h
      cases h
    | some values =>
      obtain ⟨value, hvalue⟩ := isSome_of_mem_of_mapM hfields field hfield
      have hdigit := isDigit_of_dottedField hvalue char hmem
      have hlow : '0'.toNat ≤ char.toNat := (Char.isDigit_iff_toNat.mp hdigit).1
      have hzero : '0'.toNat = 48 := rfl
      rw [bne_iff_ne]
      omega

/-! ## The connection -/

variable (ip : String) (port : ℤ) (streamId : String) (outcome : StartOutcome) (s : Session)

theorem toNat_ofInt_port {port : ℤ} (hlow : 0 ≤ port) (hhigh : port ≤ 65535) :
    ((UInt16.ofInt port).toNat : ℤ) = port := by
  unfold UInt16.ofInt
  rw [UInt16.toNat_ofNat']
  omega

/-- **Endpoints.** `start` connects where it was told or fails exactly when the address is a dotted
quad and the port has 16 bits, or `socket` or `connect` fails anyway and no descriptor was left
over. -/
theorem connectsAsTold_iff :
    ConnectsAsTold ip port streamId outcome s ↔
      ValidEndpoint ip port ∨ (outcome.sock = none ∧ s.tcpSock = none) := by
  constructor
  · intro h
    by_contra! hbad
    obtain ⟨hinvalid, hsock⟩ := hbad
    have hopen := (h.fails hinvalid).2.2
    rw [foldl_openAfter_start, List.append_eq_nil_iff] at hopen
    exact hsock (Option.toList_eq_nil_iff.mp hopen.1) (Option.toList_eq_nil_iff.mp hopen.2)
  · intro h
    constructor
    · intro hstarted
      obtain ⟨fd, hfd⟩ := (start_eq_true_iff ..).mp hstarted
      obtain ⟨hip, hlow, hhigh⟩ : ValidEndpoint ip port :=
        h.resolve_right (by rw [hfd]; exact fun hnone ↦ Option.some_ne_none fd hnone.1)
      obtain ⟨address, haddress⟩ := Option.isSome_iff_exists.mp hip
      have hconnect := connect_mem_start ip port streamId s hfd
      rw [cStr_of_inetPton haddress, haddress, Option.getD_some] at hconnect
      refine ⟨fd, address, UInt16.ofInt port, haddress, toNat_ofInt_port hlow hhigh, hconnect, ?_⟩
      rw [start_tcpSock, hfd]
    · intro hinvalid
      obtain ⟨hnone, hclosed⟩ := h.resolve_left hinvalid
      refine ⟨?_, ?_, ?_⟩
      · rw [Bool.eq_false_iff, ne_eq, start_eq_true_iff, hnone]
        rintro ⟨fd, hfd⟩
        cases hfd
      · rw [start_tcpSock, hnone]
      · rw [foldl_openAfter_start, hnone, hclosed]
        rfl

/-- Neither the name `localhost` nor the port `74536` is looked at: `start` connects to port `9000`
of the address zero. -/
theorem not_connectsAsTold_localhost :
    ¬ ConnectsAsTold "localhost" 74536 "cam00" ⟨7, by decide, some 3, true⟩
        (Session.construct 0 0) ∧
      (start "localhost" 74536 "cam00" ⟨7, by decide, some 3, true⟩ (Session.construct 0 0)).1.2 =
        [.socket (some 3), .connect 3 0 9000 true] := by
  refine ⟨fun h ↦ ?_, by decide +kernel⟩
  obtain ⟨_, address, _, haddress, -⟩ := h.endpoint rfl
  have hnone : inetPton "localhost".toList = none := by decide +kernel
  rw [hnone] at haddress
  cases haddress

end RtpSender.RtpSendingSession
