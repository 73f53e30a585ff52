import RtpSender.Main.Dispatch
import RtpSender.Session.Sockets

/-!
# The process

The whole of `main` on the `Updated upstream` side: its arguments, the loop that starts the
sessions, the reader, the dispatch loop, and the destructors that run on every way out.  What the
world decides is an argument: the results of `start` and of every `send`, whether the reader opens,
and the records that it returns before it fails.

The process may also end in the midst of what it does, and then no destructor runs.  A `send` on a
connection that the peer has closed raises `SIGPIPE`, since its flags are 0 and nothing handles the
signal.  Any other signal, or an exception that nothing catches, may come at any time; with no
handler for an exception the stack is not unwound.
-/

open RtpSender.Emitter RtpSender.Wire
open RtpSender.RtpSendingSession RtpSender.Source

namespace RtpSender.Main

/-! ## An undisturbed process -/

inductive Abort where
  /-- An exception that nothing catches. -/
  | uncaught
  | signal
  deriving DecidableEq

inductive Exit where
  | code (status : ℕ)
  | aborted (cause : Abort)
  deriving DecidableEq

/-- What the transport makes of a `send` on a connection. -/
inductive SendResult where
  | whole
  | part (bytes : ℕ)
  | failed
  /-- The signal that ends the process. -/
  | sigpipe
  deriving DecidableEq

/-- What the process gets from outside.  The members of a session without initialisers are
arbitrary, and connections that are open at the same time have different descriptors. -/
structure World (channels : ℕ) where
  rtpPort : Fin channels → ℤ
  rtpSsrc : Fin channels → UInt32
  outcomes : Fin channels → StartOutcome
  distinct : ∀ chn chn' fd,
    (outcomes chn).sock = some fd → (outcomes chn').sock = some fd → chn = chn'
  opened : Bool
  records : List Record
  /-- The results of the calls of `send` in their order; all later ones take the whole buffer. -/
  sends : List SendResult
  /-- After how many effects something other than a `send` ends the process, if anything does. -/
  abort : Option (ℕ × Abort)

/-- The characters that `isspace` accepts. -/
def isSpace (char : Char) : Bool := char == ' ' || (9 ≤ char.toNat && char.toNat ≤ 13)

/-- `std::stoi`; `none` stands for its two exceptions. -/
def stoi (text : String) : Option ℤ :=
  let (negative, rest) := match (cStr text).dropWhile isSpace with
    | '-' :: rest => (true, rest)
    | '+' :: rest => (false, rest)
    | rest => (false, rest)
  let digits := rest.takeWhile Char.isDigit
  let magnitude : ℤ := digits.foldl (fun value digit ↦ value * 10 + (digit.toNat - '0'.toNat : ℕ)) 0
  let value := if negative then -magnitude else magnitude
  if digits = [] then none
  else if -2147483648 ≤ value ∧ value ≤ 2147483647 then some value
  else none

variable {channels : ℕ}

def stopSession (chn : Fin channels) : Emit (Program channels) (Effect channels) := fun program ↦
  let (session, calls) := stop (program.sessions chn)
  ({ program with sessions := Function.update program.sessions chn session },
    calls.map fun call ↦ .act (.syscall chn call))

/-- The last loop of `main`; the destructors of the sessions do the same. -/
def stopSessions : Emit (Program channels) (Effect channels) :=
  forEach stopSession (List.finRange channels)

variable (toTimestamp : ℤ → UInt32)

/-- What `main` does between the construction and the destruction of the sessions. -/
def serve (world : World channels) (inputFile serverIp : String) (basePort : ℤ)
    (program : Program channels) : (Program channels × List (Effect channels)) × Exit :=
  let ((program, started), ok) :=
    setUp serverIp basePort world.outcomes (List.finRange channels) program
  if !ok then ((program, started), .code 1)
  else if !world.opened then
    ((program, started ++ [.openReader inputFile false,
      .print ("[ERROR] Failed to open file: " ++ inputFile ++ "\n")]), .code 1)
  else
    let (program, actions) := run toTimestamp world.records program
    let (program, stops) := stopSessions program
    ((program, started ++ [.openReader inputFile true] ++ actions.map .act ++ [.closeReader] ++
      stops ++ [.print "All streams finished.\n"]), .code 0)

/-- `main` with the arguments after the name of the program, if it is not aborted on the way. -/
def undisturbed (world : World channels) (name : String) (args : List String) :
    List (Effect channels) × Exit :=
  match args with
  | inputFile :: serverIp :: port :: _ =>
    match stoi port with
    | none => ([], .aborted .uncaught)
    | some basePort =>
      let ((program, effects), exit) := serve toTimestamp world inputFile serverIp basePort
        (Program.construct world.rtpPort world.rtpSsrc)
      (effects ++ (stopSessions program).2, exit)
  | _ => ([.print ("Usage: " ++ name ++ " <input.264> <server_ip> <base_rtp_port>\n")], .code 1)

/-! ## The process in its world -/

/-- An effect, with the result of a `send` on a connection. -/
structure Entry (channels : ℕ) where
  effect : Effect channels
  result : Option SendResult

/-- A `send` on descriptor `-1` never gets to the transport. -/
def Effect.isTransmission : Effect channels → Bool
  | .act (.syscall _ (.send (some _) _)) => true
  | _ => false

/-- The effects with the results of their `send` calls, as far as the process lives; the second
component tells whether it survives. -/
def transmit : List SendResult → List (Effect channels) → List (Entry channels) × Bool
  | _, [] => ([], true)
  | results, effect :: effects =>
    if effect.isTransmission then
      let result := results.headD .whole
      if result = .sigpipe then ([⟨effect, some result⟩], false)
      else
        let (log, survives) := transmit results.tail effects
        (⟨effect, some result⟩ :: log, survives)
    else
      let (log, survives) := transmit results effects
      (⟨effect, none⟩ :: log, survives)

/-- What `main` does, and how it ends. -/
def process (world : World channels) (name : String) (args : List String) :
    List (Entry channels) × Exit :=
  let (effects, exit) := undisturbed toTimestamp world name args
  let (effects, exit) := match world.abort with
    | none => (effects, exit)
    | some (count, cause) => (effects.take count, .aborted cause)
  let (log, survives) := transmit world.sends effects
  (log, if survives then exit else .aborted .signal)

theorem transmit_cons (results : List SendResult) (effect : Effect channels)
    (effects : List (Effect channels)) :
    (∃ results' result, result ≠ some .sigpipe ∧
      transmit results (effect :: effects) =
        (⟨effect, result⟩ :: (transmit results' effects).1, (transmit results' effects).2)) ∨
      transmit results (effect :: effects) = ([⟨effect, some .sigpipe⟩], false) := by
  rw [transmit]
  by_cases hsend : effect.isTransmission = true
  · rw [if_pos hsend]
    by_cases hresult : results.headD .whole = .sigpipe
    · rw [if_pos hresult, hresult]
      exact .inr rfl
    · rw [if_neg hresult]
      exact .inl ⟨results.tail, _, fun heq ↦ hresult (Option.some.inj heq), rfl⟩
  · rw [if_neg hsend]
    exact .inl ⟨results, none, (Option.some_ne_none _).symm, rfl⟩

theorem prefix_transmit (results : List SendResult) (effects : List (Effect channels)) :
    (transmit results effects).1.map Entry.effect <+: effects := by
  induction effects generalizing results with
  | nil => exact List.prefix_rfl
  | cons effect effects ih =>
    rcases transmit_cons results effect effects with ⟨results', result, -, hnext⟩ | hlast
    · rw [hnext]
      exact List.cons_prefix_cons.mpr ⟨rfl, ih results'⟩
    · rw [hlast]
      exact List.cons_prefix_cons.mpr ⟨rfl, List.nil_prefix⟩

theorem transmit_of_survives {results : List SendResult} {effects : List (Effect channels)}
    (h : (transmit results effects).2 = true) :
    (transmit results effects).1.map Entry.effect = effects := by
  induction effects generalizing results with
  | nil => rfl
  | cons effect effects ih =>
    rcases transmit_cons results effect effects with ⟨results', result, -, hnext⟩ | hlast
    · rw [hnext] at h ⊢
      exact congrArg (effect :: ·) (ih h)
    · rw [hlast] at h
      cases h

theorem survives_transmit_iff (results : List SendResult) (effects : List (Effect channels)) :
    (transmit results effects).2 = true ↔
      ∀ entry ∈ (transmit results effects).1, entry.result ≠ some .sigpipe := by
  induction effects generalizing results with
  | nil => exact iff_of_true rfl fun _ hentry ↦ nomatch hentry
  | cons effect effects ih =>
    rcases transmit_cons results effect effects with ⟨results', result, hresult, hnext⟩ | hlast
    · rw [hnext, List.forall_mem_cons, ih]
      exact (and_iff_right hresult).symm
    · rw [hlast]
      simp

section Process

variable (world : World channels) (name : String) (args : List String)

/-- However it ends, the process gets to a point of its undisturbed run. -/
theorem prefix_process :
    (process toTimestamp world name args).1.map Entry.effect <+:
      (undisturbed toTimestamp world name args).1 := by
  unfold process
  cases world.abort with
  | none => exact prefix_transmit _ _
  | some abort => exact (prefix_transmit _ _).trans (List.take_prefix _ _)

theorem process_eq_code_iff (status : ℕ) :
    (process toTimestamp world name args).2 = .code status ↔
      (undisturbed toTimestamp world name args).2 = .code status ∧ world.abort = none ∧
        ∀ entry ∈ (process toTimestamp world name args).1, entry.result ≠ some .sigpipe := by
  unfold process
  cases hall : world.abort with
  | none =>
    rw [← survives_transmit_iff]
    dsimp only
    cases (transmit world.sends (undisturbed toTimestamp world name args).1).2 <;> simp
  | some abort =>
    dsimp only
    cases (transmit world.sends ((undisturbed toTimestamp world name args).1.take abort.1)).2 <;>
      simp

/-- A process that ends with an exit code has done everything. -/
theorem process_of_code {status : ℕ}
    (h : (process toTimestamp world name args).2 = .code status) :
    (process toTimestamp world name args).1.map Entry.effect =
      (undisturbed toTimestamp world name args).1 := by
  obtain ⟨-, habort, hsends⟩ := (process_eq_code_iff toTimestamp world name args status).mp h
  unfold process at hsends ⊢
  rw [habort] at hsends ⊢
  exact transmit_of_survives ((survives_transmit_iff _ _).mpr hsends)

end Process

/-! ## System calls -/

def Effect.syscall? : Effect channels → Option Syscall
  | .act (.syscall _ call) => some call
  | _ => none

/-- The system calls of all sessions, in the order in which the process makes them. -/
def syscalls (effects : List (Effect channels)) : List Syscall :=
  effects.filterMap Effect.syscall?

theorem syscalls_append (effects effects' : List (Effect channels)) :
    syscalls (effects ++ effects') = syscalls effects ++ syscalls effects' := List.filterMap_append

theorem syscalls_syscall (chn : Fin channels) (calls : List Syscall) :
    syscalls (calls.map fun call ↦ .act (.syscall chn call)) = calls := by
  unfold syscalls
  rw [List.filterMap_map]
  exact List.filterMap_some

/-! ## Quiet parts -/

/-- A message, or a system call that sends nothing. -/
def Effect.Quiet : Effect channels → Prop
  | .act (.syscall _ call) => ∀ fd buffer, call ≠ .send fd buffer
  | .print _ => True
  | _ => False

theorem quiet_of_mem_syscall {chn : Fin channels} {calls : List Syscall}
    (hcalls : ∀ fd buffer, .send fd buffer ∉ calls) {effect : Effect channels}
    (h : effect ∈ calls.map fun call ↦ .act (.syscall chn call)) : effect.Quiet := by
  obtain ⟨call, hcall, rfl⟩ := List.mem_map.mp h
  rintro fd buffer rfl
  exact hcalls fd buffer hcall

theorem quiet_setUp {serverIp : String} {basePort : ℤ} {outcomes : Fin channels → StartOutcome}
    {chns : List (Fin channels)} {program : Program channels} {effect : Effect channels}
    (h : effect ∈ (setUp serverIp basePort outcomes chns program).1.2) : effect.Quiet := by
  induction chns generalizing program with
  | nil => cases h
  | cons chn chns ih =>
    obtain ⟨session, calls, ok, hstart, hround⟩ :=
      setUp_cons serverIp basePort outcomes chn chns program
    have hcalls := not_send_mem_start serverIp (basePort + chn * 2) ("cam0" ++ toString chn.val)
      (outcomes chn) (program.sessions chn)
    rw [hstart] at hcalls
    rw [hround] at h
    cases ok with
    | false =>
      rcases List.mem_append.mp h with hcall | hmessage
      · exact quiet_of_mem_syscall hcalls hcall
      · rw [List.mem_singleton.mp hmessage]
        trivial
    | true =>
      rcases List.mem_append.mp h with hcall | hlater
      · exact quiet_of_mem_syscall hcalls hcall
      · exact ih hlater

theorem quiet_stopSessions {program : Program channels} {effect : Effect channels}
    (h : effect ∈ (stopSessions program).2) : effect.Quiet := by
  have hkeep : Preserves (fun (_ : Program channels) effects ↦ ∀ effect ∈ effects, effect.Quiet)
      (stopSessions : Emit (Program channels) (Effect channels)) := by
    refine preserves_forEach fun chn _ program effects heffects effect hmem ↦ ?_
    rcases List.mem_append.mp hmem with hold | hnew
    · exact heffects effect hold
    · exact quiet_of_mem_syscall (not_send_mem_stop (program.sessions chn)) hnew
  exact hkeep program [] (fun _ hmem ↦ nomatch hmem) effect h

/-- A session does not start, the reader does not open, or all records are dispatched. -/
theorem serve_cases (world : World channels) (inputFile serverIp : String) (basePort : ℤ)
    (program : Program channels) :
    let result := setUp serverIp basePort world.outcomes (List.finRange channels) program
    let ran := run toTimestamp world.records result.1.1
    (result.2 = false ∧
      serve toTimestamp world inputFile serverIp basePort program = (result.1, .code 1)) ∨
    (result.2 = true ∧ world.opened = false ∧
      serve toTimestamp world inputFile serverIp basePort program =
        ((result.1.1, result.1.2 ++ [.openReader inputFile false,
          .print ("[ERROR] Failed to open file: " ++ inputFile ++ "\n")]), .code 1)) ∨
    (result.2 = true ∧ world.opened = true ∧
      serve toTimestamp world inputFile serverIp basePort program =
        (((stopSessions ran.1).1, result.1.2 ++ [.openReader inputFile true] ++ ran.2.map .act ++
          [.closeReader] ++ (stopSessions ran.1).2 ++ [.print "All streams finished.\n"]),
          .code 0)) := by
  unfold serve
  generalize setUp serverIp basePort world.outcomes (List.finRange channels) program = result
  obtain ⟨⟨program, started⟩, ok⟩ := result
  cases ok with
  | false => exact .inl ⟨rfl, rfl⟩
  | true =>
    cases world.opened with
    | false => exact .inr (.inl ⟨rfl, rfl, rfl⟩)
    | true => exact .inr (.inr ⟨rfl, rfl, rfl⟩)

/-- The process serves, or it has no proper arguments and only says so. -/
theorem undisturbed_cases (world : World channels) (name : String) (args : List String) :
    (∃ inputFile serverIp port rest basePort, args = inputFile :: serverIp :: port :: rest ∧
      stoi port = some basePort ∧
      let served := serve toTimestamp world inputFile serverIp basePort
        (Program.construct world.rtpPort world.rtpSsrc)
      undisturbed toTimestamp world name args =
        (served.1.2 ++ (stopSessions served.1.1).2, served.2)) ∨
    (∀ inputFile serverIp port rest, args = inputFile :: serverIp :: port :: rest →
      stoi port = none) ∧
      (undisturbed toTimestamp world name args).2 ≠ .code 0 ∧
      ∃ messages : List String,
        (undisturbed toTimestamp world name args).1 = messages.map .print := by
  unfold undisturbed
  split
  · rename_i inputFile serverIp port rest
    cases hport : stoi port with
    | none =>
      refine .inr ⟨?_, Exit.noConfusion, [], rfl⟩
      rintro _ _ _ _ ⟨⟩
      exact hport
    | some basePort => exact .inl ⟨inputFile, serverIp, port, rest, basePort, rfl, hport, rfl⟩
  · rename_i hshort
    refine .inr ⟨?_, by simp, [_], rfl⟩
    rintro inputFile serverIp port rest rfl
    exact absurd rfl (hshort inputFile serverIp port rest)

theorem quiet_of_mem_messages {messages : List String} {effect : Effect channels}
    (h : effect ∈ messages.map .print) : effect.Quiet := by
  obtain ⟨text, -, rfl⟩ := List.mem_map.mp h
  trivial

/-! ## Exit codes -/

theorem started_setUp_iff (serverIp : String) (basePort : ℤ)
    (outcomes : Fin channels → StartOutcome) (chns : List (Fin channels))
    (program : Program channels) :
    (setUp serverIp basePort outcomes chns program).2 = true ↔
      ∀ chn ∈ chns, (outcomes chn).sock.isSome := by
  induction chns generalizing program with
  | nil => simp [setUp]
  | cons chn chns ih =>
    obtain ⟨session, calls, ok, hstart, hround⟩ :=
      setUp_cons serverIp basePort outcomes chn chns program
    have hok := start_eq_true_iff serverIp (basePort + chn * 2) ("cam0" ++ toString chn.val)
      (outcomes chn) (program.sessions chn)
    rw [hstart, ← Option.isSome_iff_exists] at hok
    rw [List.forall_mem_cons, ← hok, hround]
    cases ok with
    | false => simp
    | true => simpa using ih _

theorem serve_eq_zero_iff (world : World channels) (inputFile serverIp : String) (basePort : ℤ)
    (program : Program channels) :
    (serve toTimestamp world inputFile serverIp basePort program).2 = .code 0 ↔
      (∀ chn, (world.outcomes chn).sock.isSome) ∧ world.opened = true := by
  have hstarted := started_setUp_iff serverIp basePort world.outcomes (List.finRange channels)
    program
  simp only [List.mem_finRange, true_imp_iff] at hstarted
  rw [← hstarted]
  rcases serve_cases toTimestamp world inputFile serverIp basePort program with
    ⟨hfailed, hserve⟩ | ⟨-, hclosed, hserve⟩ | ⟨hall, hopened, hserve⟩
  · rw [hserve, hfailed]
    simp
  · rw [hserve, hclosed]
    simp
  · rw [hserve, hall, hopened]
    simp

theorem undisturbed_eq_zero_iff (world : World channels) (name : String) (args : List String) :
    (undisturbed toTimestamp world name args).2 = .code 0 ↔
      (∃ inputFile serverIp port rest, args = inputFile :: serverIp :: port :: rest ∧
        (stoi port).isSome) ∧ (∀ chn, (world.outcomes chn).sock.isSome) ∧ world.opened = true := by
  rcases undisturbed_cases toTimestamp world name args with
    ⟨inputFile, serverIp, port, rest, basePort, hargs, hport, hserved⟩ | ⟨hnone, hexit, -⟩
  · have hproper : ∃ inputFile serverIp port rest,
        args = inputFile :: serverIp :: port :: rest ∧ (stoi port).isSome :=
      ⟨inputFile, serverIp, port, rest, hargs, Option.isSome_of_eq_some hport⟩
    rw [hserved, and_iff_right hproper]
    exact serve_eq_zero_iff ..
  · refine iff_of_false hexit ?_
    rintro ⟨⟨inputFile, serverIp, port, rest, hargs, hport⟩, -⟩
    rw [hnone inputFile serverIp port rest hargs] at hport
    cases hport

end RtpSender.Main
