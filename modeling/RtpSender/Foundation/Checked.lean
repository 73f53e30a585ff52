import Mathlib.Control.Monad.Writer
import Mathlib.Data.Int.Notation

/-!
# Checked programs

Programs over 32-bit integers and buffers that may go wrong.  A checked program returns a value
and the steps it has logged, or it stops at its first fault: an `int` result that does not fit, an
access outside a buffer, a loop that has used up its fuel.  Integers are unbounded between the
checks, so a program without faults computes what the machine does.

`Ensures program post` is total correctness: the program has no fault, and `post` holds of its
result and of its log.  Primitives whose side condition holds are equal to `pure` and vanish by
rewriting; sequencing and loops have a rule each.
-/

namespace RtpSender.Checked

variable {ω α β σ : Type}

inductive Fault where
  | overflow (value : ℤ)
  | outOfBounds (index : ℤ)
  | outOfFuel
  deriving DecidableEq

/-- A program that logs steps of type `ω`. -/
abbrev Program (ω : Type) := WriterT (List ω) (Except Fault)

def intMin : ℤ := -2147483648
def intMax : ℤ := 2147483647

/-! ## Primitives -/

def fail (fault : Fault) : Program ω α := WriterT.mk (.error fault)

/-- The value of an `int` expression. -/
def int (value : ℤ) : Program ω ℤ :=
  if intMin ≤ value ∧ value ≤ intMax then pure value else fail (.overflow value)

/-- The element of a buffer at an index. -/
def readAt (buffer : List α) (index : ℤ) : Program ω α :=
  if index < 0 then fail (.outOfBounds index)
  else match buffer[index.toNat]? with
    | some element => pure element
    | none => fail (.outOfBounds index)

/-- The `size` elements of a buffer from `start` on. -/
def copy (buffer : List α) (start size : ℤ) : Program ω (List α) :=
  if 0 ≤ start ∧ 0 ≤ size ∧ start + size ≤ buffer.length then
    pure ((buffer.drop start.toNat).take size.toNat)
  else fail (.outOfBounds start)

/-- How one round of a loop ends. -/
inductive Round (σ α : Type) where
  | again (state : σ)
  | done (result : α)

/-- Repeat `body` until a round is the last one. -/
def loop (body : σ → Program ω (Round σ α)) : ℕ → σ → Program ω α
  | 0, _ => fail .outOfFuel
  | fuel + 1, state => do
    match ← body state with
    | .again next => loop body fuel next
    | .done result => pure result

@[simp]
theorem pure_bind_apply (a : α) (program : α → Program ω β) : (pure a >>= program) = program a := by
  apply WriterT.ext
  change (program a).run.map (fun ending ↦ (ending.1, [] ++ ending.2)) = (program a).run
  cases (program a).run <;> rfl

@[simp]
theorem pure_andM (a : Bool) (program : Program ω Bool) :
    (pure a <&&> program) = if a then program else pure false := by
  cases a <;> simp [andM, toBool]

/-- Results that are not negative need their upper bound only. -/
theorem int_of_nonneg {value : ℤ} (hlow : 0 ≤ value) (hhigh : value ≤ intMax) :
    (int value : Program ω ℤ) = pure value := by
  have hmin : intMin ≤ value := Int.le_trans (by decide) hlow
  rw [int, if_pos ⟨hmin, hhigh⟩]

theorem readAt_natCast {buffer : List α} {index : ℕ} {element : α}
    (h : buffer[index]? = some element) : (readAt buffer index : Program ω α) = pure element := by
  rw [readAt, if_neg (by omega), Int.toNat_natCast, h]

theorem copy_natCast {buffer : List α} {start size : ℕ} (h : start + size ≤ buffer.length) :
    (copy buffer start size : Program ω (List α)) = pure ((buffer.drop start).take size) := by
  rw [copy, if_pos ⟨by omega, by omega, by omega⟩, Int.toNat_natCast, Int.toNat_natCast]

/-! ## Total correctness -/

/-- The program ends without a fault and `post` holds of its result and its log. -/
def Ensures (program : Program ω α) (post : α → List ω → Prop) : Prop :=
  ∃ result log, program.run = .ok (result, log) ∧ post result log

theorem ensures_pure {post : α → List ω → Prop} {a : α} (h : post a []) :
    Ensures (pure a) post :=
  ⟨a, [], rfl, h⟩

theorem ensures_tell {post : PUnit → List ω → Prop} {log : List ω} (h : post ⟨⟩ log) :
    Ensures (tell log) post :=
  ⟨⟨⟩, log, rfl, h⟩

theorem Ensures.mono {program : Program ω α} {post post' : α → List ω → Prop}
    (h : Ensures program post) (hpost : ∀ result log, post result log → post' result log) :
    Ensures program post' := by
  obtain ⟨result, log, hrun, hresult⟩ := h
  exact ⟨result, log, hrun, hpost result log hresult⟩

theorem Ensures.bind {first : Program ω α} {second : α → Program ω β}
    {mid : α → List ω → Prop} {post : β → List ω → Prop} (hfirst : Ensures first mid)
    (hsecond : ∀ a log, mid a log → Ensures (second a) fun b rest ↦ post b (log ++ rest)) :
    Ensures (first >>= second) post := by
  obtain ⟨a, log, hrun, hmid⟩ := hfirst
  obtain ⟨b, rest, hrest, hpost⟩ := hsecond a log hmid
  apply Exists.intro b
  apply Exists.intro (log ++ rest)
  constructor
  · change (first.run >>= fun ending ↦
      (fun ending' ↦ (ending'.1, ending.2 ++ ending'.2)) <$> (second ending.1).run) = _
    rw [hrun]
    change (fun ending' : β × List ω ↦ (ending'.1, log ++ ending'.2)) <$> (second a).run = _
    rw [hrest]
    rfl
  · exact hpost

/-- A logged step comes before the log of the rest. -/
theorem Ensures.tell_bind {log : List ω} {program : Program ω α} {post : α → List ω → Prop}
    (h : Ensures program fun result rest ↦ post result (log ++ rest)) :
    Ensures (tell log >>= fun _ ↦ program) post := by
  have htell : Ensures (tell log : Program ω PUnit) fun _ told ↦ told = log := ensures_tell rfl
  apply htell.bind
  rintro _ _ rfl
  exact h

/-- A program that ensures one result and an empty log is that result. -/
theorem Ensures.eq_pure {program : Program ω α} {a : α}
    (h : Ensures program fun result log ↦ result = a ∧ log = []) : program = pure a := by
  obtain ⟨result, log, hrun, rfl, rfl⟩ := h
  exact WriterT.ext _ _ hrun

/-! ## Loops -/

/-- What a round owes: a last round establishes the postcondition; any other round keeps the
invariant, lowers the bound, and passes the postcondition back. -/
def Progress (inv : σ → Prop) (bound : σ → ℕ) (post : σ → α → List ω → Prop) (state : σ) :
    Round σ α → List ω → Prop
  | .done result, log => post state result log
  | .again next, log => inv next ∧ bound next < bound state ∧
      ∀ result rest, post next result rest → post state result (log ++ rest)

/-- A loop whose rounds make progress ends, with any fuel above the bound. -/
theorem ensures_loop {body : σ → Program ω (Round σ α)} {inv : σ → Prop} {bound : σ → ℕ}
    {post : σ → α → List ω → Prop}
    (hbody : ∀ state, inv state → Ensures (body state) (Progress inv bound post state))
    {fuel : ℕ} {state : σ} (hstate : inv state) (hfuel : bound state < fuel) :
    Ensures (loop body fuel state) (post state) := by
  induction fuel generalizing state with
  | zero => omega
  | succ fuel ih =>
    apply (hbody state hstate).bind
    intro round log hround
    cases round with
    | done result =>
      apply ensures_pure
      rw [List.append_nil]
      exact hround
    | again next =>
      obtain ⟨hnext, hbound, hpost⟩ := hround
      exact (ih hnext (by omega)).mono (hpost ·)

end RtpSender.Checked
