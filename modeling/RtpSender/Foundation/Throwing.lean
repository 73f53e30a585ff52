import RtpSender.Foundation.Emitter

/-!
# Programs that throw

A program that may end with an exception, in the midst of what it does, with the state as it is then
and the events emitted so far.  Two ways of reasoning about it:

* `Stops` compares it with a program that never throws: it does the same or stops on the way;
* `Costs` keeps an invariant that counts how often something has thrown.
-/

open RtpSender.Emitter

namespace RtpSender.Throwing

variable {σ τ ε α : Type*}

/-- A program with the information whether it returned. -/
abbrev MayThrow (σ ε : Type*) := σ → (σ × List ε) × Bool

def returning (program : Emit σ ε) : MayThrow σ ε := fun state ↦ (program state, true)

/-- Go on with `second` unless `first` throws. -/
def sequence (first second : MayThrow σ ε) : MayThrow σ ε := fun state ↦
  match first state with
  | ((middle, before), true) =>
    let ((final, after), returned) := second middle
    ((final, before ++ after), returned)
  | ((middle, before), false) => ((middle, before), false)

/-- Run `body` on every element of a list and catch what it throws; the flags say which runs
returned. -/
def tryEach (body : α → MayThrow σ ε) : List α → σ → (σ × List ε) × List Bool
  | [], state => ((state, []), [])
  | a :: as, state =>
    let ((middle, before), returned) := body a state
    let ((final, after), flags) := tryEach body as middle
    ((final, before ++ after), returned :: flags)

/-- The events of each of these runs, and whether it returned. -/
def runs (body : α → MayThrow σ ε) : List α → σ → List (List ε × Bool)
  | [], _ => []
  | a :: as, state => ((body a state).1.2, (body a state).2) :: runs body as (body a state).1.1

theorem sequence_of_returned {first second : MayThrow σ ε} {state : σ}
    (h : (first state).2 = true) :
    sequence first second state =
      (((second (first state).1.1).1.1, (first state).1.2 ++ (second (first state).1.1).1.2),
        (second (first state).1.1).2) := by
  unfold sequence
  generalize first state = result at h ⊢
  obtain ⟨⟨middle, before⟩, returned⟩ := result
  subst h
  rfl

theorem sequence_of_threw {first second : MayThrow σ ε} {state : σ}
    (h : (first state).2 = false) : sequence first second state = first state := by
  unfold sequence
  generalize first state = result at h ⊢
  obtain ⟨⟨middle, before⟩, returned⟩ := result
  subst h
  rfl

theorem tryEach_cons (body : α → MayThrow σ ε) (a : α) (as : List α) (state : σ) :
    tryEach body (a :: as) state =
      (((tryEach body as (body a state).1.1).1.1,
          (body a state).1.2 ++ (tryEach body as (body a state).1.1).1.2),
        (body a state).2 :: (tryEach body as (body a state).1.1).2) := rfl

theorem flatMap_runs (body : α → MayThrow σ ε) (as : List α) (state : σ) :
    (runs body as state).flatMap Prod.fst = (tryEach body as state).1.2 := by
  induction as generalizing state with
  | nil => rfl
  | cons a as ih => rw [runs, List.flatMap_cons, ih, tryEach_cons]

/-! ## Comparison with a program that does not throw -/

/-- `program` does what `whole` does to a part of the state, or stops on the way. -/
structure Stops (view : τ → σ) (program : MayThrow τ ε) (whole : Emit σ ε) : Prop where
  returned : ∀ state, (program state).2 = true →
    (view (program state).1.1, (program state).1.2) = whole (view state)
  threw : ∀ state, (program state).2 = false → (program state).1.2 <+: (whole (view state)).2

section Stops

variable {view : τ → σ}

theorem stops_returning {program : Emit τ ε} {whole : Emit σ ε}
    (h : ∀ state, (view (program state).1, (program state).2) = whole (view state)) :
    Stops view (returning program) whole where
  returned state _ := h state
  threw _ hthrew := absurd hthrew.symm Bool.false_ne_true

theorem Stops.sequence {first second : MayThrow τ ε} {whole whole' : Emit σ ε}
    (hfirst : Stops view first whole) (hsecond : Stops view second whole') :
    Stops view (sequence first second) (andThen whole whole') := by
  constructor
  · intro state hreturned
    cases hmiddle : (first state).2 with
    | false =>
      rw [sequence_of_threw hmiddle, hmiddle] at hreturned
      cases hreturned
    | true =>
      have hbefore := hfirst.returned state hmiddle
      rw [sequence_of_returned hmiddle] at hreturned ⊢
      have hafter := hsecond.returned _ hreturned
      rw [andThen_apply, ← hbefore, ← hafter]
  · intro state hthrew
    cases hmiddle : (first state).2 with
    | false =>
      rw [sequence_of_threw hmiddle]
      exact (hfirst.threw state hmiddle).trans (List.prefix_append _ _)
    | true =>
      have hbefore := hfirst.returned state hmiddle
      rw [sequence_of_returned hmiddle] at hthrew ⊢
      have hafter := hsecond.threw _ hthrew
      rw [andThen_snd, ← hbefore]
      exact (List.prefix_append_right_inj _).mpr hafter

/-- Programs may be chosen by looking at the state. -/
theorem stops_reading {program : τ → MayThrow τ ε} {whole : σ → Emit σ ε}
    (h : ∀ state, Stops view (program state) (whole (view state))) :
    Stops view (fun state ↦ program state state) (fun state ↦ whole state state) where
  returned state hreturned := (h state).returned state hreturned
  threw state hthrew := (h state).threw state hthrew

end Stops

/-! ## Invariants with a budget -/

/-- The invariant is kept, at the cost of one if the program throws. -/
def Costs (inv : ℕ → τ → List ε → Prop) (program : MayThrow τ ε) : Prop :=
  ∀ budget state emitted, inv budget state emitted →
    inv (budget + if (program state).2 then 0 else 1) (program state).1.1
      (emitted ++ (program state).1.2)

section Costs

variable {inv : ℕ → τ → List ε → Prop}

theorem costs_returning {program : Emit τ ε} (h : ∀ budget, Preserves (inv budget) program) :
    Costs inv (returning program) := fun budget state emitted hinv ↦ h budget state emitted hinv

theorem Costs.sequence {first second : MayThrow τ ε} (hfirst : Costs inv first)
    (hsecond : Costs inv second) : Costs inv (sequence first second) := by
  intro budget state emitted hinv
  have hmiddle := hfirst budget state emitted hinv
  cases hreturned : (first state).2 with
  | false =>
    rw [sequence_of_threw hreturned]
    exact hmiddle
  | true =>
    rw [hreturned, if_pos rfl] at hmiddle
    have hfinal := hsecond _ _ _ hmiddle
    rw [sequence_of_returned hreturned, ← List.append_assoc]
    exact hfinal

theorem costs_reading {program : τ → MayThrow τ ε} (h : ∀ state, Costs inv (program state)) :
    Costs inv fun state ↦ program state state := fun budget state ↦ h state budget state

/-- Over a run the cost is the number of programs that threw. -/
theorem costs_tryEach {body : α → MayThrow τ ε} (hbody : ∀ a, Costs inv (body a)) (as : List α)
    {budget : ℕ} {state : τ} {emitted : List ε} (hinv : inv budget state emitted) :
    inv (budget + (tryEach body as state).2.count false) (tryEach body as state).1.1
      (emitted ++ (tryEach body as state).1.2) := by
  induction as generalizing budget state emitted with
  | nil => rwa [tryEach, List.count_nil, Nat.add_zero, List.append_nil]
  | cons a as ih =>
    have hrest := ih (hbody a budget state emitted hinv)
    rw [tryEach_cons, ← List.append_assoc]
    cases hreturned : (body a state).2 with
    | false =>
      rw [hreturned, Nat.add_right_comm] at hrest
      rwa [List.count_cons_self]
    | true =>
      rw [hreturned] at hrest
      rwa [List.count_cons_of_ne (Ne.symm Bool.false_ne_true)]

end Costs

end RtpSender.Throwing
