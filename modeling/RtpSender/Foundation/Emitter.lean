import Mathlib.Data.List.Forall2

/-!
# Programs that update a state and emit events

An emitter maps a state to the next state and to the events it emits, oldest first.  Programs are
built from `skip`, sequencing and iteration over a list.  Rules carry facts through these
combinators, so that a client proves each fact only for its atomic steps:

* `Preserves` relates the state to the events emitted so far and is kept along a run;
* `Guarded` does so for runs in which every round starts under an assumption;
* `Simulates` runs two emitters side by side;
* the equations for `forEach` reassociate iterations, which is how a loop is refined to an
  iteration over a list computed in advance.
-/

namespace RtpSender.Emitter

/-- A program over states `σ` that emits events `ε`. -/
abbrev Emit (σ ε : Type*) := σ → σ × List ε

variable {σ τ ε δ α β : Type*}

def skip : Emit σ ε := fun state ↦ (state, [])

def andThen (first second : Emit σ ε) : Emit σ ε := fun state ↦
  let (middle, before) := first state
  let (final, after) := second middle
  (final, before ++ after)

/-- Run `body` on every element of a list, from left to right. -/
def forEach (body : α → Emit σ ε) : List α → Emit σ ε
  | [] => skip
  | a :: as => andThen (body a) (forEach body as)

@[simp]
theorem skip_apply (state : σ) : (skip state : σ × List ε) = (state, []) := rfl

theorem andThen_apply (first second : Emit σ ε) (state : σ) :
    andThen first second state =
      ((second (first state).1).1, (first state).2 ++ (second (first state).1).2) := rfl

@[simp]
theorem andThen_fst (first second : Emit σ ε) (state : σ) :
    (andThen first second state).1 = (second (first state).1).1 := rfl

@[simp]
theorem andThen_snd (first second : Emit σ ε) (state : σ) :
    (andThen first second state).2 = (first state).2 ++ (second (first state).1).2 := rfl

@[simp]
theorem skip_andThen (program : Emit σ ε) : andThen skip program = program := by
  funext state
  simp [andThen_apply]

@[simp]
theorem andThen_skip (program : Emit σ ε) : andThen program skip = program := by
  funext state
  simp [andThen_apply]

theorem andThen_assoc (first second third : Emit σ ε) :
    andThen (andThen first second) third = andThen first (andThen second third) := by
  funext state
  simp [andThen_apply]

@[simp]
theorem forEach_nil (body : α → Emit σ ε) : forEach body [] = skip := rfl

theorem forEach_cons (body : α → Emit σ ε) (a : α) (as : List α) :
    forEach body (a :: as) = andThen (body a) (forEach body as) := rfl

@[simp]
theorem forEach_singleton (body : α → Emit σ ε) (a : α) : forEach body [a] = body a := by
  rw [forEach_cons, forEach_nil, andThen_skip]

theorem forEach_append (body : α → Emit σ ε) (as bs : List α) :
    forEach body (as ++ bs) = andThen (forEach body as) (forEach body bs) := by
  induction as with
  | nil => simp
  | cons a as ih => rw [List.cons_append, forEach_cons, ih, forEach_cons, andThen_assoc]

theorem forEach_map (body : β → Emit σ ε) (f : α → β) (as : List α) :
    forEach body (as.map f) = forEach (fun a ↦ body (f a)) as := by
  induction as with
  | nil => rfl
  | cons a as ih => rw [List.map_cons, forEach_cons, ih, forEach_cons]

theorem forEach_flatMap (body : β → Emit σ ε) (f : α → List β) (as : List α) :
    forEach body (as.flatMap f) = forEach (fun a ↦ forEach body (f a)) as := by
  induction as with
  | nil => rfl
  | cons a as ih => rw [List.flatMap_cons, forEach_append, ih, forEach_cons]

/-! ## Invariants of runs -/

/-- `inv` relates the state to all events emitted so far, and `program` keeps it. -/
def Preserves (inv : σ → List ε → Prop) (program : Emit σ ε) : Prop :=
  ∀ state emitted, inv state emitted →
    inv (program state).1 (emitted ++ (program state).2)

variable {inv : σ → List ε → Prop}

theorem preserves_skip : Preserves inv skip := by
  intro state emitted h
  simpa using h

theorem Preserves.andThen {first second : Emit σ ε}
    (hfirst : Preserves inv first) (hsecond : Preserves inv second) :
    Preserves inv (andThen first second) := by
  intro state emitted h
  have hmiddle := hfirst state emitted h
  have hfinal := hsecond _ _ hmiddle
  simpa only [andThen_fst, andThen_snd, List.append_assoc] using hfinal

/-- The invariant rule for iterations: it is enough to look at one round. -/
theorem preserves_forEach {body : α → Emit σ ε} {as : List α}
    (hbody : ∀ a ∈ as, Preserves inv (body a)) : Preserves inv (forEach body as) := by
  induction as with
  | nil => exact preserves_skip
  | cons a as ih =>
    have hhead := hbody a (List.mem_cons_self ..)
    have htail := ih fun b hb ↦ hbody b (List.mem_cons_of_mem _ hb)
    exact hhead.andThen htail

/-! ## Guarded iterations -/

/-- Every round of an iteration starts in a state that satisfies the guard of the round. -/
def Guarded (guard : α → σ → Prop) (body : α → Emit σ ε) : List α → σ → Prop
  | [], _ => True
  | a :: as, state => guard a state ∧ Guarded guard body as (body a state).1

/-- The invariant rule for rounds that keep the invariant from guarded states only. -/
theorem Guarded.preserves {guard : α → σ → Prop} {body : α → Emit σ ε}
    (hbody : ∀ a state emitted, guard a state → inv state emitted →
      inv (body a state).1 (emitted ++ (body a state).2))
    {as : List α} {state : σ} {emitted : List ε} (hguard : Guarded guard body as state)
    (h : inv state emitted) :
    inv (forEach body as state).1 (emitted ++ (forEach body as state).2) := by
  induction as generalizing state emitted with
  | nil => simpa using h
  | cons a as ih =>
    have hround := hbody a state emitted hguard.1 h
    have hrest := ih hguard.2 hround
    rwa [List.append_assoc] at hrest

/-! ## Simulations -/

/-- From related states both programs emit pairwise related events and end in related states. -/
def Simulates (rel : σ → τ → Prop) (same : ε → δ → Prop)
    (left : Emit σ ε) (right : Emit τ δ) : Prop :=
  ∀ s t, rel s t → rel (left s).1 (right t).1 ∧ List.Forall₂ same (left s).2 (right t).2

variable {rel : σ → τ → Prop} {same : ε → δ → Prop}

theorem simulates_skip : Simulates rel same skip skip := fun _ _ h ↦ ⟨h, .nil⟩

theorem Simulates.andThen {left left' : Emit σ ε} {right right' : Emit τ δ}
    (hfirst : Simulates rel same left right) (hsecond : Simulates rel same left' right') :
    Simulates rel same (andThen left left') (andThen right right') := by
  intro s t h
  obtain ⟨hmiddle, hbefore⟩ := hfirst s t h
  obtain ⟨hfinal, hafter⟩ := hsecond _ _ hmiddle
  exact ⟨hfinal, List.rel_append hbefore hafter⟩

theorem simulates_forEach {left : α → Emit σ ε} {right : α → Emit τ δ} {as : List α}
    (hbody : ∀ a ∈ as, Simulates rel same (left a) (right a)) :
    Simulates rel same (forEach left as) (forEach right as) := by
  induction as with
  | nil => exact simulates_skip
  | cons a as ih =>
    have hhead := hbody a (List.mem_cons_self ..)
    have htail := ih fun b hb ↦ hbody b (List.mem_cons_of_mem _ hb)
    exact hhead.andThen htail

end RtpSender.Emitter
