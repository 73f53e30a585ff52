import Mathlib.Data.Fintype.Basic
import Mathlib.Data.Set.Insert
import Mathlib.Data.Set.Piecewise
import Mathlib.Logic.Hydra

/-!
# Threads that lock objects

Threads share a family of objects, one lock for each object.  A thread makes a list of calls; the
code of a call accesses one object at a time, and acquires and releases locks.  The scheduler is
arbitrary: it picks the thread that goes next, and a thread waits as long as another one owns the
lock that it wants.

The discipline for a call is two-phase locking.  A call accesses what it has locked, acquires its
locks in the order of their ranks and acquires no more once it has released one.  Then under every
schedule

* the objects are what the calls make of them one after the other, and the order of the calls keeps
  that of each thread and that of calls that do not overlap (`exists_serialised`);
* no object is accessed by a thread that does not own it (`owner_of_access`);
* what every access keeps holds at every moment (`Reaches.keeps`);
* threads never wait for each other in a circle (`exists_step`) and no schedule goes on for ever
  (`wellFounded_step`).
-/

namespace RtpSender.Threads

variable {ℓ ι γ : Type} {ω : ℓ → Type}

/-- The code of a call over objects `ω`.  An access is atomic, and what follows it may depend on
what it found. -/
inductive Code (ω : ℓ → Type) where
  | done
  | act (lock : ℓ) (access : ω lock → ω lock) (next : ω lock → Code ω)
  | acquire (lock : ℓ) (next : Code ω)
  | release (lock : ℓ) (next : Code ω)

/-! ## Two-phase locking -/

/-- The code releases its locks and accesses only what it holds. -/
def Code.Shrinking : Code ω → Set ℓ → Prop
  | .done, held => held = ∅
  | .act lock _ next, held => lock ∈ held ∧ ∀ found, (next found).Shrinking held
  | .acquire _ _, _ => False
  | .release lock next, held => lock ∈ held ∧ next.Shrinking (held \ {lock})

/-- The code acquires its locks before it releases the first one. -/
def Code.Growing (rank : ℓ → ℕ) : Code ω → Set ℓ → Prop
  | .done, _ => False
  | .act lock _ next, held => lock ∈ held ∧ ∀ found, (next found).Growing rank held
  | .acquire lock next, held =>
    (∀ other ∈ held, rank other < rank lock) ∧ next.Growing rank (insert lock held)
  | .release lock next, held => lock ∈ held ∧ next.Shrinking (held \ {lock})

/-- What is left of some code after one step. -/
inductive Code.Rest : Code ω → Code ω → Prop where
  | act (lock : ℓ) (access : ω lock → ω lock) (next : ω lock → Code ω) (found : ω lock) :
    Rest (next found) (.act lock access next)
  | acquire (lock : ℓ) (next : Code ω) : Rest next (.acquire lock next)
  | release (lock : ℓ) (next : Code ω) : Rest next (.release lock next)

theorem Code.wellFounded_rest : WellFounded (Rest : Code ω → Code ω → Prop) := by
  constructor
  intro code
  induction code with
  | done =>
    constructor
    intro rest h
    cases h
  | act lock access next ih =>
    constructor
    intro rest h
    cases h with
    | act _ _ _ found => exact ih found
  | acquire lock next ih =>
    constructor
    intro rest h
    cases h with
    | acquire => exact ih
  | release lock next ih =>
    constructor
    intro rest h
    cases h with
    | release => exact ih

/-- There is less left to do: fewer calls, or less of the present one. -/
def Less : List γ × Code ω → List γ × Code ω → Prop :=
  Prod.Lex (InvImage (· < ·) List.length) Code.Rest

theorem wellFounded_less : WellFounded (Less : List γ × Code ω → List γ × Code ω → Prop) :=
  WellFounded.prod_lex (InvImage.wf List.length Nat.lt_wfRel.wf) Code.wellFounded_rest

section Solo

variable [DecidableEq ℓ]

/-- The code run by the only thread. -/
def Code.solo : Code ω → (∀ lock, ω lock) → ∀ lock, ω lock
  | .done, state => state
  | .act lock access next, state =>
    (next (state lock)).solo (Function.update state lock (access (state lock)))
  | .acquire _ next, state => next.solo state
  | .release _ next, state => next.solo state

theorem Code.Shrinking.solo_of_notMem {code : Code ω} {held : Set ℓ} (h : code.Shrinking held)
    {lock : ℓ} (hlock : lock ∉ held) (state : ∀ lock, ω lock) :
    code.solo state lock = state lock := by
  induction code generalizing held state with
  | done => rfl
  | act other access next ih =>
    have hne : lock ≠ other := fun heq ↦ hlock (heq ▸ h.1)
    calc (next (state other)).solo (Function.update state other (access (state other))) lock
        = Function.update state other (access (state other)) lock := ih _ (h.2 _) hlock _
      _ = state lock := Function.update_of_ne hne _ _
  | acquire other next ih => exact h.elim
  | release other next ih => exact ih h.2 (fun hmem ↦ hlock hmem.1) state

/-- The code sees and changes only what it holds. -/
theorem Code.Shrinking.solo_congr {code : Code ω} {held : Set ℓ} (h : code.Shrinking held)
    {left right : ∀ lock, ω lock} (hsame : ∀ lock ∈ held, left lock = right lock) :
    ∀ lock ∈ held, code.solo left lock = code.solo right lock := by
  induction code generalizing held left right with
  | done => exact hsame
  | act other access next ih =>
    have hother : left other = right other := hsame other h.1
    intro lock hlock
    unfold solo
    rw [hother]
    refine ih _ (h.2 _) (fun lock hlock ↦ ?_) lock hlock
    rcases eq_or_ne lock other with rfl | hne
    · rw [Function.update_self, Function.update_self]
    · rw [Function.update_of_ne hne, Function.update_of_ne hne, hsame lock hlock]
  | acquire other next ih => exact h.elim
  | release other next ih =>
    intro lock hlock
    by_cases hmem : lock ∈ held \ {other}
    · exact ih h.2 (fun lock hlock ↦ hsame lock hlock.1) lock hmem
    · calc next.solo left lock
          = left lock := h.2.solo_of_notMem hmem left
        _ = right lock := hsame lock hlock
        _ = next.solo right lock := (h.2.solo_of_notMem hmem right).symm

end Solo

/-! ## Objects of one thread -/

section Overlay

open Classical in
/-- The objects of a thread, the others being arbitrary. -/
noncomputable def overlay (held : Set ℓ) (state others : ∀ lock, ω lock) : ∀ lock, ω lock :=
  held.piecewise state others

variable {held : Set ℓ} {now now' others : ∀ lock, ω lock} {lock : ℓ}

theorem overlay_of_mem (hlock : lock ∈ held) : overlay held now others lock = now lock := by
  classical
  exact Set.piecewise_eq_of_mem _ _ _ hlock

theorem overlay_of_notMem (hlock : lock ∉ held) : overlay held now others lock = others lock := by
  classical
  exact Set.piecewise_eq_of_notMem _ _ _ hlock

theorem overlay_congr (hsame : ∀ lock ∈ held, now' lock = now lock) :
    overlay held now' others = overlay held now others := by
  funext lock
  by_cases hlock : lock ∈ held
  · rw [overlay_of_mem hlock, overlay_of_mem hlock, hsame lock hlock]
  · rw [overlay_of_notMem hlock, overlay_of_notMem hlock]

theorem overlay_empty : overlay ∅ now others = others := by
  funext lock
  exact overlay_of_notMem (Set.notMem_empty lock)

theorem overlay_insert (hlock : others lock = now lock) :
    overlay (insert lock held) now others = overlay held now others := by
  funext other
  rcases eq_or_ne other lock with rfl | hne
  · rw [overlay_of_mem (Set.mem_insert _ _)]
    by_cases hother : other ∈ held
    · rw [overlay_of_mem hother]
    · rw [overlay_of_notMem hother, hlock]
  · by_cases hother : other ∈ held
    · rw [overlay_of_mem hother, overlay_of_mem (Set.mem_insert_of_mem _ hother)]
    · have hnot : other ∉ insert lock held := fun hmem ↦ hmem.elim hne hother
      rw [overlay_of_notMem hother, overlay_of_notMem hnot]

theorem overlay_update [DecidableEq ℓ] (hlock : lock ∈ held) (found : ω lock) :
    overlay held (Function.update now lock found) others =
      Function.update (overlay held now others) lock found := by
  funext other
  rcases eq_or_ne other lock with rfl | hne
  · rw [overlay_of_mem hlock, Function.update_self, Function.update_self]
  · rw [Function.update_of_ne hne]
    by_cases hother : other ∈ held
    · rw [overlay_of_mem hother, overlay_of_mem hother, Function.update_of_ne hne]
    · rw [overlay_of_notMem hother, overlay_of_notMem hother]

end Overlay

/-! ## Schedules -/

/-- The threads `ι` with the calls `γ` that each has still to begin, after its present code. -/
structure Config (ι γ : Type) (ω : ℓ → Type) where
  state : ∀ lock, ω lock
  owner : ℓ → Option ι
  code : ι → Code ω
  calls : ι → List γ

/-- No call has begun. -/
def Config.start (state : ∀ lock, ω lock) (calls : ι → List γ) : Config ι γ ω where
  state := state
  owner _ := none
  code _ := .done
  calls := calls

/-- The locks that a thread owns. -/
def locksOf (owner : ℓ → Option ι) (thread : ι) : Set ℓ := {lock | owner lock = some thread}

/-- All calls have returned. -/
def Config.Ended (config : Config ι γ ω) : Prop :=
  ∀ thread, config.code thread = .done ∧ config.calls thread = []

/-- Other threads own other locks. -/
theorem notMem_locksOf {owner : ℓ → Option ι} {thread other : ι} (hne : other ≠ thread) {lock : ℓ}
    (hlock : lock ∈ locksOf owner thread) : lock ∉ locksOf owner other :=
  fun hother ↦ hne (Option.some.inj (hother.symm.trans hlock))

variable [DecidableEq ℓ]

theorem locksOf_release (owner : ℓ → Option ι) (lock : ℓ) (thread : ι) :
    locksOf (Function.update owner lock none) thread = locksOf owner thread \ {lock} := by
  ext other
  rcases eq_or_ne other lock with rfl | hne
  · simp [locksOf]
  · simp [locksOf, hne]

/-- The objects after some calls, one after the other. -/
def serial (body : γ → Code ω) (state : ∀ lock, ω lock) (order : List (ι × γ)) :
    ∀ lock, ω lock :=
  order.foldl (fun state entry ↦ (body entry.2).solo state) state

theorem serial_append (body : γ → Code ω) (state : ∀ lock, ω lock) (order later : List (ι × γ)) :
    serial body state (order ++ later) = serial body (serial body state order) later :=
  List.foldl_append

variable [DecidableEq ι]

theorem locksOf_acquire {owner : ℓ → Option ι} {lock : ℓ} (hfree : owner lock = none)
    (thread other : ι) :
    locksOf (Function.update owner lock (some thread)) other =
      if other = thread then insert lock (locksOf owner other) else locksOf owner other := by
  ext lock'
  rcases eq_or_ne lock' lock with rfl | hne
  · by_cases hother : other = thread
    · simp [locksOf, hother]
    · simp [locksOf, hother, hfree, Ne.symm hother]
  · by_cases hother : other = thread
    · simp [locksOf, hother, hne]
    · simp [locksOf, hother, hne]

variable (body : γ → Code ω)

/-- The steps of a thread. -/
inductive Step (thread : ι) (config : Config ι γ ω) : Config ι γ ω → Prop where
  | call {call rest} (hcode : config.code thread = .done)
    (hcalls : config.calls thread = call :: rest) : Step thread config
      { config with
        code := Function.update config.code thread (body call)
        calls := Function.update config.calls thread rest }
  | act {lock access next} (hcode : config.code thread = .act lock access next) :
    Step thread config
      { config with
        state := Function.update config.state lock (access (config.state lock))
        code := Function.update config.code thread (next (config.state lock)) }
  | acquire {lock next} (hcode : config.code thread = .acquire lock next)
    (hfree : config.owner lock = none) : Step thread config
      { config with
        owner := Function.update config.owner lock (some thread)
        code := Function.update config.code thread next }
  | release {lock next} (hcode : config.code thread = .release lock next) : Step thread config
      { config with
        owner := Function.update config.owner lock none
        code := Function.update config.code thread next }

/-- What the scheduler can make of a configuration. -/
inductive Reaches (config : Config ι γ ω) : Config ι γ ω → Prop where
  | refl : Reaches config config
  | step {middle final} (thread : ι) (before : Reaches config middle)
    (last : Step body thread middle final) : Reaches config final

/-! ## The order of the calls -/

/-- The calls of a thread. -/
def madeBy (order : List (ι × γ)) (thread : ι) : List γ :=
  (order.filter fun entry ↦ entry.1 = thread).map Prod.snd

/-- A thread between its first lock and its last.  A growing call is not in the order yet: on the
objects `before` it would come to where it is.  A shrinking call is in the order already: what is
left of it makes its objects what they are `before` the next call. -/
inductive Phase (rank : ℓ → ℕ) (before state : ∀ lock, ω lock) (made all : List γ) (held : Set ℓ)
    (code : Code ω) (rest : List γ) : Prop where
  | growing (call : γ) (hcalls : made ++ call :: rest = all) (hcode : code.Growing rank held)
    (hsolo : ∀ others, (∀ lock ∈ held, others lock = before lock) →
      (body call).solo others = code.solo (overlay held state others))
  | shrinking (hcalls : made ++ rest = all) (hcode : code.Shrinking held)
    (hsolo : ∀ lock ∈ held, code.solo state lock = before lock)

/-- The calls take effect in some order. -/
structure Tracked (rank : ℓ → ℕ) (state : ∀ lock, ω lock) (calls : ι → List γ)
    (order : List (ι × γ)) (config : Config ι γ ω) : Prop where
  free : ∀ lock, config.owner lock = none → config.state lock = serial body state order lock
  phase : ∀ thread, Phase body rank (serial body state order) config.state (madeBy order thread)
    (calls thread) (locksOf config.owner thread) (config.code thread) (config.calls thread)

variable {body} {rank : ℓ → ℕ} {state : ∀ lock, ω lock} {calls : ι → List γ}
  {order : List (ι × γ)} {config next : Config ι γ ω} {thread : ι}

theorem madeBy_append (order later : List (ι × γ)) (thread : ι) :
    madeBy (order ++ later) thread = madeBy order thread ++ madeBy later thread := by
  unfold madeBy
  rw [List.filter_append, List.map_append]

theorem tracked_start : Tracked body rank state calls [] (Config.start state calls) where
  free _ _ := rfl
  phase thread := by
    have hnone (lock : ℓ) : lock ∉ locksOf (fun _ ↦ none) thread := fun hlock ↦ nomatch hlock
    refine .shrinking rfl (Set.eq_empty_of_forall_notMem hnone) fun lock hlock ↦ ?_
    exact absurd hlock (hnone lock)

/-- The phase of a thread depends on the objects that it owns. -/
theorem Phase.congr {before before' now now' : ∀ lock, ω lock} {made all rest : List γ}
    {held : Set ℓ} {code : Code ω} (h : Phase body rank before now made all held code rest)
    (hbefore : ∀ lock ∈ held, before' lock = before lock)
    (hnow : ∀ lock ∈ held, now' lock = now lock) :
    Phase body rank before' now' made all held code rest := by
  cases h with
  | growing call hcalls hcode hsolo =>
    refine .growing call hcalls hcode fun others hothers ↦ ?_
    rw [overlay_congr hnow]
    exact hsolo others fun lock hlock ↦ (hothers lock hlock).trans (hbefore lock hlock)
  | shrinking hcalls hcode hsolo =>
    refine .shrinking hcalls hcode fun lock hlock ↦ ?_
    rw [hcode.solo_congr hnow lock hlock, hsolo lock hlock, hbefore lock hlock]

section OwnSteps

variable {before now : ∀ lock, ω lock} {made all rest : List γ} {held : Set ℓ} {lock : ℓ}
  {access : ω lock → ω lock} {after : Code ω} {afterAct : ω lock → Code ω}

theorem Phase.call {call : γ} (hbody : (body call).Growing rank ∅)
    (h : Phase body rank before now made all held .done (call :: rest)) :
    Phase body rank before now made all held (body call) rest := by
  cases h with
  | growing call hcalls hcode hsolo => exact hcode.elim
  | shrinking hcalls hcode hsolo =>
    obtain rfl : held = ∅ := hcode
    refine .growing call hcalls hbody fun others _ ↦ ?_
    rw [overlay_empty]

theorem Phase.act (h : Phase body rank before now made all held (.act lock access afterAct) rest) :
    Phase body rank before (Function.update now lock (access (now lock))) made all held
      (afterAct (now lock)) rest := by
  cases h with
  | growing call hcalls hcode hsolo =>
    refine .growing call hcalls (hcode.2 _) fun others hothers ↦ ?_
    rw [hsolo others hothers, overlay_update hcode.1, Code.solo, overlay_of_mem hcode.1]
  | shrinking hcalls hcode hsolo => exact .shrinking hcalls (hcode.2 _) hsolo

theorem Phase.acquire (hfree : now lock = before lock)
    (h : Phase body rank before now made all held (.acquire lock after) rest) :
    Phase body rank before now made all (insert lock held) after rest := by
  cases h with
  | growing call hcalls hcode hsolo =>
    refine .growing call hcalls hcode.2 fun others hothers ↦ ?_
    have hlock : others lock = now lock := (hothers lock (Set.mem_insert _ _)).trans hfree.symm
    rw [overlay_insert hlock]
    exact hsolo others fun other hother ↦ hothers other (Set.mem_insert_of_mem _ hother)
  | shrinking hcalls hcode hsolo => exact hcode.elim

/-- A shrinking call leaves an object in the state that the next call finds. -/
theorem Code.Shrinking.release (h : (Code.release lock after).Shrinking held)
    (hsolo : ∀ other ∈ held, after.solo now other = before other) : now lock = before lock := by
  rw [← hsolo lock h.1, h.2.solo_of_notMem (fun hmem ↦ hmem.2 rfl)]

end OwnSteps

theorem Tracked.call {call : γ} {rest : List γ} (h : Tracked body rank state calls order config)
    (hbody : (body call).Growing rank ∅) (hcode : config.code thread = .done)
    (hcalls : config.calls thread = call :: rest) :
    Tracked body rank state calls order
      { config with
        code := Function.update config.code thread (body call)
        calls := Function.update config.calls thread rest } where
  free := h.free
  phase other := by
    have hother := h.phase other
    rcases eq_or_ne other thread with rfl | hne
    · rw [hcode, hcalls] at hother
      simpa only [Function.update_self] using hother.call hbody
    · simpa only [Function.update_of_ne hne] using hother

theorem Tracked.mem_of_act {lock : ℓ} {access : ω lock → ω lock} {after : ω lock → Code ω}
    (h : Tracked body rank state calls order config)
    (hcode : config.code thread = .act lock access after) :
    lock ∈ locksOf config.owner thread := by
  have hown := h.phase thread
  rw [hcode] at hown
  cases hown with
  | growing call hcalls hcode hsolo => exact hcode.1
  | shrinking hcalls hcode hsolo => exact hcode.1

theorem Tracked.act {lock : ℓ} {access : ω lock → ω lock} {after : ω lock → Code ω}
    (h : Tracked body rank state calls order config)
    (hcode : config.code thread = .act lock access after) :
    Tracked body rank state calls order
      { config with
        state := Function.update config.state lock (access (config.state lock))
        code := Function.update config.code thread (after (config.state lock)) } := by
  have hlock := h.mem_of_act hcode
  have hframe {other : ℓ} (hother : other ≠ lock) :
      Function.update config.state lock (access (config.state lock)) other = config.state other :=
    Function.update_of_ne hother _ _
  constructor
  · intro other hfree
    have hother : other ≠ lock := by
      rintro rfl
      exact nomatch hfree.symm.trans hlock
    exact (hframe hother).trans (h.free other hfree)
  · intro other
    have hother := h.phase other
    rcases eq_or_ne other thread with rfl | hne
    · rw [hcode] at hother
      simpa only [Function.update_self] using hother.act
    · have hsame (lock' : ℓ) (hlock' : lock' ∈ locksOf config.owner other) : lock' ≠ lock := by
        rintro rfl
        exact notMem_locksOf hne hlock hlock'
      have hkept := hother.congr (fun _ _ ↦ rfl) fun lock' hlock' ↦ hframe (hsame lock' hlock')
      simpa only [Function.update_of_ne hne] using hkept

theorem Tracked.acquire {lock : ℓ} {after : Code ω}
    (h : Tracked body rank state calls order config)
    (hcode : config.code thread = .acquire lock after) (hfree : config.owner lock = none) :
    Tracked body rank state calls order
      { config with
        owner := Function.update config.owner lock (some thread)
        code := Function.update config.code thread after } := by
  constructor
  · intro other hother
    have hne : other ≠ lock := by
      rintro rfl
      simp at hother
    exact h.free other ((Function.update_of_ne hne _ _).symm.trans hother)
  · intro other
    have hother := h.phase other
    rw [locksOf_acquire hfree]
    rcases eq_or_ne other thread with rfl | hne
    · rw [hcode] at hother
      simpa only [Function.update_self, if_pos] using hother.acquire (h.free lock hfree)
    · simpa only [Function.update_of_ne hne, if_neg hne] using hother

/-- A release by a call that shrinks, once the calls `later` are in the order too. -/
theorem Tracked.release_of {lock : ℓ} {after : Code ω} {later : List (ι × γ)}
    (h : Tracked body rank state calls order config)
    (hshrink : (Code.release lock after).Shrinking (locksOf config.owner thread))
    (hframe : ∀ other ∉ locksOf config.owner thread,
      serial body state (order ++ later) other = serial body state order other)
    (hsolo : ∀ other ∈ locksOf config.owner thread,
      after.solo config.state other = serial body state (order ++ later) other)
    (hcalls : madeBy (order ++ later) thread ++ config.calls thread = calls thread)
    (hmade : ∀ other ≠ thread, madeBy (order ++ later) other = madeBy order other) :
    Tracked body rank state calls (order ++ later)
      { config with
        owner := Function.update config.owner lock none
        code := Function.update config.code thread after } := by
  constructor
  · intro other hfree
    rcases eq_or_ne other lock with rfl | hne
    · exact hshrink.release hsolo
    · have hbefore : config.owner other = none := (Function.update_of_ne hne _ _).symm.trans hfree
      have hnot : other ∉ locksOf config.owner thread := fun hmem ↦ nomatch hbefore.symm.trans hmem
      exact (h.free other hbefore).trans (hframe other hnot).symm
  · intro other
    rw [locksOf_release]
    rcases eq_or_ne other thread with rfl | hne
    · have hown : Phase body rank (serial body state (order ++ later)) config.state
          (madeBy (order ++ later) other) (calls other) (locksOf config.owner other \ {lock}) after
          (config.calls other) :=
        .shrinking hcalls hshrink.2 fun lock' hlock' ↦ hsolo lock' hlock'.1
      simpa only [Function.update_self] using hown
    · have hnot : lock ∉ locksOf config.owner other := notMem_locksOf hne hshrink.1
      have hkept := (h.phase other).congr
        (fun lock' hlock' ↦ hframe lock' (notMem_locksOf hne.symm hlock')) fun _ _ ↦ rfl
      rw [Set.sdiff_singleton_eq_self hnot, hmade other hne]
      simpa only [Function.update_of_ne hne] using hkept

theorem Tracked.release {lock : ℓ} {after : Code ω}
    (h : Tracked body rank state calls order config)
    (hcode : config.code thread = .release lock after) :
    ∃ later, Tracked body rank state calls (order ++ later)
      { config with
        owner := Function.update config.owner lock none
        code := Function.update config.code thread after } := by
  have hown := h.phase thread
  rw [hcode] at hown
  cases hown with
  | shrinking hcalls hcode hsolo =>
    refine ⟨[], h.release_of hcode ?_ ?_ ?_ ?_⟩
    · rw [List.append_nil]
      exact fun _ _ ↦ rfl
    · rw [List.append_nil]
      exact hsolo
    · rw [List.append_nil]
      exact hcalls
    · rw [List.append_nil]
      exact fun _ _ ↦ rfl
  | growing call hcalls hcode hsolo =>
    -- the first release is where the call takes effect
    have hserial : serial body state (order ++ [(thread, call)]) =
        after.solo (overlay (locksOf config.owner thread) config.state
          (serial body state order)) := by
      rw [serial_append]
      exact hsolo _ fun _ _ ↦ rfl
    refine ⟨[(thread, call)], h.release_of hcode ?_ ?_ ?_ ?_⟩
    · intro other hother
      rw [hserial, hcode.2.solo_of_notMem (fun hmem ↦ hother hmem.1), overlay_of_notMem hother]
    · intro other hother
      rw [hserial]
      by_cases hmem : other ∈ locksOf config.owner thread \ {lock}
      · exact hcode.2.solo_congr (fun lock' hlock' ↦ (overlay_of_mem hlock'.1).symm) other hmem
      · rw [hcode.2.solo_of_notMem hmem, hcode.2.solo_of_notMem hmem, overlay_of_mem hother]
    · rw [madeBy_append, ← hcalls, List.append_assoc]
      simp [madeBy]
    · intro other hne
      rw [madeBy_append]
      simp [madeBy, hne.symm]

theorem Tracked.step (hbody : ∀ call, (body call).Growing rank ∅)
    (h : Tracked body rank state calls order config) (hstep : Step body thread config next) :
    ∃ later, Tracked body rank state calls (order ++ later) next := by
  cases hstep with
  | call hcode hcalls =>
    exact ⟨[], by simpa only [List.append_nil] using h.call (hbody _) hcode hcalls⟩
  | act hcode => exact ⟨[], by simpa only [List.append_nil] using h.act hcode⟩
  | acquire hcode hfree =>
    exact ⟨[], by simpa only [List.append_nil] using h.acquire hcode hfree⟩
  | release hcode => exact h.release hcode

theorem Tracked.reaches (hbody : ∀ call, (body call).Growing rank ∅)
    (h : Tracked body rank state calls order config) (hreach : Reaches body config next) :
    ∃ later, Tracked body rank state calls (order ++ later) next := by
  induction hreach with
  | refl => exact ⟨[], by rwa [List.append_nil]⟩
  | step thread _ hlast ih =>
    obtain ⟨later, hmiddle⟩ := ih
    obtain ⟨last, hfinal⟩ := hmiddle.step hbody hlast
    exact ⟨later ++ last, by rwa [← List.append_assoc]⟩

/-! ## Serialisation -/

/-- The calls that took effect, in their order.  The call that a thread is making may be among them
or not. -/
structure Serialised (body : γ → Code ω) (state : ∀ lock, ω lock) (calls : ι → List γ)
    (order : List (ι × γ)) (config : Config ι γ ω) : Prop where
  free : ∀ lock, config.owner lock = none → config.state lock = serial body state order lock
  program : ∀ thread, ∃ present, present.length ≤ 1 ∧
    (config.code thread = .done → present = []) ∧
    madeBy order thread ++ present ++ config.calls thread = calls thread
  idle : (∀ thread, config.code thread = .done) → ∀ lock, config.owner lock = none

theorem Tracked.code_ne_done (h : Tracked body rank state calls order config) {lock : ℓ}
    (hlock : lock ∈ locksOf config.owner thread) : config.code thread ≠ .done := by
  intro hdone
  have hown := h.phase thread
  rw [hdone] at hown
  cases hown with
  | growing call hcalls hcode hsolo => exact hcode.elim
  | shrinking hcalls hcode hsolo => exact Set.eq_empty_iff_forall_notMem.mp hcode lock hlock

theorem Tracked.serialised (h : Tracked body rank state calls order config) :
    Serialised body state calls order config where
  free := h.free
  program thread := by
    cases h.phase thread with
    | growing call hcalls hcode hsolo =>
      refine ⟨[call], le_rfl, fun hdone ↦ ?_, ?_⟩
      · rw [hdone] at hcode
        exact hcode.elim
      · rw [List.append_assoc, List.singleton_append, hcalls]
    | shrinking hcalls hcode hsolo =>
      refine ⟨[], Nat.zero_le 1, fun _ ↦ rfl, ?_⟩
      rw [List.append_nil, hcalls]
  idle hdone lock := by
    rw [Option.eq_none_iff_forall_ne_some]
    exact fun thread howner ↦ h.code_ne_done howner (hdone thread)

/-- Once all calls have returned, each thread has made its calls and nothing else has happened. -/
theorem Serialised.of_ended (h : Serialised body state calls order config)
    (hended : config.Ended) :
    config.state = serial body state order ∧ ∀ thread, madeBy order thread = calls thread := by
  constructor
  · funext lock
    exact h.free lock (h.idle (fun thread ↦ (hended thread).1) lock)
  · intro thread
    obtain ⟨present, -, hpresent, hcalls⟩ := h.program thread
    rw [hpresent (hended thread).1, (hended thread).2, List.append_nil, List.append_nil] at hcalls
    exact hcalls

/-- **Serialisation.** Calls that return before others begin come first in the order. -/
theorem exists_serialised (hbody : ∀ call, (body call).Growing rank ∅)
    {middle final : Config ι γ ω} (hmiddle : Reaches body (.start state calls) middle)
    (hfinal : Reaches body middle final) :
    ∃ order later, Serialised body state calls order middle ∧
      Serialised body state calls (order ++ later) final := by
  obtain ⟨order, horder⟩ := tracked_start.reaches hbody hmiddle
  obtain ⟨later, hlater⟩ := horder.reaches hbody hfinal
  exact ⟨_, later, horder.serialised, hlater.serialised⟩

/-- No object is accessed without its lock. -/
theorem owner_of_access (hbody : ∀ call, (body call).Growing rank ∅)
    (hreach : Reaches body (.start state calls) config) {lock : ℓ} {access : ω lock → ω lock}
    {after : ω lock → Code ω} (hcode : config.code thread = .act lock access after) :
    config.owner lock = some thread := by
  obtain ⟨order, horder⟩ := tracked_start.reaches hbody hreach
  exact horder.mem_of_act hcode

/-! ## Invariants of objects -/

/-- Every access of the code keeps what holds of the objects. -/
def Code.Keeps (inv : ∀ lock, ω lock → Prop) : Code ω → Prop
  | .done => True
  | .act lock access next =>
    (∀ found, inv lock found → inv lock (access found)) ∧ ∀ found, (next found).Keeps inv
  | .acquire _ next => next.Keeps inv
  | .release _ next => next.Keeps inv

/-- What every access keeps holds of all objects at every moment, locked or not. -/
theorem Reaches.keeps {inv : ∀ lock, ω lock → Prop} (hbody : ∀ call, (body call).Keeps inv)
    (hstate : ∀ lock, inv lock (state lock)) (hreach : Reaches body (.start state calls) config) :
    ∀ lock, inv lock (config.state lock) := by
  have hall : (∀ lock, inv lock (config.state lock)) ∧
      ∀ thread, (config.code thread).Keeps inv := by
    induction hreach with
    | refl => exact ⟨hstate, fun _ ↦ trivial⟩
    | @step middle _ thread _ hlast ih =>
      obtain ⟨hobjects, hcodes⟩ := ih
      have hown := hcodes thread
      have hothers {after : Code ω} (hafter : after.Keeps inv) (other : ι) :
          (Function.update middle.code thread after other).Keeps inv := by
        rcases eq_or_ne other thread with rfl | hne
        · rwa [Function.update_self]
        · rw [Function.update_of_ne hne]
          exact hcodes other
      cases hlast with
      | call hcode hcalls => exact ⟨hobjects, hothers (hbody _)⟩
      | @act lock access next hcode =>
        rw [hcode] at hown
        refine ⟨fun other ↦ ?_, hothers (hown.2 _)⟩
        dsimp only
        rcases eq_or_ne other lock with rfl | hne
        · rw [Function.update_self]
          exact hown.1 _ (hobjects other)
        · rw [Function.update_of_ne hne]
          exact hobjects other
      | acquire hcode hfree =>
        rw [hcode] at hown
        exact ⟨hobjects, hothers hown⟩
      | release hcode =>
        rw [hcode] at hown
        exact ⟨hobjects, hothers hown⟩
  exact hall.1

/-! ## Progress -/

/-- A thread that waits for a lock wants one above all those that it owns. -/
theorem Tracked.rank_lt (h : Tracked body rank state calls order config) {lock wanted : ℓ}
    {after : Code ω} (hlock : lock ∈ locksOf config.owner thread)
    (hcode : config.code thread = .acquire wanted after) : rank lock < rank wanted := by
  have hown := h.phase thread
  rw [hcode] at hown
  cases hown with
  | growing call hcalls hcode hsolo => exact hcode.1 lock hlock
  | shrinking hcalls hcode hsolo => exact hcode.elim

/-- If a lock is taken, its owner can go on, or the owner of a lock above it, and so forth. -/
theorem Tracked.exists_step_of_owner {bound : ℕ} (hbound : ∀ lock, rank lock < bound)
    (h : Tracked body rank state calls order config) {lock : ℓ}
    (howner : config.owner lock = some thread) :
    ∃ thread next, Step body thread config next := by
  induction hn : bound - rank lock using Nat.strong_induction_on generalizing lock thread with
  | _ n ih =>
    cases hcode : config.code thread with
    | done => exact absurd hcode (h.code_ne_done howner)
    | act other access after => exact ⟨thread, _, .act hcode⟩
    | release other after => exact ⟨thread, _, .release hcode⟩
    | acquire wanted after =>
      cases hwanted : config.owner wanted with
      | none => exact ⟨thread, _, .acquire hcode hwanted⟩
      | some other =>
        have hrank := h.rank_lt howner hcode
        have hlt := hbound wanted
        exact ih _ (by omega) hwanted rfl

/-- **Progress.** Some thread can go on unless all calls have returned. -/
theorem exists_step {bound : ℕ} (hbound : ∀ lock, rank lock < bound)
    (hbody : ∀ call, (body call).Growing rank ∅)
    (hreach : Reaches body (.start state calls) config) (hlive : ¬ config.Ended) :
    ∃ thread next, Step body thread config next := by
  obtain ⟨order, horder⟩ := tracked_start.reaches hbody hreach
  obtain ⟨thread, hthread⟩ := not_forall.mp hlive
  cases hcode : config.code thread with
  | done =>
    cases hcalls : config.calls thread with
    | nil => exact absurd ⟨hcode, hcalls⟩ hthread
    | cons call rest => exact ⟨thread, _, .call hcode hcalls⟩
  | act lock access after => exact ⟨thread, _, .act hcode⟩
  | release lock after => exact ⟨thread, _, .release hcode⟩
  | acquire lock after =>
    cases howner : config.owner lock with
    | none => exact ⟨thread, _, .acquire hcode howner⟩
    | some other => exact horder.exists_step_of_owner hbound howner

/-- A step leaves less to one thread and changes nothing for the others. -/
theorem less_of_step (h : Step body thread config next) :
    Less (next.calls thread, next.code thread) (config.calls thread, config.code thread) ∧
      ∀ other ≠ thread, next.calls other = config.calls other ∧
        next.code other = config.code other := by
  constructor
  · unfold Less
    cases h with
    | call hcode hcalls =>
      apply Prod.Lex.left
      simp [InvImage, hcalls]
    | act hcode =>
      simpa only [Function.update_self, hcode] using Prod.Lex.right _ (Code.Rest.act _ _ _ _)
    | acquire hcode hfree =>
      simpa only [Function.update_self, hcode] using Prod.Lex.right _ (Code.Rest.acquire _ _)
    | release hcode =>
      simpa only [Function.update_self, hcode] using Prod.Lex.right _ (Code.Rest.release _ _)
  · intro other hne
    cases h with
    | call hcode hcalls =>
      exact ⟨Function.update_of_ne hne _ _, Function.update_of_ne hne _ _⟩
    | act hcode => exact ⟨rfl, Function.update_of_ne hne _ _⟩
    | acquire hcode hfree => exact ⟨rfl, Function.update_of_ne hne _ _⟩
    | release hcode => exact ⟨rfl, Function.update_of_ne hne _ _⟩

/-- What is left to do for all threads. -/
def work [Fintype ι] (config : Config ι γ ω) : Multiset (List γ × Code ω) :=
  Finset.univ.val.map fun thread ↦ (config.calls thread, config.code thread)

theorem cutExpand_of_step [Fintype ι] (h : Step body thread config next) :
    Relation.CutExpand Less (work next) (work config) := by
  obtain ⟨hless, hothers⟩ := less_of_step h
  have hsplit : (Finset.univ : Finset ι).val = thread ::ₘ (Finset.univ.erase thread).val := by
    rw [← Finset.insert_val_of_notMem (Finset.notMem_erase thread Finset.univ),
      Finset.insert_erase (Finset.mem_univ thread)]
  have hsame :
      (Finset.univ.erase thread).val.map (fun other ↦ (next.calls other, next.code other)) =
      (Finset.univ.erase thread).val.map fun other ↦ (config.calls other, config.code other) := by
    apply Multiset.map_congr rfl
    intro other hother
    obtain ⟨hcalls, hcode⟩ := hothers other (Finset.ne_of_mem_erase hother)
    rw [hcalls, hcode]
  unfold work
  rw [hsplit, Multiset.map_cons, Multiset.map_cons, hsame, ← Multiset.singleton_add,
    ← Multiset.singleton_add]
  exact (Relation.cutExpand_add_right _).mpr (Relation.cutExpand_singleton_singleton hless)

/-- **Termination.** No schedule of finitely many threads is infinite. -/
theorem wellFounded_step [Fintype ι] :
    WellFounded fun next config : Config ι γ ω ↦ ∃ thread, Step body thread config next :=
  Subrelation.wf (fun ⟨_, h⟩ ↦ cutExpand_of_step h) (InvImage.wf work wellFounded_less.cutExpand)

end RtpSender.Threads
