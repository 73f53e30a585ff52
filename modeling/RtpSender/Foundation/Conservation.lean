import RtpSender.Foundation.Emitter
import RtpSender.Foundation.History

/-!
# Conservation in queues

A program works on a state with a queue and emits one event for each element that leaves the queue.
It conserves elements when those that leave, followed by those that stay, are the old elements
followed by the added ones.  Nothing is then lost, doubled or reordered, whatever the reasons for
which elements leave, and the elements still in the queue are the last ones that were added.  A run
conserves elements already when every round does so in the state that it finds.
-/

open RtpSender.History

namespace RtpSender.Emitter

variable {σ ε α β : Type*} {queue : σ → List α} {leaving : ε → α}

def Conserves (queue : σ → List α) (leaving : ε → α) (program : Emit σ ε) (added : List α) : Prop :=
  ∀ state, (program state).2.map leaving ++ queue (program state).1 = queue state ++ added

/-- The rounds of an iteration may conserve elements only where the run takes them. -/
theorem conserves_of_history {body : β → Emit σ ε} {added : β → List α} {bs : List β} {state : σ}
    (h : HistoryForall (fun before b ↦
      (body b (forEach body before state).1).2.map leaving ++
          queue (body b (forEach body before state).1).1 =
        queue (forEach body before state).1 ++ added b) bs) :
    (forEach body bs state).2.map leaving ++ queue (forEach body bs state).1 =
      queue state ++ bs.flatMap added := by
  induction bs generalizing state with
  | nil =>
    rw [forEach_nil, skip_apply, List.map_nil, List.nil_append, List.flatMap_nil, List.append_nil]
  | cons b bs ih =>
    obtain ⟨hfirst, hlater⟩ := historyForall_cons.mp h
    have hhead : (body b state).2.map leaving ++ queue (body b state).1 =
        queue state ++ added b := hfirst
    calc (forEach body (b :: bs) state).2.map leaving ++ queue (forEach body (b :: bs) state).1
        = (body b state).2.map leaving ++ ((forEach body bs (body b state).1).2.map leaving ++
            queue (forEach body bs (body b state).1).1) := by
          rw [forEach_cons, andThen_snd, andThen_fst, List.map_append, List.append_assoc]
      _ = ((body b state).2.map leaving ++ queue (body b state).1) ++ bs.flatMap added := by
          rw [ih hlater, List.append_assoc]
      _ = queue state ++ (b :: bs).flatMap added := by
          rw [hhead, List.append_assoc, List.flatMap_cons]

theorem conserves_forEach {body : β → Emit σ ε} {added : β → List α} {bs : List β}
    (hbody : ∀ b ∈ bs, Conserves queue leaving (body b) (added b)) :
    Conserves queue leaving (forEach body bs) (bs.flatMap added) := by
  intro state
  apply conserves_of_history
  intro before b after hsplit
  exact hbody b (mem_of_eq_append_cons hsplit) _

/-- From an empty queue on, the queue holds the last of the added elements. -/
theorem Conserves.suffix {program : Emit σ ε} {added : List α}
    (h : Conserves queue leaving program added) {state : σ} (hempty : queue state = []) :
    queue (program state).1 <:+ added := by
  have hall := h state
  rw [hempty, List.nil_append] at hall
  exact ⟨_, hall⟩

end RtpSender.Emitter
