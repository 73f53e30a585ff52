import Mathlib.Data.List.Basic

/-!
# Properties of events relative to what happened before

`HistoryForall p events` says that every event of a list satisfies `p` together with the events that
precede it.  It is the form of statements such as "every report counts what was sent before it", and
it is checked one event at a time.
-/

namespace RtpSender.History

variable {α : Type*}

def HistoryForall (p : List α → α → Prop) (events : List α) : Prop :=
  ∀ before event after, events = before ++ event :: after → p before event

variable {p q : List α → α → Prop}

theorem mem_of_eq_append_cons {events before after : List α} {event : α}
    (h : events = before ++ event :: after) : event ∈ events := by
  rw [h]
  exact List.mem_append_right _ (List.mem_cons_self ..)

theorem historyForall_nil : HistoryForall p [] := by
  intro before event after h
  simp at h

/-- Appending one event adds the demand on this event only. -/
theorem historyForall_concat {events : List α} {event : α} :
    HistoryForall p (events ++ [event]) ↔ HistoryForall p events ∧ p events event := by
  constructor
  · intro h
    constructor
    · intro before earlier after heq
      exact h before earlier (after ++ [event]) (by rw [heq]; simp)
    · exact h events event [] rfl
  · rintro ⟨hevents, hlast⟩ before earlier after heq
    rcases List.eq_nil_or_concat after with rfl | ⟨after, last, rfl⟩
    · obtain ⟨rfl, hsame⟩ := List.append_inj' heq rfl
      rw [← List.singleton_inj.mp hsame]
      exact hlast
    · have hsplit : events ++ [event] = (before ++ earlier :: after) ++ [last] := by simpa using heq
      exact hevents before earlier after (List.append_inj' hsplit rfl).1

/-- The later events have the first one in their past. -/
theorem historyForall_cons {event : α} {events : List α} :
    HistoryForall p (event :: events) ↔
      p [] event ∧ HistoryForall (fun before ↦ p (event :: before)) events := by
  constructor
  · intro h
    constructor
    · exact h [] event events rfl
    · intro before later after heq
      exact h (event :: before) later after (by rw [heq, List.cons_append])
  · rintro ⟨hfirst, hevents⟩ before later after heq
    cases before with
    | nil =>
      obtain ⟨rfl, -⟩ := List.cons.inj heq
      exact hfirst
    | cons head before =>
      obtain ⟨rfl, hsplit⟩ := List.cons.inj heq
      exact hevents before later after hsplit

theorem HistoryForall.of_append {events later : List α} (h : HistoryForall p (events ++ later)) :
    HistoryForall p events := by
  intro before event after heq
  exact h before event (after ++ later) (by rw [heq]; simp)

end RtpSender.History
