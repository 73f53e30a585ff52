import RtpSender.Foundation.Delimiter

/-!
# Splitting a list at a pattern

`splitAll pattern` cuts a list at every occurrence of a pattern, from left to right.  It gives what
comes before the first occurrence and the pieces behind the occurrences.  No piece contains the
pattern, and putting the pattern back in between gives the list.  For a pattern without a border the
pieces are the only ones with these two properties.
-/

namespace RtpSender.Delimiter

variable {α : Type*} [DecidableEq α]

/-- What comes before the first occurrence of the pattern, and the pieces behind the occurrences. -/
def splitAll (pattern list : List α) : List α × List (List α) :=
  let cut := cutWhen pattern.isPrefixOf list
  if cut.2 = [] ∨ pattern = [] then (list, [])
  else
    let rest := splitAll pattern (cut.2.drop pattern.length)
    (cut.1, rest.1 :: rest.2)
termination_by list.length
decreasing_by
  have hlength := @length_cutWhen_fst _ pattern.isPrefixOf list
  rename_i h
  rw [not_or] at h
  have hfound : 0 < (cutWhen pattern.isPrefixOf list).2.length := List.length_pos_iff.mpr h.1
  have hpattern : 0 < pattern.length := List.length_pos_iff.mpr h.2
  rw [List.length_drop]
  omega

/-- Pieces with the pattern in front of each. -/
def joinPieces (pattern : List α) (pieces : List (List α)) : List α :=
  pieces.flatMap fun piece ↦ pattern ++ piece

omit [DecidableEq α] in
@[simp]
theorem joinPieces_nil (pattern : List α) : joinPieces pattern [] = [] := rfl

omit [DecidableEq α] in
theorem joinPieces_cons (pattern piece : List α) (pieces : List (List α)) :
    joinPieces pattern (piece :: pieces) = pattern ++ (piece ++ joinPieces pattern pieces) := by
  simp [joinPieces]

omit [DecidableEq α] in
theorem joinPieces_append (pattern : List α) (pieces pieces' : List (List α)) :
    joinPieces pattern (pieces ++ pieces') =
      joinPieces pattern pieces ++ joinPieces pattern pieces' := by
  simp [joinPieces]

variable {pattern : List α}

theorem splitAll_of_cutWhen_nil {list : List α} (h : (cutWhen pattern.isPrefixOf list).2 = []) :
    splitAll pattern list = (list, []) := by
  rw [splitAll, if_pos (Or.inl h)]

/-- Splitting a text free of the pattern that is followed by an occurrence. -/
theorem splitAll_append (hpattern : Unbordered pattern) (hne : pattern ≠ []) {text : List α}
    (hfree : ¬ pattern <:+: text) (rest : List α) :
    splitAll pattern (text ++ (pattern ++ rest)) =
      (text, (splitAll pattern rest).1 :: (splitAll pattern rest).2) := by
  have hgo : ∀ x, x ≠ [] → x <:+ text → pattern.isPrefixOf (x ++ (pattern ++ rest)) = false := by
    intro x hx hsuffix
    rw [Bool.eq_false_iff, ne_eq, List.isPrefixOf_iff_prefix]
    exact hpattern.not_prefix_append hfree hx hsuffix rest
  have hstop : pattern.isPrefixOf (pattern ++ rest) = true :=
    List.isPrefixOf_iff_prefix.mpr (List.prefix_append pattern rest)
  have hcut : cutWhen pattern.isPrefixOf (text ++ (pattern ++ rest)) = (text, pattern ++ rest) := by
    rw [cutWhen_append _ _ hgo, cutWhen_of_stop hstop, List.append_nil]
  have hfound : pattern ++ rest ≠ [] := List.append_ne_nil_of_left_ne_nil hne rest
  rw [splitAll]
  simp only [hcut, hfound, hne, or_self, if_false, List.drop_left]

theorem splitAll_of_free {text : List α} (hfree : ¬ pattern <:+: text) :
    splitAll pattern text = (text, []) := by
  apply splitAll_of_cutWhen_nil
  have hgo : ∀ x, x ≠ [] → x <:+ text → pattern.isPrefixOf (x ++ []) = false := by
    intro x _ hsuffix
    rw [List.append_nil, Bool.eq_false_iff, ne_eq, List.isPrefixOf_iff_prefix]
    exact not_prefix_of_suffix hfree hsuffix
  have hcut := cutWhen_append text [] hgo
  rw [List.append_nil] at hcut
  rw [hcut, cutWhen_nil]

/-- Pieces free of a pattern without a border are recovered. -/
theorem splitAll_joinPieces (hpattern : Unbordered pattern) (hne : pattern ≠ []) {text : List α}
    {pieces : List (List α)} (htext : ¬ pattern <:+: text)
    (hpieces : ∀ piece ∈ pieces, ¬ pattern <:+: piece) :
    splitAll pattern (text ++ joinPieces pattern pieces) = (text, pieces) := by
  induction pieces generalizing text with
  | nil =>
    rw [joinPieces_nil, List.append_nil]
    exact splitAll_of_free htext
  | cons piece pieces ih =>
    have hrest := ih (hpieces piece (List.mem_cons_self ..))
      fun p hp ↦ hpieces p (List.mem_cons_of_mem _ hp)
    rw [joinPieces_cons, splitAll_append hpattern hne htext, hrest]

theorem append_joinPieces_splitAll (pattern list : List α) :
    (splitAll pattern list).1 ++ joinPieces pattern (splitAll pattern list).2 = list := by
  fun_induction splitAll pattern list with
  | case1 list cut h => exact List.append_nil list
  | case2 list cut h rest ih =>
    rw [not_or] at h
    have hprefix : pattern <+: cut.2 :=
      List.isPrefixOf_iff_prefix.mp (stop_cutWhen_snd list h.1)
    obtain ⟨after, hafter⟩ := hprefix
    have hdrop : cut.2.drop pattern.length = after := by rw [← hafter, List.drop_left]
    have hrest : rest.1 ++ joinPieces pattern rest.2 = after := by rw [← hdrop, ih]
    calc cut.1 ++ joinPieces pattern (rest.1 :: rest.2)
        = cut.1 ++ cut.2 := by rw [joinPieces_cons, hrest, hafter]
      _ = list := cutWhen_append_cutWhen list

theorem not_infix_cutWhen (hne : pattern ≠ []) (list : List α) :
    ¬ pattern <:+: (cutWhen pattern.isPrefixOf list).1 := by
  induction list with
  | nil =>
    intro hoccurs
    exact hne (List.infix_nil.mp hoccurs)
  | cons a as ih =>
    cases hstop : pattern.isPrefixOf (a :: as) with
    | true =>
      rw [cutWhen_of_stop hstop]
      intro hoccurs
      exact hne (List.infix_nil.mp hoccurs)
    | false =>
      rw [cutWhen_cons_of_not_stop hstop, List.infix_cons_iff]
      rintro (hfront | hlater)
      · have hwhole : a :: (cutWhen pattern.isPrefixOf as).1 <+: a :: as := by
          rw [List.prefix_cons_inj]
          exact ⟨_, cutWhen_append_cutWhen as⟩
        rw [Bool.eq_false_iff, ne_eq, List.isPrefixOf_iff_prefix] at hstop
        exact hstop (hfront.trans hwhole)
      · exact ih hlater

/-- No piece contains the pattern. -/
theorem not_infix_splitAll (hne : pattern ≠ []) (list : List α) :
    ¬ pattern <:+: (splitAll pattern list).1 ∧
      ∀ piece ∈ (splitAll pattern list).2, ¬ pattern <:+: piece := by
  fun_induction splitAll pattern list with
  | case1 list cut h =>
    have hfree := not_infix_cutWhen hne list
    have hall : (cutWhen pattern.isPrefixOf list).1 ++ (cutWhen pattern.isPrefixOf list).2 = list :=
      cutWhen_append_cutWhen list
    rw [h.resolve_right hne, List.append_nil] at hall
    rw [hall] at hfree
    exact ⟨hfree, by simp⟩
  | case2 list cut h rest ih =>
    refine ⟨not_infix_cutWhen hne list, ?_⟩
    intro piece hpiece
    rcases List.mem_cons.mp hpiece with rfl | hlater
    · exact ih.1
    · exact ih.2 piece hlater

/-- Every occurrence of a pattern without a border is a cut. -/
theorem splitAll_append_pattern (hpattern : Unbordered pattern) (hne : pattern ≠ [])
    (before after : List α) :
    splitAll pattern (before ++ (pattern ++ after)) =
      ((splitAll pattern before).1, (splitAll pattern before).2 ++
        (splitAll pattern after).1 :: (splitAll pattern after).2) := by
  obtain ⟨hfirst, hpieces⟩ := not_infix_splitAll hne before
  obtain ⟨hfirst', hpieces'⟩ := not_infix_splitAll hne after
  have hall : ∀ piece ∈ (splitAll pattern before).2 ++
      (splitAll pattern after).1 :: (splitAll pattern after).2, ¬ pattern <:+: piece := by
    intro piece hpiece
    rcases List.mem_append.mp hpiece with hleft | hright
    · exact hpieces piece hleft
    · rcases List.mem_cons.mp hright with rfl | hlater
      · exact hfirst'
      · exact hpieces' piece hlater
  have hjoin : before ++ (pattern ++ after) = (splitAll pattern before).1 ++ joinPieces pattern
      ((splitAll pattern before).2 ++ (splitAll pattern after).1 ::
        (splitAll pattern after).2) := by
    have hbefore := append_joinPieces_splitAll pattern before
    have hafter := append_joinPieces_splitAll pattern after
    calc before ++ (pattern ++ after)
        = ((splitAll pattern before).1 ++ joinPieces pattern (splitAll pattern before).2) ++
            (pattern ++ ((splitAll pattern after).1 ++
              joinPieces pattern (splitAll pattern after).2)) := by rw [hbefore, hafter]
      _ = _ := by rw [joinPieces_append, joinPieces_cons, List.append_assoc]
  rw [hjoin, splitAll_joinPieces hpattern hne hfirst hall]

end RtpSender.Delimiter
