import Mathlib.Data.List.Basic
import Mathlib.Data.List.Infix
import Mathlib.Data.List.SplitBy

/-!
# Cutting a list at delimiters

`cutWhen stop` cuts a list before its first nonempty suffix that satisfies `stop`; delimiters are
the case where `stop` asks for a given pattern at the front.  A pattern without a border, that is,
without a proper beginning that is also an end of it, cannot straddle the boundary between a text
free of it and one of its occurrences.

`cutAfter last` cuts a list after each element that satisfies `last`.  It recovers groups each of
which ends with its only such element, and it recovers a coarser division only if this is the same.
Groups with a common key each, different for neighbours, are the maximal runs of equal keys.
-/

namespace RtpSender.Delimiter

variable {α : Type*}

/-- What comes before the first suffix that satisfies `stop`, and that suffix. -/
def cutWhen (stop : List α → Bool) : List α → List α × List α
  | [] => ([], [])
  | a :: as =>
    if stop (a :: as) then ([], a :: as)
    else
      let (before, found) := cutWhen stop as
      (a :: before, found)

variable {stop : List α → Bool}

@[simp]
theorem cutWhen_nil : cutWhen stop [] = ([], []) := rfl

theorem cutWhen_of_stop {list : List α} (h : stop list = true) :
    cutWhen stop list = ([], list) := by
  cases list with
  | nil => rfl
  | cons a as => rw [cutWhen, if_pos h]

theorem cutWhen_cons_of_not_stop {a : α} {as : List α} (h : stop (a :: as) = false) :
    cutWhen stop (a :: as) = (a :: (cutWhen stop as).1, (cutWhen stop as).2) := by
  rw [cutWhen, if_neg (by simp [h])]

theorem cutWhen_append_cutWhen (list : List α) :
    (cutWhen stop list).1 ++ (cutWhen stop list).2 = list := by
  induction list with
  | nil => rfl
  | cons a as ih =>
    cases h : stop (a :: as) with
    | true => rw [cutWhen_of_stop h, List.nil_append]
    | false => rw [cutWhen_cons_of_not_stop h, List.cons_append, ih]

theorem length_cutWhen_fst (list : List α) :
    (cutWhen stop list).1.length + (cutWhen stop list).2.length = list.length := by
  rw [← List.length_append, cutWhen_append_cutWhen]

/-- The second half is empty or satisfies the predicate. -/
theorem stop_cutWhen_snd (list : List α) (h : (cutWhen stop list).2 ≠ []) :
    stop (cutWhen stop list).2 = true := by
  induction list with
  | nil => exact absurd rfl h
  | cons a as ih =>
    cases hstop : stop (a :: as) with
    | true => rwa [cutWhen_of_stop hstop]
    | false =>
      rw [cutWhen_cons_of_not_stop hstop] at h ⊢
      exact ih h

/-- A text none of whose nonempty suffixes stops is passed over. -/
theorem cutWhen_append (text rest : List α)
    (h : ∀ x, x ≠ [] → x <:+ text → stop (x ++ rest) = false) :
    cutWhen stop (text ++ rest) = (text ++ (cutWhen stop rest).1, (cutWhen stop rest).2) := by
  induction text with
  | nil => rfl
  | cons a text ih =>
    have hhead := h (a :: text) (List.cons_ne_nil a text) List.suffix_rfl
    have htail := ih fun x hx hsuffix ↦ h x hx (hsuffix.trans (List.suffix_cons a text))
    rw [List.cons_append] at hhead ⊢
    rw [cutWhen_cons_of_not_stop hhead, htail, List.cons_append]

theorem cutWhen_snd_ne_nil (before : List α) {list : List α} (hstop : stop list = true)
    (hne : list ≠ []) : (cutWhen stop (before ++ list)).2 ≠ [] := by
  induction before with
  | nil => rwa [List.nil_append, cutWhen_of_stop hstop]
  | cons a before ih =>
    rw [List.cons_append]
    cases h : stop (a :: (before ++ list)) with
    | true =>
      rw [cutWhen_of_stop h]
      exact List.cons_ne_nil _ _
    | false => rwa [cutWhen_cons_of_not_stop h]

/-! ## Patterns without a border -/

/-- No proper nonempty beginning of the pattern is also an end of it. -/
def Unbordered (pattern : List α) : Prop :=
  ∀ x, x ≠ [] → x <+: pattern → x <:+ pattern → x = pattern

/-- Between a text free of the pattern and an occurrence of the pattern there is no other one. -/
theorem Unbordered.not_prefix_append {pattern text x : List α} (hpattern : Unbordered pattern)
    (hfree : ¬ pattern <:+: text) (hx : x ≠ []) (hsuffix : x <:+ text) (rest : List α) :
    ¬ pattern <+: x ++ (pattern ++ rest) := by
  intro hoccurs
  rcases Nat.le_total pattern.length x.length with hlength | hlength
  · have hinside : pattern <+: x :=
      List.prefix_of_prefix_length_le hoccurs (List.prefix_append _ _) hlength
    exact hfree (hinside.isInfix.trans hsuffix.isInfix)
  · have hbegin : x <+: pattern :=
      List.prefix_of_prefix_length_le (List.prefix_append _ _) hoccurs hlength
    obtain ⟨y, rfl⟩ := hbegin
    -- the rest `y` of the occurrence is a beginning of the pattern and its end
    have hy : y <+: (x ++ y) ++ rest := by
      rw [List.prefix_append_right_inj] at hoccurs
      exact hoccurs
    have hborder : y <+: x ++ y :=
      List.prefix_of_prefix_length_le hy (List.prefix_append _ _) (by simp)
    by_cases hnil : y = []
    · subst hnil
      rw [List.append_nil] at hfree
      exact hfree hsuffix.isInfix
    · have hwhole := hpattern y hnil hborder (List.suffix_append x y)
      exact hx (List.self_eq_append_left.mp hwhole)

/-- A text free of the pattern that ends before the pattern has room has no occurrence. -/
theorem not_prefix_of_suffix {pattern text x : List α} (hfree : ¬ pattern <:+: text)
    (hsuffix : x <:+ text) : ¬ pattern <+: x := by
  intro hoccurs
  apply hfree
  exact hoccurs.isInfix.trans hsuffix.isInfix

/-! ## Terminators -/

/-- Cut a list after each element that satisfies `last`; the final group may lack one. -/
def cutAfter (last : α → Bool) : List α → List (List α)
  | [] => []
  | a :: as =>
    if last a then [a] :: cutAfter last as
    else
      match cutAfter last as with
      | [] => [[a]]
      | group :: groups => (a :: group) :: groups

/-- The last element and no other one satisfies `last`. -/
def Terminated (last : α → Bool) (group : List α) : Prop :=
  ∃ init a, group = init ++ [a] ∧ (∀ b ∈ init, last b = false) ∧ last a = true

variable {last : α → Bool}

theorem Terminated.of_map {β : Type*} {f : β → α} {group : List β}
    (h : Terminated last (group.map f)) : Terminated (fun b ↦ last (f b)) group := by
  obtain ⟨init, a, hmap, hinit, hlast⟩ := h
  obtain ⟨init', ends, rfl, rfl, hends⟩ := List.map_eq_append_iff.mp hmap
  obtain ⟨b, rfl, rfl⟩ := List.map_eq_singleton_iff.mp hends
  refine ⟨init', b, rfl, ?_, hlast⟩
  intro c hc
  exact hinit (f c) (List.mem_map_of_mem hc)

theorem Terminated.countP_eq_one {group : List α} (h : Terminated last group) :
    group.countP last = 1 := by
  obtain ⟨init, a, rfl, hinit, hlast⟩ := h
  have hnone : init.countP last = 0 := by
    apply List.countP_eq_zero.mpr
    intro b hb
    rw [hinit b hb]
    exact Bool.false_ne_true
  rw [List.countP_append, hnone, List.countP_singleton, if_pos hlast]

theorem countP_flatten_of_terminated {groups : List (List α)}
    (h : ∀ group ∈ groups, Terminated last group) : groups.flatten.countP last = groups.length := by
  induction groups with
  | nil => rfl
  | cons group groups ih =>
    have hhead := (h group (List.mem_cons_self ..)).countP_eq_one
    have htail := ih fun g hg ↦ h g (List.mem_cons_of_mem _ hg)
    rw [List.flatten_cons, List.countP_append, hhead, htail, List.length_cons, Nat.add_comm]

theorem cutAfter_append {group : List α} (h : Terminated last group) (rest : List α) :
    cutAfter last (group ++ rest) = group :: cutAfter last rest := by
  obtain ⟨init, a, rfl, hinit, hlast⟩ := h
  induction init with
  | nil => rw [List.nil_append, List.singleton_append, cutAfter, if_pos hlast]
  | cons b init ih =>
    have hb : last b = false := hinit b (List.mem_cons_self ..)
    have hrest := ih fun c hc ↦ hinit c (List.mem_cons_of_mem _ hc)
    rw [List.cons_append, List.cons_append, cutAfter, if_neg (by simp [hb]), hrest]

/-- Terminated groups are recovered from their concatenation. -/
theorem cutAfter_flatten {groups : List (List α)} (h : ∀ group ∈ groups, Terminated last group) :
    cutAfter last groups.flatten = groups := by
  induction groups with
  | nil => rfl
  | cons group groups ih =>
    have htail := ih fun g hg ↦ h g (List.mem_cons_of_mem _ hg)
    rw [List.flatten_cons, cutAfter_append (h group (List.mem_cons_self ..)), htail]

/-- Blocks of terminated groups are recovered exactly when every block is a single group. -/
theorem cutAfter_flatten_blocks_iff {blocks : List (List (List α))}
    (h : ∀ groups ∈ blocks, ∀ group ∈ groups, Terminated last group) :
    cutAfter last (blocks.map List.flatten).flatten = blocks.map List.flatten ↔
      ∀ groups ∈ blocks, groups.length = 1 := by
  have hall : ∀ group ∈ blocks.flatten, Terminated last group := by
    intro group hgroup
    obtain ⟨groups, hgroups, hmem⟩ := List.mem_flatten.mp hgroup
    exact h groups hgroups group hmem
  rw [← List.flatten_flatten, cutAfter_flatten hall]
  constructor
  · intro heq groups hgroups
    have hblock : groups.flatten ∈ blocks.flatten := by
      rw [heq]
      exact List.mem_map_of_mem hgroups
    calc groups.length = groups.flatten.countP last :=
          (countP_flatten_of_terminated (h groups hgroups)).symm
      _ = 1 := (hall _ hblock).countP_eq_one
  · intro hone
    clear h hall
    induction blocks with
    | nil => rfl
    | cons groups blocks ih =>
      have htail := ih fun g hg ↦ hone g (List.mem_cons_of_mem _ hg)
      obtain ⟨group, rfl⟩ := List.length_eq_one_iff.mp (hone groups (List.mem_cons_self ..))
      rw [List.flatten_cons, List.map_cons, htail, List.flatten_singleton, List.singleton_append]

/-! ## Runs of equal keys -/

/-- Every group is inhabited and has one key. -/
def Keyed {κ : Type*} (key : α → κ) : List κ → List (List α) → Prop :=
  List.Forall₂ fun k group ↦ group ≠ [] ∧ ∀ a ∈ group, key a = k

theorem splitBy_flatten_of_keyed {κ : Type*} [DecidableEq κ] {key : α → κ} {keys : List κ}
    {groups : List (List α)} (h : Keyed key keys groups) (hkeys : keys.IsChain (· ≠ ·)) :
    groups.flatten.splitBy (fun a b ↦ key a == key b) = groups := by
  induction h with
  | nil => rfl
  | @cons k group keys groups hgroup hgroups ih =>
    obtain ⟨hne, hkey⟩ := hgroup
    have hsame : group.IsChain fun a b ↦ (key a == key b) = true := by
      apply List.Pairwise.isChain
      apply List.pairwise_of_forall_mem_list
      intro a ha b hb
      rw [hkey a ha, hkey b hb]
      exact BEq.rfl
    have hborder : ∀ a ∈ group.getLast?, ∀ b ∈ groups.flatten.head?, (key a == key b) = false := by
      intro a ha b hb
      cases hgroups with
      | nil => cases hb
      | @cons next group' keys groups hnext _ =>
        rw [List.flatten_cons, List.head?_append_of_ne_nil _ hnext.1] at hb
        rw [hkey a (List.mem_of_mem_getLast? ha), hnext.2 b (List.mem_of_mem_head? hb)]
        exact beq_false_of_ne (List.isChain_cons_cons.mp hkeys).1
    calc (group :: groups).flatten.splitBy (fun a b ↦ key a == key b)
        = group.splitBy (fun a b ↦ key a == key b) ++
            groups.flatten.splitBy (fun a b ↦ key a == key b) := by
          rw [List.flatten_cons, List.splitBy_append hborder]
      _ = [group] ++ groups := by rw [List.splitBy_of_isChain hne hsame, ih hkeys.tail]

end RtpSender.Delimiter
