import Mathlib.Data.List.Basic

/-!
# Cutting a list into chunks of a fixed size

`chunks size` cuts a list into consecutive pieces of `size` elements; only the last piece may be
shorter.  No piece is empty, and concatenating the pieces gives the list back.
-/

namespace RtpSender.Chunks

variable {α : Type*}

/-- The pieces of a list; a chunk size of zero has none. -/
def chunks (size : ℕ) (list : List α) : List (List α) :=
  if list = [] ∨ size = 0 then []
  else list.take size :: chunks size (list.drop size)
termination_by list.length
decreasing_by
  rename_i h
  rw [not_or] at h
  have hlength : 0 < list.length := List.length_pos_iff.mpr h.1
  rw [List.length_drop]
  omega

@[simp]
theorem chunks_nil (size : ℕ) : chunks size ([] : List α) = [] := by
  rw [chunks, if_pos (Or.inl rfl)]

theorem chunks_of_ne_nil {size : ℕ} (hsize : 0 < size) {list : List α} (hlist : list ≠ []) :
    chunks size list = list.take size :: chunks size (list.drop size) := by
  rw [chunks, if_neg]
  rintro (h | h)
  · exact hlist h
  · omega

@[simp]
theorem chunks_eq_nil {size : ℕ} (hsize : 0 < size) {list : List α} :
    chunks size list = [] ↔ list = [] := by
  constructor
  · intro h
    by_contra hlist
    rw [chunks_of_ne_nil hsize hlist] at h
    exact List.cons_ne_nil _ _ h
  · rintro rfl
    exact chunks_nil size

theorem flatten_chunks {size : ℕ} (hsize : 0 < size) (list : List α) :
    (chunks size list).flatten = list := by
  fun_induction chunks size list with
  | case1 list h =>
    have hlist : list = [] := by
      rcases h with h | h
      · exact h
      · omega
    rw [hlist, List.flatten_nil]
  | case2 list h ih => rw [List.flatten_cons, ih, List.take_append_drop]

theorem length_le_of_mem_chunks {size : ℕ} {list chunk : List α} (h : chunk ∈ chunks size list) :
    chunk.length ≤ size := by
  fun_induction chunks size list with
  | case1 => simp at h
  | case2 list _ ih =>
    rcases List.mem_cons.mp h with rfl | htail
    · exact List.length_take_le ..
    · exact ih htail

theorem ne_nil_of_mem_chunks {size : ℕ} {list chunk : List α} (h : chunk ∈ chunks size list) :
    chunk ≠ [] := by
  fun_induction chunks size list with
  | case1 => cases h
  | case2 list hne ih =>
    rw [not_or] at hne
    rcases List.mem_cons.mp h with rfl | htail
    · rw [ne_eq, List.take_eq_nil_iff]
      rintro (hsize | hlist)
      · exact hne.2 hsize
      · exact hne.1 hlist
    · exact ih htail

/-- The number of pieces is the quotient, rounded up. -/
theorem length_chunks {size : ℕ} (hsize : 0 < size) (list : List α) :
    (chunks size list).length = (list.length + size - 1) / size := by
  fun_induction chunks size list with
  | case1 list h =>
    have hlist : list = [] := by
      rcases h with h | h
      · exact h
      · omega
    rw [hlist, List.length_nil, List.length_nil, Nat.zero_add, Nat.div_eq_of_lt (by omega)]
  | case2 list h ih =>
    rw [not_or] at h
    have hpos : 0 < list.length := List.length_pos_iff.mpr h.1
    rw [List.length_cons, ih, List.length_drop]
    by_cases hlong : size ≤ list.length
    · have hsplit : list.length + size - 1 = list.length - size + size - 1 + size := by omega
      rw [hsplit, Nat.add_div_right _ hsize]
    · have hrest : list.length - size + size - 1 = size - 1 := by omega
      have hone : list.length + size - 1 = list.length - 1 + size := by omega
      rw [hrest, hone, Nat.add_div_right _ hsize, Nat.div_eq_of_lt (by omega),
        Nat.div_eq_of_lt (by omega)]

/-- Every piece but the last is full. -/
theorem length_of_getElem?_chunks {size : ℕ} {list chunk : List α} {index : ℕ}
    (hchunk : (chunks size list)[index]? = some chunk)
    (hindex : index + 1 < (chunks size list).length) : chunk.length = size := by
  fun_induction chunks size list generalizing index with
  | case1 => cases hchunk
  | case2 list h ih =>
    cases index with
    | zero =>
      obtain rfl := Option.some.inj hchunk
      have hnext : chunks size (list.drop size) ≠ [] := by
        rw [← List.length_pos_iff]
        rw [List.length_cons] at hindex
        omega
      have hdrop : list.drop size ≠ [] := by
        intro hnil
        rw [hnil, chunks_nil] at hnext
        exact hnext rfl
      rw [ne_eq, List.drop_eq_nil_iff, Nat.not_le] at hdrop
      rw [List.length_take, Nat.min_eq_left (Nat.le_of_lt hdrop)]
    | succ index =>
      rw [List.length_cons] at hindex
      exact ih hchunk (by omega)

end RtpSender.Chunks
