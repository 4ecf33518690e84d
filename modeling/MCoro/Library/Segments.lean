/-
Segments of a block of memory.

A block is a list of cells. `slice` reads the half-open range of an index pair,
`overwrite` stores a run of cells at an index, and `cut` splits at the first cell
that equals a mark. Bounds are hypotheses here; a checked access is the business
of the program that owns the block.
-/

import Mathlib

namespace MCoro.Segments

variable {α : Type}

def slice (block : List α) (start stop : Nat) : List α :=
  (block.take stop).drop start

def overwrite (block : List α) (start : Nat) (cells : List α) : List α :=
  block.take start ++ cells ++ block.drop (start + cells.length)

/-- The cells before the first mark and the cells after it. -/
def cut [DecidableEq α] (mark : α) : List α → Option (List α × List α)
  | [] => none
  | cell :: rest =>
      if cell = mark then some ([], rest)
      else (cut mark rest).map fun parts => (cell :: parts.1, parts.2)

/-! ### Reading -/

@[simp] theorem slice_self (block : List α) (start : Nat) : slice block start start = [] := by
  unfold slice
  simp

theorem slice_length {block : List α} {start stop : Nat} (bound : stop ≤ block.length) :
    (slice block start stop).length = stop - start := by
  unfold slice
  rw [List.length_drop, List.length_take]
  omega

theorem take_drop_eq_slice (block : List α) (start count : Nat) :
    (block.drop start).take count = slice block start (start + count) := by
  unfold slice
  rw [List.take_drop]

theorem slice_append (block : List α) {start middle stop : Nat} (first : start ≤ middle)
    (second : middle ≤ stop) :
    slice block start middle ++ slice block middle stop = slice block start stop := by
  have whole : block.take middle ++ slice block middle stop = block.take stop := by
    have same : block.take middle = (block.take stop).take middle := by
      rw [List.take_take, Nat.min_eq_left second]
    rw [same]
    exact List.take_append_drop middle (block.take stop)
  change (block.take middle).drop start ++ slice block middle stop = (block.take stop).drop start
  rw [← whole, List.drop_append]
  by_cases inside : start ≤ (block.take middle).length
  · rw [Nat.sub_eq_zero_of_le inside, List.drop_zero]
  · have short : block.length < start := by
      rw [List.length_take] at inside
      omega
    have empty : slice block middle stop = [] := by
      unfold slice
      apply List.drop_eq_nil_of_le
      rw [List.length_take]
      omega
    rw [empty, List.drop_nil]

theorem slice_cons {block : List α} {start stop : Nat} {cell : α} (inside : start < stop)
    (found : block[start]? = some cell) :
    slice block start stop = cell :: slice block (start + 1) stop := by
  have single : slice block start (start + 1) = [cell] := by
    unfold slice
    rw [List.take_add_one, found]
    have bound := (List.getElem?_eq_some_iff.1 found).1
    rw [List.drop_append_of_le_length (by rw [List.length_take]; omega)]
    rw [List.drop_eq_nil_of_le (by rw [List.length_take]; omega)]
    rfl
  rw [← slice_append block (Nat.le_succ start) inside, single]
  rfl

theorem slice_split {block front back : List α} {start stop : Nat}
    (split : slice block start stop = front ++ back) :
    slice block start (start + front.length) = front ∧
      slice block (start + front.length) stop = back := by
  have taken : (slice block start stop).take front.length = front := by
    rw [split]
    exact List.take_left
  have dropped : (slice block start stop).drop front.length = back := by
    rw [split]
    exact List.drop_left
  unfold slice at taken dropped ⊢
  rw [List.drop_drop] at dropped
  refine ⟨?_, dropped⟩
  by_cases empty : front = []
  · subst empty
    simp
  · have inside : start + front.length ≤ stop := by
      have sizes := congrArg List.length split
      have positive : 0 < front.length := List.length_pos_of_ne_nil empty
      unfold slice at sizes
      rw [List.length_drop, List.length_take, List.length_append] at sizes
      omega
    rw [List.take_drop, List.take_take, Nat.min_eq_left inside] at taken
    exact taken

/-! ### Writing -/

theorem overwrite_length {block cells : List α} {start : Nat}
    (bound : start + cells.length ≤ block.length) :
    (overwrite block start cells).length = block.length := by
  unfold overwrite
  simp only [List.length_append, List.length_take, List.length_drop]
  omega

theorem take_overwrite {block cells : List α} {start : Nat}
    (bound : start + cells.length ≤ block.length) :
    (overwrite block start cells).take (start + cells.length) = block.take start ++ cells := by
  have sizes : (block.take start ++ cells).length = start + cells.length := by
    rw [List.length_append, List.length_take]
    omega
  unfold overwrite
  rw [← sizes]
  exact List.take_left

theorem slice_overwrite {block cells : List α} {start : Nat}
    (bound : start + cells.length ≤ block.length) :
    slice (overwrite block start cells) start (start + cells.length) = cells := by
  have sizes : (block.take start).length = start := by
    rw [List.length_take]
    omega
  unfold slice
  rw [take_overwrite bound]
  exact List.drop_left' sizes

/-! ### Cutting -/

section Cut

variable [DecidableEq α] {mark : α}

theorem cut_append_of_none {front : List α} (absent : cut mark front = none) (back : List α) :
    cut mark (front ++ back) = (cut mark back).map fun parts => (front ++ parts.1, parts.2) := by
  induction front with
  | nil =>
      change cut mark back = (cut mark back).map fun parts => parts
      rw [Option.map_id']
  | cons cell rest ih =>
      rw [cut] at absent
      by_cases same : cell = mark
      · rw [if_pos same] at absent
        cases absent
      · rw [if_neg same, Option.map_eq_none_iff] at absent
        rw [List.cons_append, cut, if_neg same, ih absent, Option.map_map]
        rfl

theorem cut_cons {cell : α} {rest line after : List α}
    (found : cut mark (cell :: rest) = some (line, after)) :
    cell = mark ∧ line = [] ∧ after = rest ∨
      cell ≠ mark ∧ ∃ front, line = cell :: front ∧ cut mark rest = some (front, after) := by
  rw [cut] at found
  by_cases same : cell = mark
  · rw [if_pos same] at found
    cases found
    exact .inl ⟨same, rfl, rfl⟩
  · rw [if_neg same] at found
    obtain ⟨parts, shorter, whole⟩ := Option.map_eq_some_iff.1 found
    cases whole
    exact .inr ⟨same, parts.1, rfl, shorter⟩

theorem cut_append_of_some {front line after : List α} (found : cut mark front = some (line, after))
    (back : List α) : cut mark (front ++ back) = some (line, after ++ back) := by
  induction front generalizing line with
  | nil => cases found
  | cons cell rest ih =>
      rw [List.cons_append, cut]
      rcases cut_cons found with ⟨same, rfl, rfl⟩ | ⟨different, front, rfl, shorter⟩
      · exact if_pos same
      · rw [if_neg different, ih shorter]
        rfl

theorem eq_of_cut {block line after : List α} (found : cut mark block = some (line, after)) :
    block = line ++ mark :: after := by
  induction block generalizing line with
  | nil => cases found
  | cons cell rest ih =>
      rcases cut_cons found with ⟨same, rfl, rfl⟩ | ⟨_, front, rfl, shorter⟩
      · rw [same]
        rfl
      · rw [ih shorter]
        rfl

end Cut

end MCoro.Segments
