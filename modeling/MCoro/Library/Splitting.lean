/-
Cutting a sequence into pieces at a delimiter, from the left.

The pieces are what the leftmost occurrences that do not overlap leave. They are
determined by the sequence, none of them contains the delimiter, and with the
delimiter between them they are the sequence again.
-/

import MCoro.Library.Delimiters

namespace MCoro.Delimiters

variable {α : Type} {eol cells line after : List α}

/-- What is left of the cells when they are cut at each leftmost occurrence. -/
inductive Pieces (eol : List α) : List α → List (List α) → Prop
  | last {cells : List α} (absent : ¬eol <:+: cells) : Pieces eol cells [cells]
  | cut {cells line after : List α} {pieces : List (List α)}
      (found : First eol cells line after) (rest : Pieces eol after pieces) :
      Pieces eol cells (line :: pieces)

/-! ### The first occurrence -/

theorem First.occurs (found : First eol cells line after) : eol <:+: cells := by
  refine ⟨line, after, ?_⟩
  rw [found.split, List.append_assoc]

theorem First.not_occurs (found : First eol cells line after) (nonempty : eol ≠ []) :
    ¬eol <:+: line := by
  intro occurs
  obtain ⟨front, back, split⟩ := occurs
  have positive := List.length_pos_of_ne_nil nonempty
  have inside : front.length < line.length := by
    rw [← split, List.length_append, List.length_append]
    omega
  apply found.first front.length inside
  rw [found.split, ← split, List.append_assoc, List.append_assoc, List.drop_left]
  exact List.prefix_append _ _

theorem First.length_le {line' after' : List α} (found : First eol cells line after)
    (other : First eol cells line' after') : line.length ≤ line'.length := by
  by_contra shorter
  rw [Nat.not_le] at shorter
  apply found.first line'.length shorter
  rw [other.split, List.drop_left]
  exact List.prefix_append _ _

theorem First.unique {line' after' : List α} (found : First eol cells line after)
    (other : First eol cells line' after') : line = line' ∧ after = after' := by
  have length := Nat.le_antisymm (found.length_le other) (other.length_le found)
  have both := found.split.symm.trans other.split
  obtain ⟨lineEq, rest⟩ := List.append_inj both length
  exact ⟨lineEq, List.append_cancel_left rest⟩

theorem First.here (eol after : List α) : First eol (eol ++ after) [] after := by
  constructor
  case split => rfl
  case first =>
    intro position before
    exact absurd before (Nat.not_lt_zero position)

theorem First.cons {cell : α} (found : First eol cells line after) (other : ¬eol <+: cell :: cells) :
    First eol (cell :: cells) (cell :: line) after := by
  constructor
  case split => rw [found.split, List.cons_append]
  case first =>
    intro position before
    cases position with
    | zero => exact other
    | succ position => exact found.first position (Nat.lt_of_succ_lt_succ before)

/-! ### The pieces -/

variable {pieces : List (List α)}

theorem Pieces.ne_nil (cut : Pieces eol cells pieces) : pieces ≠ [] := by
  cases cut <;> exact List.cons_ne_nil _ _

theorem Pieces.not_occurs (cut : Pieces eol cells pieces) (nonempty : eol ≠ []) :
    ∀ piece ∈ pieces, ¬eol <:+: piece := by
  induction cut with
  | last absent =>
      intro piece member
      rw [List.mem_singleton.1 member]
      exact absent
  | cut found _ ih =>
      intro piece member
      rcases List.mem_cons.1 member with same | later
      · rw [same]
        exact found.not_occurs nonempty
      · exact ih piece later

theorem Pieces.intercalate (cut : Pieces eol cells pieces) : eol.intercalate pieces = cells := by
  induction cut with
  | last absent => exact List.intercalate_singleton
  | cut found rest ih =>
      rw [List.intercalate_cons_of_ne_nil rest.ne_nil, ih, found.split, List.append_assoc]

theorem Pieces.unique {pieces' : List (List α)} (cut : Pieces eol cells pieces)
    (other : Pieces eol cells pieces') : pieces = pieces' := by
  induction cut generalizing pieces' with
  | last absent =>
      cases other with
      | last _ => rfl
      | cut found _ => exact absurd found.occurs absent
  | cut found _ ih =>
      cases other with
      | last absent => exact absurd found.occurs absent
      | cut found' rest' =>
          obtain ⟨same, behind⟩ := found.unique found'
          subst behind
          rw [same, ih rest']

theorem exists_pieces (cells : List α) (nonempty : eol ≠ []) :
    ∃ pieces, Pieces eol cells pieces := by
  classical
  induction length : cells.length using Nat.strong_induction_on generalizing cells with
  | h count ih =>
      by_cases occurs : eol <:+: cells
      · obtain ⟨line, after, found⟩ := exists_first occurs
        have shorter : after.length < count := by
          have positive := List.length_pos_of_ne_nil nonempty
          have whole := congrArg List.length found.split
          rw [List.length_append, List.length_append] at whole
          omega
        obtain ⟨pieces, cut⟩ := ih after.length shorter after rfl
        exact ⟨line :: pieces, .cut found cut⟩
      · exact ⟨[cells], .last occurs⟩

theorem Pieces.length_le (cut : Pieces eol cells pieces) (nonempty : eol ≠ []) :
    pieces.length ≤ cells.length + 1 := by
  induction cut with
  | last _ => exact Nat.le_add_left 1 _
  | cut found _ ih =>
      have positive := List.length_pos_of_ne_nil nonempty
      have whole := congrArg List.length found.split
      rw [List.length_append, List.length_append] at whole
      rw [List.length_cons]
      omega

/-! ### A delimiter of one cell -/

theorem First.of_not_mem {mark : α} (absent : mark ∉ line) (after : List α) :
    First [mark] (line ++ mark :: after) line after := by
  induction line with
  | nil => exact First.here [mark] after
  | cons cell rest ih =>
      rw [List.mem_cons, not_or] at absent
      refine (ih absent.2).cons ?_
      intro start
      exact absent.1 (List.cons_prefix_cons.1 start).1

theorem Pieces.of_lines {mark : α} {lines : List (List α)} (absent : ∀ line ∈ lines, mark ∉ line) :
    Pieces [mark] (lines.flatMap (· ++ [mark])) (lines ++ [[]]) := by
  induction lines with
  | nil =>
      apply Pieces.last
      rw [List.singleton_infix_iff]
      exact List.not_mem_nil
  | cons line rest ih =>
      rw [List.forall_mem_cons] at absent
      rw [List.flatMap_cons, List.append_assoc]
      exact .cut (.of_not_mem absent.1 _) (ih absent.2)

/-! ### Joining pieces -/

theorem intercalate_join (eol : List α) (front : List (List α)) {back : List (List α)}
    (nonempty : back ≠ []) :
    eol.intercalate (front ++ [eol.intercalate back]) = eol.intercalate (front ++ back) := by
  induction front with
  | nil => exact List.intercalate_singleton
  | cons piece front ih =>
      rw [List.cons_append, List.cons_append, List.intercalate_cons_of_ne_nil (by simp), ih,
        List.intercalate_cons_of_ne_nil (by simp [nonempty])]

theorem intercalate_cancel (eol : List α) (front : List (List α)) {piece piece' : List α}
    (same : eol.intercalate (front ++ [piece]) = eol.intercalate (front ++ [piece'])) :
    piece = piece' := by
  induction front with
  | nil =>
      rw [List.nil_append, List.nil_append, List.intercalate_singleton,
        List.intercalate_singleton] at same
      exact same
  | cons head front ih =>
      rw [List.cons_append, List.cons_append, List.intercalate_cons_of_ne_nil (by simp),
        List.intercalate_cons_of_ne_nil (by simp)] at same
      exact ih (List.append_cancel_left same)

end MCoro.Delimiters
