/-
Searching a sequence for a delimiter of several cells, without looking back.

The search goes to the next cell that equals the first one of the delimiter and
compares from there on. Where the comparison fails it goes on behind the cells that
were equal, so it misses an occurrence that begins among them. It finds the first
occurrence just when no attempt that begins before it has run into it.
-/

import MCoro.Library.Segments

namespace MCoro.Delimiters

open Segments

variable {α : Type} [DecidableEq α]

/-- How many cells are equal from the beginning on. -/
def agree : List α → List α → Nat
  | mark :: marks, cell :: cells => if mark = cell then agree marks cells + 1 else 0
  | _, _ => 0

/-- The first occurrence of the delimiter, and the cells on both sides of it. -/
structure First (eol cells line after : List α) : Prop where
  split : cells = line ++ (eol ++ after)
  first : ∀ position < line.length, ¬eol <+: cells.drop position

/-- The search; none when the cells or the fuel are used up. -/
def scan (first : α) (rest : List α) : Nat → List α → Option (List α × List α)
  | 0, _ => none
  | fuel + 1, cells =>
      match cut first cells with
      | none => none
      | some (line, after) =>
          if agree rest after = rest.length then some (line, after.drop rest.length)
          else
            (scan first rest fuel (after.drop (agree rest after))).map fun found =>
              (line ++ first :: rest.take (agree rest after) ++ found.1, found.2)

/-- The positions at which the search compares the delimiter. -/
inductive Attempt (first : α) (rest : List α) : List α → Nat → Prop
  | here {cells line after : List α} (found : cut first cells = some (line, after)) :
      Attempt first rest cells line.length
  | later {cells line after : List α} {position : Nat} (found : cut first cells = some (line, after))
      (next : Attempt first rest (after.drop (agree rest after)) position) :
      Attempt first rest cells (line.length + 1 + agree rest after + position)

/-- Every attempt that begins before the position is over by then. -/
def Clear (first : α) (rest cells : List α) (limit : Nat) : Prop :=
  ∀ position < limit, Attempt first rest cells position →
    position + agree (first :: rest) (cells.drop position) ≤ limit

/-! ### Equal beginnings -/

theorem agree_le_left (marks cells : List α) : agree marks cells ≤ marks.length := by
  induction marks generalizing cells with
  | nil => exact Nat.le_refl 0
  | cons mark marks ih =>
      cases cells with
      | nil => exact Nat.zero_le _
      | cons cell cells =>
          unfold agree
          split
          · exact Nat.succ_le_succ (ih cells)
          · exact Nat.zero_le _

theorem take_agree (marks cells : List α) :
    marks.take (agree marks cells) = cells.take (agree marks cells) := by
  induction marks generalizing cells with
  | nil => rfl
  | cons mark marks ih =>
      cases cells with
      | nil => rfl
      | cons cell cells =>
          unfold agree
          split
          · rename_i same
            rw [same, List.take_succ_cons, List.take_succ_cons, ih cells]
          · rfl

theorem agree_append (marks after : List α) : agree marks (marks ++ after) = marks.length := by
  induction marks with
  | nil => cases after <;> rfl
  | cons mark marks ih =>
      rw [List.cons_append, agree, if_pos rfl, ih]
      rfl

theorem prefix_of_agree {marks cells : List α} (whole : agree marks cells = marks.length) :
    marks <+: cells := by
  have same := take_agree marks cells
  rw [whole, List.take_length] at same
  rw [same]
  exact List.take_prefix _ _

/-! ### The search -/

theorem not_mem_of_cut {mark : α} {block line after : List α}
    (found : cut mark block = some (line, after)) : mark ∉ line := by
  induction block generalizing line with
  | nil => cases found
  | cons cell rest ih =>
      rcases cut_cons found with ⟨_, rfl, _⟩ | ⟨different, front, rfl, shorter⟩
      · exact List.not_mem_nil
      · rw [List.mem_cons, not_or]
        exact ⟨different.symm, ih shorter⟩

theorem exists_cut {mark : α} {block : List α} (member : mark ∈ block) :
    ∃ line after, cut mark block = some (line, after) := by
  induction block with
  | nil => cases member
  | cons cell rest ih =>
      rw [cut]
      by_cases same : cell = mark
      · rw [if_pos same]
        exact ⟨[], rest, rfl⟩
      · obtain ⟨line, after, found⟩ := ih ((List.mem_cons.1 member).resolve_left (Ne.symm same))
        rw [if_neg same, found]
        exact ⟨cell :: line, after, rfl⟩

variable {first : α} {rest cells line after : List α}

theorem First.cut_cases (found : First (first :: rest) cells line after) :
    cut first cells = some (line, rest ++ after) ∨
      ∃ front mid, line = front ++ first :: mid ∧
        cut first cells = some (front, mid ++ first :: (rest ++ after)) := by
  have member : first ∈ cells := by
    rw [found.split]
    exact List.mem_append_right line List.mem_cons_self
  obtain ⟨front, back, cutEq⟩ := exists_cut member
  have absent := not_mem_of_cut cutEq
  have both : front ++ first :: back = line ++ first :: (rest ++ after) :=
    (eq_of_cut cutEq).symm.trans found.split
  rcases List.append_eq_append_iff.1 both with ⟨extra, lineEq, backEq⟩ | ⟨extra, frontEq, backEq⟩
  · cases extra with
    | nil =>
        rw [List.append_nil] at lineEq
        rw [List.nil_append, List.cons.injEq] at backEq
        rw [cutEq, ← lineEq, backEq.2]
        exact .inl rfl
    | cons cell mid =>
        rw [List.cons_append, List.cons.injEq] at backEq
        rw [← backEq.1] at lineEq
        rw [cutEq, backEq.2]
        exact .inr ⟨front, mid, lineEq, rfl⟩
  · cases extra with
    | nil =>
        rw [List.append_nil] at frontEq
        rw [List.nil_append, List.cons.injEq] at backEq
        rw [cutEq, frontEq, ← backEq.2]
        exact .inl rfl
    | cons cell mid =>
        rw [List.cons_append, List.cons.injEq] at backEq
        rw [frontEq, ← backEq.1] at absent
        exact absurd (List.mem_append_right line List.mem_cons_self) absent

theorem agree_cons_self (marks cells : List α) :
    agree (first :: marks) (first :: cells) = agree marks cells + 1 :=
  if_pos rfl

theorem scan_at_once (cutEq : cut first cells = some (line, rest ++ after)) (fuel : Nat) :
    scan first rest (fuel + 1) cells = some (line, after) ∧ Clear first rest cells line.length := by
  constructor
  · rw [scan, cutEq]
    dsimp only
    rw [if_pos (agree_append rest after), List.drop_left]
  · intro position before attempt
    cases attempt with
    | here found =>
        cases cutEq.symm.trans found
        exact absurd before (Nat.lt_irrefl _)
    | later found next =>
        cases cutEq.symm.trans found
        omega

theorem drop_behind {front back : List α} (cutEq : cut first cells = some (front, back))
    (count position : Nat) :
    cells.drop (front.length + 1 + count + position) = (back.drop count).drop position := by
  rw [eq_of_cut cutEq, List.drop_drop, Nat.add_assoc, Nat.add_assoc, List.drop_append,
    List.drop_eq_nil_of_le (by omega), List.nil_append, Nat.add_sub_cancel_left,
    Nat.add_comm 1, List.drop_succ_cons]

section Missed

variable {front mid : List α}
  (cutEq : cut first cells = some (front, mid ++ first :: (rest ++ after)))

include cutEq

theorem agree_at_attempt :
    agree (first :: rest) (cells.drop front.length) =
      agree rest (mid ++ first :: (rest ++ after)) + 1 := by
  rw [eq_of_cut cutEq, List.drop_left]
  exact agree_cons_self ..

/-- An attempt that has run into the occurrence. -/
theorem not_clear (beyond : mid.length < agree rest (mid ++ first :: (rest ++ after))) :
    ¬Clear first rest cells (front ++ first :: mid).length := by
  intro clear
  have inside : front.length < (front ++ first :: mid).length := by
    rw [List.length_append, List.length_cons]
    omega
  have bound := clear front.length inside (.here cutEq)
  rw [agree_at_attempt cutEq, List.length_append, List.length_cons] at bound
  omega

/-- An attempt that is over in time leaves the search with the cells behind it. -/
theorem clear_iff (ends : agree rest (mid ++ first :: (rest ++ after)) ≤ mid.length) :
    Clear first rest cells (front ++ first :: mid).length ↔
      Clear first rest ((mid ++ first :: (rest ++ after)).drop
        (agree rest (mid ++ first :: (rest ++ after))))
        (mid.length - agree rest (mid ++ first :: (rest ++ after))) := by
  generalize met : agree rest (mid ++ first :: (rest ++ after)) = count at ends ⊢
  have whole : (front ++ first :: mid).length = front.length + 1 + mid.length := by
    rw [List.length_append, List.length_cons]
    omega
  constructor
  · intro clear position before attempt
    have attempted : Attempt first rest cells (front.length + 1 + count + position) := by
      rw [← met]
      rw [← met] at attempt
      exact .later cutEq attempt
    have bound := clear _ (by omega) attempted
    rw [drop_behind cutEq] at bound
    omega
  · intro clear position before attempt
    cases attempt with
    | here found =>
        cases cutEq.symm.trans found
        rw [agree_at_attempt cutEq, met]
        omega
    | later found next =>
        cases cutEq.symm.trans found
        rw [met] at before next ⊢
        rename_i later
        have bound := clear later (by omega) next
        rw [drop_behind cutEq]
        omega

end Missed

theorem First.behind {front mid : List α}
    (found : First (first :: rest) cells (front ++ first :: mid) after)
    (cutEq : cut first cells = some (front, mid ++ first :: (rest ++ after)))
    (ends : agree rest (mid ++ first :: (rest ++ after)) ≤ mid.length) :
    First (first :: rest) ((mid ++ first :: (rest ++ after)).drop
      (agree rest (mid ++ first :: (rest ++ after))))
      (mid.drop (agree rest (mid ++ first :: (rest ++ after)))) after := by
  generalize agree rest (mid ++ first :: (rest ++ after)) = count at ends ⊢
  constructor
  case split => exact List.drop_append_of_le_length ends
  case first =>
    intro position before starts
    rw [List.length_drop] at before
    apply found.first (front.length + 1 + count + position)
    · rw [List.length_append, List.length_cons]
      omega
    · rw [drop_behind cutEq]
      exact starts

/-- The search finds the first occurrence just when nothing has run into it. -/
theorem scan_first_iff (found : First (first :: rest) cells line after) {fuel : Nat}
    (enough : cells.length < fuel) :
    scan first rest fuel cells = some (line, after) ↔ Clear first rest cells line.length := by
  induction fuel generalizing cells line with
  | zero => cases enough
  | succ fuel ih =>
      rcases found.cut_cases with cutEq | ⟨front, mid, lineEq, cutEq⟩
      · have both := scan_at_once cutEq fuel
        exact ⟨fun _ => both.2, fun _ => both.1⟩
      have inside : front.length < line.length := by
        rw [lineEq, List.length_append, List.length_cons]
        omega
      have partly : agree rest (mid ++ first :: (rest ++ after)) ≠ rest.length := by
        intro whole
        have starts := prefix_of_agree whole
        apply found.first front.length inside
        rw [eq_of_cut cutEq, List.drop_left]
        exact List.cons_prefix_cons.2 ⟨rfl, starts⟩
      rw [scan, cutEq]
      dsimp only
      rw [if_neg partly, lineEq]
      by_cases ends : agree rest (mid ++ first :: (rest ++ after)) ≤ mid.length
      · have shorter : (mid.drop (agree rest (mid ++ first :: (rest ++ after)))).length =
            mid.length - agree rest (mid ++ first :: (rest ++ after)) := List.length_drop
        rw [lineEq] at found
        have left := ih (found.behind cutEq ends) (by
          rw [eq_of_cut cutEq, List.length_append, List.length_cons] at enough
          rw [List.length_drop]
          omega)
        rw [shorter] at left
        rw [clear_iff cutEq ends, ← left, Option.map_eq_some_iff]
        have taken : rest.take (agree rest (mid ++ first :: (rest ++ after))) =
            mid.take (agree rest (mid ++ first :: (rest ++ after))) := by
          rw [take_agree, List.take_append_of_le_length ends]
        rw [taken]
        constructor
        · intro parts
          obtain ⟨⟨later, behind⟩, scans, same⟩ := parts
          rw [Prod.mk.injEq, List.append_assoc, List.append_cancel_left_eq, List.cons_append,
            List.cons.injEq] at same
          have tail := List.append_cancel_left
            (same.1.2.trans (List.take_append_drop _ mid).symm)
          exact scans.trans (congrArg some (Prod.ext tail same.2))
        · intro scans
          refine ⟨_, scans, ?_⟩
          rw [List.append_assoc, List.cons_append, List.take_append_drop]
      · have beyond := Nat.lt_of_not_le ends
        constructor
        · intro scans
          obtain ⟨parts, _, same⟩ := Option.map_eq_some_iff.1 scans
          have lengths := congrArg (fun parts => parts.1.length) same
          have within := agree_le_left rest (mid ++ first :: (rest ++ after))
          simp only [List.length_append, List.length_cons, List.length_take] at lengths
          omega
        · intro clear
          exact absurd clear (not_clear cutEq beyond)

theorem clear_of_not_mem (found : First (first :: rest) cells line after) (once : first ∉ rest) :
    Clear first rest cells line.length := by
  intro position before attempt
  by_contra beyond
  rw [Nat.not_le] at beyond
  have met := take_agree (first :: rest) (cells.drop position)
  -- the cell of the occurrence's beginning, as the attempt has met it
  have cellEq := congrArg (fun cells => cells[line.length - position]?) met
  simp only [List.getElem?_take, List.getElem?_drop] at cellEq
  rw [if_pos (by omega), if_pos (by omega), Nat.add_sub_cancel' before.le, found.split,
    List.getElem?_append_right (Nat.le_refl _), Nat.sub_self] at cellEq
  obtain ⟨distance, same⟩ := Nat.exists_eq_succ_of_ne_zero
    (Nat.sub_ne_zero_of_lt before : line.length - position ≠ 0)
  rw [same, List.getElem?_cons_succ] at cellEq
  exact once (List.mem_of_getElem? cellEq)

theorem exists_first {eol : List α} (occurs : eol <:+: cells) :
    ∃ line after, First eol cells line after := by
  obtain ⟨line, after, split⟩ := occurs
  have somewhere : ∃ position, eol <+: cells.drop position := by
    refine ⟨line.length, after, ?_⟩
    rw [← split, List.append_assoc, List.drop_left]
  classical
  obtain ⟨back, starts⟩ := Nat.find_spec somewhere
  refine ⟨cells.take (Nat.find somewhere), back, ?_, ?_⟩
  · rw [starts, List.take_append_drop]
  · intro position before
    rw [List.length_take] at before
    exact Nat.find_min somewhere (by omega)

end MCoro.Delimiters
