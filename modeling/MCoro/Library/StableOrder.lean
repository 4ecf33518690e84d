/-
Sorted sequences under a strict weak order, with ties kept in arrival order.

`arrival` lists the present elements in the order in which they came. A later
element goes after every element that does not compare greater than it.
-/

import Mathlib

namespace MCoro.StableOrder

variable {α : Type} (compare : α → α → Prop)

/-- A strict weak order never skips an element: it lies above `left` or below `right`. -/
theorem compare_or_compare [IsStrictWeakOrder α compare] {left right : α}
    (less : compare left right) (middle : α) :
    compare left middle ∨ compare middle right := by
  by_contra neither
  rw [not_or] at neither
  obtain ⟨notLeft, notRight⟩ := neither
  have notBelow : ¬compare middle left := fun below =>
    notRight (trans_of compare below less)
  have notAbove : ¬compare right middle := fun rightMiddle =>
    notLeft (trans_of compare less rightMiddle)
  exact (IsStrictWeakOrder.incomp_trans left middle right
    ⟨notLeft, notBelow⟩ ⟨notRight, notAbove⟩).1 less

/-- Comparing by a key in a linear order is a strict weak order. -/
instance compareByKey {β : Type} [LinearOrder β] (key : α → β) :
    IsStrictWeakOrder α fun left right => key left < key right where
  irrefl element := lt_irrefl (key element)
  trans left middle right := lt_trans
  incomp_trans left middle right := by
    intro first second
    simp only [not_lt] at first second ⊢
    exact ⟨second.1.trans first.1, first.2.trans second.2⟩

/-- `left` belongs before `right`: it is smaller, or the two are equivalent and
`left` arrived first. -/
def Precedes (arrival : List α) (left right : α) : Prop :=
  compare left right ∨ ¬compare right left ∧ [left, right].Sublist arrival

/-- The sequence lists exactly the present elements, in order. -/
structure Sorted (arrival sequence : List α) : Prop where
  perm : sequence.Perm arrival
  ordered : sequence.Pairwise (Precedes compare arrival)

theorem Sorted.empty : Sorted compare [] [] :=
  ⟨List.Perm.nil, List.Pairwise.nil⟩

variable {compare}

theorem Precedes.not_compare [IsStrictWeakOrder α compare] {arrival : List α} {left right : α}
    (precedes : Precedes compare arrival left right) : ¬compare right left := by
  rcases precedes with less | ⟨notGreater, _earlier⟩
  · exact asymm_of compare less
  · exact notGreater

theorem Sorted.not_compare [IsStrictWeakOrder α compare] {arrival sequence : List α}
    (sorted : Sorted compare arrival sequence) :
    sequence.Pairwise fun left right => ¬compare right left :=
  sorted.ordered.imp fun precedes => precedes.not_compare

theorem Precedes.append {arrival : List α} {left right : α}
    (precedes : Precedes compare arrival left right) (later : List α) :
    Precedes compare (arrival ++ later) left right := by
  rcases precedes with less | ⟨notGreater, earlier⟩
  · exact .inl less
  · exact .inr ⟨notGreater, earlier.trans (List.sublist_append_left arrival later)⟩

/-- A new element goes after the elements that do not compare greater than it
and before the others. -/
theorem Sorted.insert {arrival before after : List α} {element : α}
    (sorted : Sorted compare arrival (before ++ after))
    (notGreater : ∀ other ∈ before, ¬compare element other)
    (greater : ∀ other ∈ after, compare element other) :
    Sorted compare (arrival ++ [element]) (before ++ element :: after) := by
  constructor
  · exact List.perm_middle.trans
      ((sorted.perm.cons element).trans (List.perm_append_singleton element arrival).symm)
  · have kept := List.pairwise_append.mp sorted.ordered
    refine List.pairwise_append.mpr ⟨kept.1.imp (·.append _), ?_, ?_⟩
    · refine List.pairwise_cons.mpr ⟨fun other member => .inl (greater other member), ?_⟩
      exact kept.2.1.imp (·.append _)
    · intro left leftMember right rightMember
      rcases List.mem_cons.mp rightMember with rfl | inAfter
      · refine .inr ⟨notGreater left leftMember, ?_⟩
        have present : left ∈ arrival := sorted.perm.subset (List.mem_append_left _ leftMember)
        exact (List.singleton_sublist.mpr present).append (List.Sublist.refl [right])
      · exact (kept.2.2 left leftMember right inAfter).append _

theorem Sorted.erase [DecidableEq α] {arrival before after : List α} {element : α}
    (sorted : Sorted compare arrival (before ++ element :: after)) (distinct : arrival.Nodup) :
    Sorted compare (arrival.erase element) (before ++ after) := by
  have erased : (before ++ element :: after).erase element = before ++ after := by
    have distinctSequence := sorted.perm.nodup_iff.mpr distinct
    have absent : element ∉ before := by
      intro member
      exact (List.nodup_append.mp distinctSequence).2.2 element member element (by simp) rfl
    rw [List.erase_append_right _ absent, List.erase_cons_head]
  constructor
  · rw [← erased]
    exact sorted.perm.erase element
  · have kept : (before ++ after).Pairwise (Precedes compare arrival) := by
      rw [← erased]
      exact sorted.ordered.sublist List.erase_sublist
    refine kept.imp_of_mem ?_
    intro left right leftMember rightMember precedes
    have differs : ∀ other ∈ before ++ after, other ≠ element := by
      rintro other member rfl
      rw [← erased] at member
      exact (sorted.perm.nodup_iff.mpr distinct).not_mem_erase member
    rcases precedes with less | ⟨notGreater, earlier⟩
    · exact .inl less
    · refine .inr ⟨notGreater, ?_⟩
      have kept := earlier.erase element
      rwa [List.erase_of_not_mem] at kept
      simp [Ne.symm (differs left leftMember), Ne.symm (differs right rightMember)]

theorem Sorted.congr {compare' : α → α → Prop} {arrival sequence : List α}
    (sorted : Sorted compare arrival sequence)
    (same : ∀ left ∈ arrival, ∀ right ∈ arrival, compare' left right ↔ compare left right) :
    Sorted compare' arrival sequence := by
  refine ⟨sorted.perm, sorted.ordered.imp_of_mem ?_⟩
  intro left right leftMember rightMember precedes
  have leftPresent := sorted.perm.subset leftMember
  have rightPresent := sorted.perm.subset rightMember
  rw [Precedes, same left leftPresent right rightPresent, same right rightPresent left leftPresent]
  exact precedes

end MCoro.StableOrder
