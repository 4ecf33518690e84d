/-
Segments of a circle of slots.

The positions 0 .. last of a total map of slots form a circle. A list is held from
a position on when its elements stand in the slots met by walking round from there.
-/

import Mathlib

namespace MCoro.Circle

variable {T : Type}

def advance (last position : Nat) : Nat :=
  if position = last then 0 else position + 1

def travel (last position : Nat) : Nat → Nat
  | 0 => position
  | distance + 1 => travel last (advance last position) distance

def Holds (last : Nat) (slots : Nat → T) (position : Nat) : List T → Prop
  | [] => True
  | item :: rest => slots position = item ∧ Holds last slots (advance last position) rest

/-! ### Positions -/

theorem advance_le {last position : Nat} (within : position ≤ last) :
    advance last position ≤ last := by
  unfold advance
  split <;> omega

theorem travel_eq {last position : Nat} (within : position ≤ last) (distance : Nat) :
    travel last position distance = (position + distance) % (last + 1) := by
  induction distance generalizing position with
  | zero => exact (Nat.mod_eq_of_lt (Nat.lt_succ_of_le within)).symm
  | succ distance ih =>
      change travel last (advance last position) distance = _
      rw [ih (advance_le within)]
      unfold advance
      by_cases atEnd : position = last
      · have round : position + (distance + 1) = distance + (last + 1) := by omega
        rw [if_pos atEnd, round, Nat.add_mod_right, Nat.zero_add]
      · have onward : position + (distance + 1) = position + 1 + distance := by omega
        rw [if_neg atEnd, onward]

theorem travel_succ (last position distance : Nat) :
    travel last position (distance + 1) = advance last (travel last position distance) := by
  induction distance generalizing position with
  | zero => rfl
  | succ distance ih => exact ih (advance last position)

theorem travel_injective {last position : Nat} (within : position ≤ last) {first second : Nat}
    (firstShort : first ≤ last) (secondShort : second ≤ last)
    (same : travel last position first = travel last position second) : first = second := by
  rw [travel_eq within, travel_eq within] at same
  have congruent : first ≡ second [MOD last + 1] := Nat.ModEq.add_left_cancel' position same
  exact congruent.eq_of_lt_of_lt (by omega) (by omega)

theorem travel_eq_self {last position : Nat} (within : position ≤ last) {distance : Nat}
    (short : distance ≤ last) : travel last position distance = position ↔ distance = 0 := by
  constructor
  · intro same
    exact travel_injective within short (Nat.zero_le last) same
  · intro zero
    rw [zero]
    rfl

theorem advance_travel_eq_self {last position : Nat} (within : position ≤ last) {distance : Nat}
    (short : distance ≤ last) :
    advance last (travel last position distance) = position ↔ distance = last := by
  rw [← travel_succ]
  constructor
  · intro same
    by_contra shorter
    have back := (travel_eq_self within (by omega)).1 same
    cases back
  · intro whole
    rw [whole, travel_eq within, Nat.add_mod_right]
    exact Nat.mod_eq_of_lt (by omega)

/-! ### Contents -/

theorem Holds.update {last position : Nat} {slots : Nat → T} {items : List T} {target : Nat}
    (holds : Holds last slots position items)
    (outside : ∀ distance, distance < items.length → travel last position distance ≠ target)
    (value : T) : Holds last (Function.update slots target value) position items := by
  induction items generalizing position with
  | nil => trivial
  | cons item rest ih =>
      rcases holds with ⟨first, later⟩
      constructor
      · have away : position ≠ target := outside 0 (Nat.zero_lt_succ _)
        rw [Function.update_of_ne away]
        exact first
      · apply ih later
        intro distance short
        exact outside (distance + 1) (Nat.succ_lt_succ short)

theorem Holds.snoc {last position : Nat} {slots : Nat → T} {items : List T}
    (holds : Holds last slots position items) :
    Holds last slots position (items ++ [slots (travel last position items.length)]) := by
  induction items generalizing position with
  | nil => exact ⟨rfl, trivial⟩
  | cons item rest ih => exact ⟨holds.1, ih holds.2⟩

theorem Holds.append {last position : Nat} (within : position ≤ last) {slots : Nat → T}
    {items : List T} (holds : Holds last slots position items) (room : items.length ≤ last)
    (value : T) :
    Holds last (Function.update slots (travel last position items.length) value) position
      (items ++ [value]) := by
  have outside : ∀ distance, distance < items.length →
      travel last position distance ≠ travel last position items.length := by
    intro distance short same
    have equal := travel_injective within (by omega) room same
    omega
  have longer := (holds.update outside value).snoc
  rw [Function.update_self] at longer
  exact longer

end MCoro.Circle
