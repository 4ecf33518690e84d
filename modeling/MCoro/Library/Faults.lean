/-
Computations that end with a value or with a fault, step by step.

A computation that has ended with a value has a value from each of its parts, and it
does the same again where the parts behind the first one do.
-/

import Mathlib

namespace MCoro.Faults

variable {Fault α β : Type} {part : Except Fault α} {rest rest' : α → Except Fault β} {value : β}

theorem ok_bind (value : α) (rest : α → Except Fault β) :
    (Except.ok value >>= rest) = rest value :=
  rfl

theorem exists_of_bind (ends : part.bind rest = .ok value) :
    ∃ middle, part = .ok middle ∧ rest middle = .ok value := by
  cases part with
  | error fault => cases ends
  | ok middle => exact ⟨middle, rfl, ends⟩

theorem ok_of_bind (ends : part.bind rest = .ok value)
    (later : ∀ middle, rest middle = .ok value → rest' middle = .ok value) :
    part.bind rest' = .ok value := by
  obtain ⟨middle, made, ended⟩ := exists_of_bind ends
  rw [made]
  exact later middle ended

end MCoro.Faults
