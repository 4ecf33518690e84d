/-
Machines whose steps use up a potential.

Some steps are counted and take from the potential; some give it something back. So a
run has no more of the first than the potential at its start and what it was given.
-/

import MCoro.Library.Machine

namespace MCoro.Machine

variable {State Action : Type} {machine : Machine State Action}

/-- Every counted step takes one from the potential, and every granted one gives it at most
`worth`. -/
theorem countP_le (counted granted : Action → Prop) [DecidablePred counted]
    [DecidablePred granted] (potential : State → Nat) (worth : Nat) (Inv : State → Prop)
    (keeps : ∀ state action, Inv state → machine.Enabled state action →
      Inv (machine.next state action))
    (pays : ∀ state action, Inv state → machine.Enabled state action →
      potential (machine.next state action) + (if counted action then 1 else 0) ≤
        potential state + (if granted action then worth else 0))
    {state : State} (start : Inv state) {actions : List Action}
    (runs : machine.Runs state actions) :
    potential (machine.after state actions) + actions.countP (counted ·) ≤
      potential state + worth * actions.countP (granted ·) := by
  induction actions generalizing state with
  | nil => exact Nat.le_refl _
  | cons action rest ih =>
      have first := pays state action start runs.1
      have later := ih (keeps state action start runs.1) runs.2
      change potential (machine.after (machine.next state action) rest) + _ ≤ _
      rw [List.countP_cons, List.countP_cons, Nat.mul_add]
      simp only [decide_eq_true_eq, mul_ite, Nat.mul_one, Nat.mul_zero]
      omega

/-- What holds at the end of a run and not at its start was brought about by a step. -/
theorem exists_turn (holds : State → Prop) {state : State} {actions : List Action}
    (runs : machine.Runs state actions) (before : ¬holds state)
    (after : holds (machine.after state actions)) :
    ∃ front action back, actions = front ++ action :: back ∧ machine.Runs state front ∧
      machine.Enabled (machine.after state front) action ∧ ¬holds (machine.after state front) ∧
      holds (machine.next (machine.after state front) action) := by
  induction actions generalizing state with
  | nil => exact absurd after before
  | cons action rest ih =>
      by_cases now : holds (machine.next state action)
      · exact ⟨[], action, rest, rfl, trivial, runs.1, before, now⟩
      · obtain ⟨front, turning, back, split, ran, turn⟩ := ih runs.2 now after
        refine ⟨action :: front, turning, back, ?_, ⟨runs.1, ran⟩, turn⟩
        rw [split]
        rfl

end MCoro.Machine
