/-
State machines with guarded actions, and their runs.

A run is a list of actions taken from the initial state, each enabled where it is
taken. `Along` asks something of every step of a run in the state before it; the
invariant rule carries what each such step preserves to the state at the end.
-/

import Mathlib

namespace MCoro

structure Machine (State Action : Type) where
  initial : State
  Enabled : State → Action → Prop
  next : State → Action → State

namespace Machine

variable {State Action : Type} (machine : Machine State Action)

def after (state : State) (actions : List Action) : State :=
  actions.foldl machine.next state

def Along (condition : State → Action → Prop) (state : State) : List Action → Prop
  | [] => True
  | action :: rest => condition state action ∧ Along condition (machine.next state action) rest

/-- The actions can be taken one after the other from the state. -/
def Runs (state : State) (actions : List Action) : Prop :=
  machine.Along machine.Enabled state actions

instance decidableAlong (condition : State → Action → Prop)
    [∀ state action, Decidable (condition state action)] (state : State) :
    (actions : List Action) → Decidable (machine.Along condition state actions)
  | [] => isTrue trivial
  | action :: rest =>
      have := decidableAlong condition (machine.next state action) rest
      inferInstanceAs (Decidable (_ ∧ _))

instance decidableRuns [∀ state action, Decidable (machine.Enabled state action)] (state : State)
    (actions : List Action) : Decidable (machine.Runs state actions) :=
  inferInstanceAs (Decidable (machine.Along machine.Enabled state actions))

variable {machine} {condition : State → Action → Prop}

theorem after_append (state : State) (front back : List Action) :
    machine.after state (front ++ back) = machine.after (machine.after state front) back :=
  List.foldl_append

theorem along_append {state : State} {front back : List Action} :
    machine.Along condition state (front ++ back) ↔
      machine.Along condition state front ∧
        machine.Along condition (machine.after state front) back := by
  induction front generalizing state with
  | nil =>
      change _ ↔ True ∧ _
      rw [true_and]
      rfl
  | cons action rest ih =>
      change condition state action ∧
        machine.Along condition (machine.next state action) (rest ++ back) ↔ _
      rw [ih, ← and_assoc]
      rfl

theorem Along.and {other : State → Action → Prop} {state : State} {actions : List Action}
    (along : machine.Along condition state actions) (also_ : machine.Along other state actions) :
    machine.Along (fun state action => condition state action ∧ other state action) state
      actions := by
  induction actions generalizing state with
  | nil => trivial
  | cons action rest ih => exact ⟨⟨along.1, also_.1⟩, ih along.2 also_.2⟩

/-- The step taken between two parts of a run. -/
theorem Along.step {state : State} {front back : List Action} {action : Action}
    (along : machine.Along condition state (front ++ action :: back)) :
    machine.Along condition state front ∧ condition (machine.after state front) action := by
  rw [along_append] at along
  exact ⟨along.1, along.2.1⟩

/-- The machine with only the steps that meet the condition. -/
def only (machine : Machine State Action) (condition : State → Action → Prop) :
    Machine State Action :=
  { machine with
    Enabled := fun state action => machine.Enabled state action ∧ condition state action }

theorem runs_only {state : State} {actions : List Action} :
    (machine.only condition).Runs state actions ↔
      machine.Runs state actions ∧ machine.Along condition state actions := by
  induction actions generalizing state with
  | nil => exact ⟨fun _ => ⟨trivial, trivial⟩, fun _ => trivial⟩
  | cons action rest ih =>
      constructor
      · rintro ⟨⟨enabled, meets⟩, later⟩
        obtain ⟨runs, along⟩ := ih.1 later
        exact ⟨⟨enabled, runs⟩, meets, along⟩
      · rintro ⟨⟨enabled, runs⟩, meets, along⟩
        exact ⟨⟨enabled, meets⟩, ih.2 ⟨runs, along⟩⟩

/-- The invariant rule, for the steps that meet a condition. -/
theorem invariant_along (Inv : State → Prop)
    (keeps : ∀ state action, Inv state → machine.Enabled state action →
      condition state action → Inv (machine.next state action))
    {state : State} (start : Inv state) {actions : List Action}
    (runs : machine.Runs state actions) (along : machine.Along condition state actions) :
    Inv (machine.after state actions) := by
  induction actions generalizing state with
  | nil => exact start
  | cons action rest ih =>
      exact ih (keeps state action start runs.1 along.1) runs.2 along.2

/-- The invariant rule. -/
theorem invariant (Inv : State → Prop)
    (keeps : ∀ state action, Inv state → machine.Enabled state action →
      Inv (machine.next state action))
    {state : State} (start : Inv state) {actions : List Action}
    (runs : machine.Runs state actions) : Inv (machine.after state actions) := by
  induction actions generalizing state with
  | nil => exact start
  | cons action rest ih => exact ih (keeps state action start runs.1) runs.2

/-- Every step of a run meets a condition that the invariant gives. -/
theorem along_of_invariant (Inv : State → Prop)
    (keeps : ∀ state action, Inv state → machine.Enabled state action →
      Inv (machine.next state action))
    (gives : ∀ state action, Inv state → machine.Enabled state action → condition state action)
    {state : State} (start : Inv state) {actions : List Action}
    (runs : machine.Runs state actions) : machine.Along condition state actions := by
  induction actions generalizing state with
  | nil => trivial
  | cons action rest ih =>
      constructor
      · exact gives state action start runs.1
      · exact ih (keeps state action start runs.1) runs.2

theorem along_iff_of_invariant (Inv : State → Prop) {other : State → Action → Prop}
    (keeps : ∀ state action, Inv state → machine.Enabled state action →
      condition state action → Inv (machine.next state action))
    (same : ∀ state action, Inv state → machine.Enabled state action →
      (other state action ↔ condition state action))
    {state : State} (start : Inv state) {actions : List Action}
    (runs : machine.Runs state actions) :
    machine.Along other state actions ↔ machine.Along condition state actions := by
  induction actions generalizing state with
  | nil => exact Iff.rfl
  | cons action rest ih =>
      have first := same state action start runs.1
      constructor
      · intro along
        have now := first.1 along.1
        exact ⟨now, (ih (keeps state action start runs.1 now) runs.2).1 along.2⟩
      · intro along
        exact ⟨first.2 along.1, (ih (keeps state action start runs.1 along.1) runs.2).2 along.2⟩

/-- Where only the steps that meet the condition keep what holds, it holds in every state of
a run just if all steps meet the condition. -/
theorem forall_front_iff_along (Inv : State → Prop) {holds : State → Prop}
    (keeps : ∀ state action, Inv state → machine.Enabled state action →
      condition state action → Inv (machine.next state action))
    (gives : ∀ state, Inv state → holds state)
    (breaks : ∀ state action, Inv state → machine.Enabled state action →
      ¬condition state action → ¬holds (machine.next state action))
    {state : State} (start : Inv state) {actions : List Action}
    (runs : machine.Runs state actions) :
    (∀ front back, actions = front ++ back → holds (machine.after state front)) ↔
      machine.Along condition state actions := by
  induction actions generalizing state with
  | nil =>
      constructor
      · intro _
        trivial
      · intro _ front back split
        rw [(List.append_eq_nil_iff.1 split.symm).1]
        exact gives state start
  | cons action rest ih =>
      constructor
      · intro always
        have meets : condition state action := by
          by_contra fails
          exact breaks state action start runs.1 fails (always [action] rest rfl)
        refine ⟨meets, (ih (keeps state action start runs.1 meets) runs.2).1 ?_⟩
        intro front back split
        exact always (action :: front) back (congrArg _ split)
      · rintro ⟨meets, along⟩ front back split
        cases front with
        | nil => exact gives state start
        | cons first front =>
            obtain ⟨rfl, tail⟩ := List.cons.inj split
            exact (ih (keeps state action start runs.1 meets) runs.2).2 along front back tail

/-- A run that does not meet the condition throughout has a first step that fails it. -/
theorem exists_first_violation {state : State} {actions : List Action}
    (violated : ¬machine.Along condition state actions) :
    ∃ front action back, actions = front ++ action :: back ∧
      machine.Along condition state front ∧
      ¬condition (machine.after state front) action := by
  induction actions generalizing state with
  | nil => exact absurd trivial violated
  | cons action rest ih =>
      by_cases first : condition state action
      · have later : ¬machine.Along condition (machine.next state action) rest :=
          fun along => violated ⟨first, along⟩
        obtain ⟨front, bad, back, split, along, fails⟩ := ih later
        refine ⟨action :: front, bad, back, ?_, ⟨first, along⟩, fails⟩
        rw [split]
        rfl
      · exact ⟨[], action, rest, rfl, trivial, first⟩

end Machine

end MCoro
