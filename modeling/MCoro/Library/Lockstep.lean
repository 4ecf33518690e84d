/-
Two machines that take the same actions.

A relation between their states that every action keeps makes their runs agree: on
what is observed at each step, and on which steps meet a condition.
-/

import MCoro.Library.Machine

namespace MCoro

namespace Machine

variable {State State' Action Output : Type}

def trace (machine : Machine State Action) (observe : State → Action → Output) (state : State) :
    List Action → List Output
  | [] => []
  | action :: rest => observe state action :: trace machine observe (machine.next state action) rest

variable {left : Machine State Action} {right : Machine State' Action}
  {Related : State → State' → Prop}

theorem after_related
    (keeps : ∀ state state' action, Related state state' →
      Related (left.next state action) (right.next state' action))
    {state : State} {state' : State'} (start : Related state state') (actions : List Action) :
    Related (left.after state actions) (right.after state' actions) := by
  induction actions generalizing state state' with
  | nil => exact start
  | cons action rest ih => exact ih (keeps state state' action start)

theorem trace_related
    (keeps : ∀ state state' action, Related state state' →
      Related (left.next state action) (right.next state' action))
    {observe : State → Action → Output} {observe' : State' → Action → Output}
    (agree : ∀ state state' action, Related state state' →
      observe state action = observe' state' action)
    {state : State} {state' : State'} (start : Related state state') (actions : List Action) :
    left.trace observe state actions = right.trace observe' state' actions := by
  induction actions generalizing state state' with
  | nil => rfl
  | cons action rest ih =>
      change observe state action :: _ = observe' state' action :: _
      rw [agree state state' action start, ih (keeps state state' action start)]

theorem along_related {condition : State → Action → Prop} {condition' : State' → Action → Prop}
    (keeps : ∀ state state' action, Related state state' → condition' state' action →
      Related (left.next state action) (right.next state' action))
    (agree : ∀ state state' action, Related state state' →
      (condition state action ↔ condition' state' action))
    {state : State} {state' : State'} (start : Related state state') (actions : List Action) :
    left.Along condition state actions ↔ right.Along condition' state' actions := by
  induction actions generalizing state state' with
  | nil => exact Iff.rfl
  | cons action rest ih =>
      change condition state action ∧ _ ↔ condition' state' action ∧ _
      rw [agree state state' action start]
      apply and_congr_right
      intro met
      exact ih (keeps state state' action start met)

end Machine

end MCoro
