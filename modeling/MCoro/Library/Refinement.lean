/-
One machine that shows no more than another.

A step of the first has steps of the second, none or several, that show the same; so
whatever a run of the first shows is shown by a run of the second.
-/

import MCoro.Library.Lockstep

namespace MCoro.Machine

variable {State State' Action Action' Event : Type}

/-- What is seen of a run: the events of the steps that have one. -/
def history (machine : Machine State Action) (observe : State → Action → Option Event)
    (state : State) (actions : List Action) : List Event :=
  (machine.trace observe state actions).reduceOption

section

variable {machine : Machine State Action} {observe : State → Action → Option Event}

theorem history_cons (state : State) (action : Action) (rest : List Action) :
    machine.history observe state (action :: rest) =
      (observe state action).toList ++
        machine.history observe (machine.next state action) rest := by
  change (observe state action :: _).reduceOption = _
  cases observe state action with
  | none => exact List.reduceOption_cons_of_none _
  | some event => exact List.reduceOption_cons_of_some event _

theorem history_append (state : State) (front back : List Action) :
    machine.history observe state (front ++ back) =
      machine.history observe state front ++
        machine.history observe (machine.after state front) back := by
  induction front generalizing state with
  | nil => rfl
  | cons action rest ih =>
      rw [List.cons_append, history_cons, history_cons, ih, List.append_assoc]
      rfl

@[simp]
theorem history_only (condition : State → Action → Prop) (state : State) (actions : List Action) :
    (machine.only condition).history observe state actions =
      machine.history observe state actions := by
  induction actions generalizing state with
  | nil => rfl
  | cons action rest ih =>
      rw [history_cons, history_cons, ← ih]
      rfl

end

section

variable {left : Machine State Action} {right : Machine State' Action'}
  {observe : State → Action → Option Event} {observe' : State' → Action' → Option Event}

/-- The second machine has steps, from this state to one that is related, that show the
event. -/
def Answers (right : Machine State' Action') (observe' : State' → Action' → Option Event)
    (Related : State' → Prop) (state' : State') (shown : Option Event) : Prop :=
  ∃ actions', right.Runs state' actions' ∧
    right.history observe' state' actions' = shown.toList ∧ Related (right.after state' actions')

theorem Answers.stays {Related : State' → Prop} {state' : State'} (related : Related state') :
    Answers right observe' Related state' none :=
  ⟨[], trivial, rfl, related⟩

theorem Answers.step {Related : State' → Prop} {state' : State'} {shown : Option Event}
    (action' : Action') (enabled : right.Enabled state' action')
    (shows : observe' state' action' = shown) (related : Related (right.next state' action')) :
    Answers right observe' Related state' shown := by
  refine ⟨[action'], ⟨enabled, trivial⟩, ?_, related⟩
  rw [history_cons, shows]
  exact List.append_nil _

/-- The simulation rule. -/
theorem exists_answer {Related : State → State' → Prop}
    (steps : ∀ state state' action, Related state state' → left.Enabled state action →
      Answers right observe' (Related (left.next state action)) state' (observe state action))
    {state : State} {state' : State'} (start : Related state state') {actions : List Action}
    (runs : left.Runs state actions) :
    ∃ actions', right.Runs state' actions' ∧
      right.history observe' state' actions' = left.history observe state actions ∧
      Related (left.after state actions) (right.after state' actions') := by
  induction actions generalizing state state' with
  | nil => exact ⟨[], trivial, rfl, start⟩
  | cons action rest ih =>
      obtain ⟨front, goes, shows, middle⟩ := steps state state' action start runs.1
      obtain ⟨back, goes', shows', last⟩ := ih middle runs.2
      refine ⟨front ++ back, along_append.mpr ⟨goes, goes'⟩, ?_, ?_⟩
      · rw [history_append, history_cons, shows, shows']
      · rw [after_append]
        exact last

end

end MCoro.Machine
