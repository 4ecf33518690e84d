/-
when_all of co_async/awaiter/when_all.hpp with CO_ASYNC_EXCEPT.

A task that throws leaves its exception in the control block and resumes the awaiting
coroutine at once, with mCount as it is. When the awaiting coroutine goes on, the
frame of when_all ends; a later step is taken here as if the frame were there still.
-/

import MCoro.Awaiter.WhenAllRuns

namespace MCoro.WhenAllExcept

open WhenAll (Stage)

variable {count : Nat} {Exception : Type} {Value : Fin count → Type}

structure State (Exception : Type) (Value : Fin count → Type) extends WhenAll.State Value where
  /-- In the control block. -/
  mException : Option Exception
  /-- What await_resume rethrew. -/
  rethrown : Option Exception
  exceptions : List (Fin count × Exception)

inductive Action (Exception : Type) (Value : Fin count → Type) where
  | suspend
  | start
  | complete (task : Fin count) (value : Value task)
  | throw (task : Fin count) (exception : Exception)

namespace State

def initial (Exception : Type) (Value : Fin count → Type) : State Exception Value :=
  { toState := .initial Value
    mException := none
    rethrown := none
    exceptions := [] }

/-- The awaiting coroutine goes on in await_resume. -/
def resume (state : State Exception Value) : State Exception Value :=
  match state.mException with
  | some exception => { state with resumed := state.resumed + 1, rethrown := some exception }
  | none => { state with toState := state.toState.resume }

def suspend (state : State Exception Value) : State Exception Value :=
  if empty : count = 0 then { state with stage := .started }.resume
  else { state with stage := .starting ⟨0, Nat.pos_of_ne_zero empty⟩ }

def start (state : State Exception Value) (task : Fin count) : State Exception Value :=
  { state with toState := state.toState.start task }

/-- The helper of a task that has its value. -/
def complete (state : State Exception Value) (task : Fin count) (value : Value task) :
    State Exception Value :=
  let completed : State Exception Value :=
    { state with
      mControl := state.mControl.finishHelper.1
      result := Function.update state.result task (some value)
      completions := state.completions ++ [⟨task, value⟩] }
  if state.mControl.finishHelper.2 then completed.resume else completed

/-- The catch clause of the helper, which returns mPrevious. -/
def throw (state : State Exception Value) (task : Fin count) (exception : Exception) :
    State Exception Value :=
  State.resume
    { state with
      mException := some exception
      exceptions := state.exceptions ++ [(task, exception)] }

def ended (state : State Exception Value) : List (Fin count) :=
  state.finished ++ state.exceptions.map Prod.fst

end State

def Enabled (state : State Exception Value) : Action Exception Value → Prop
  | .suspend => state.stage = .ready
  | .start => ∃ task, state.stage = .starting task
  | .complete task _ | .throw task _ => task ∈ state.starts ∧ task ∉ state.ended

def next (state : State Exception Value) : Action Exception Value → State Exception Value
  | .suspend => state.suspend
  | .start =>
      match state.stage with
      | .starting task => state.start task
      | _ => state
  | .complete task value => state.complete task value
  | .throw task exception => state.throw task exception

def machine (Exception : Type) (Value : Fin count → Type) :
    Machine (State Exception Value) (Action Exception Value) :=
  { initial := .initial Exception Value
    Enabled := Enabled
    next := next }

instance (state : State Exception Value) (action : Action Exception Value) :
    Decidable (Enabled state action) :=
  match action with
  | .suspend => inferInstanceAs (Decidable (state.stage = .ready))
  | .start => inferInstanceAs (Decidable (∃ task, state.stage = .starting task))
  | .complete task _ | .throw task _ =>
      inferInstanceAs (Decidable (task ∈ state.starts ∧ task ∉ state.ended))

instance (state : State Exception Value) (action : Action Exception Value) :
    Decidable ((machine Exception Value).Enabled state action) :=
  inferInstanceAs (Decidable (Enabled state action))

/-! ### Before a throw -/

/-- Nothing was thrown, and the frame is that of when_all without exceptions. -/
structure Calm (state : State Exception Value) : Prop where
  plain : WhenAll.Inv state.toState
  mException : state.mException = none
  rethrown : state.rethrown = none
  exceptions : state.exceptions = []

theorem Calm.initial : Calm (State.initial Exception Value) where
  plain := WhenAll.Inv.initial
  mException := rfl
  rethrown := rfl
  exceptions := rfl

theorem Calm.ended {state : State Exception Value} (calm : Calm state) :
    state.ended = state.finished := by
  unfold State.ended
  rw [calm.exceptions]
  exact List.append_nil _

theorem State.resume_calm {state : State Exception Value} (calm : state.mException = none) :
    state.resume = { state with toState := state.toState.resume } := by
  unfold State.resume
  rw [calm]

theorem Calm.suspend {state : State Exception Value} (calm : Calm state)
    (ready : state.stage = .ready) : Calm state.suspend := by
  have plain := calm.plain.suspend ready
  have same : state.suspend = { state with toState := state.toState.suspend } := by
    unfold State.suspend WhenAll.State.suspend
    by_cases empty : count = 0
    · rw [dif_pos empty, dif_pos empty]
      exact State.resume_calm calm.mException
    · rw [dif_neg empty, dif_neg empty]
  rw [same]
  exact ⟨plain, calm.mException, calm.rethrown, calm.exceptions⟩

theorem Calm.complete {state : State Exception Value} (calm : Calm state) {task : Fin count}
    (started : task ∈ state.starts) (unfinished : task ∉ state.ended) (value : Value task) :
    Calm (state.complete task value) := by
  rw [calm.ended] at unfinished
  have plain := calm.plain.complete started unfinished value
  have same : state.complete task value =
      { state with toState := state.toState.complete task value } := by
    unfold State.complete WhenAll.State.complete
    by_cases last : state.mControl.finishHelper.2 = true
    · rw [if_pos last, if_pos last]
      exact State.resume_calm calm.mException
    · rw [if_neg last, if_neg last]
  rw [same]
  exact ⟨plain, calm.mException, calm.rethrown, calm.exceptions⟩

theorem Calm.next {state : State Exception Value} (calm : Calm state)
    {action : Action Exception Value} (enabled : Enabled state action)
    (silent : ∀ task exception, action ≠ .throw task exception) : Calm (next state action) := by
  cases action with
  | suspend => exact calm.suspend enabled
  | start =>
      obtain ⟨task, stage⟩ := enabled
      simp only [WhenAllExcept.next, stage]
      exact ⟨calm.plain.start stage, calm.mException, calm.rethrown, calm.exceptions⟩
  | complete task value => exact calm.complete enabled.1 enabled.2 value
  | throw task exception => exact absurd rfl (silent task exception)

/-! ### After a throw that comes last -/

def ThrowsLast (state : State Exception Value) : Action Exception Value → Prop
  | .throw task _ => ∀ other, other ≠ task → other ∈ state.ended
  | _ => True

instance (state : State Exception Value) (action : Action Exception Value) :
    Decidable (ThrowsLast state action) :=
  match action with
  | .throw task _ => inferInstanceAs (Decidable (∀ other, other ≠ task → other ∈ state.ended))
  | .suspend | .start | .complete _ _ => isTrue trivial

/-- The last task has thrown, and there is no step left. -/
structure Spent (state : State Exception Value) : Prop where
  started : state.stage = .started
  ended : ∀ task, task ∈ state.ended
  resumed : state.resumed = 1
  threw : ∃ task exception, state.exceptions = [(task, exception)] ∧
    state.rethrown = some exception

theorem Spent.no_step {state : State Exception Value} (spent : Spent state)
    {action : Action Exception Value} (enabled : Enabled state action) : False := by
  have started := spent.started
  cases action with
  | suspend =>
      have ready : state.stage = .ready := enabled
      rw [started] at ready
      cases ready
  | start =>
      obtain ⟨task, starting⟩ := enabled
      rw [started] at starting
      cases starting
  | complete task value => exact enabled.2 (spent.ended task)
  | throw task exception => exact enabled.2 (spent.ended task)

theorem State.throw_ended (state : State Exception Value) (task : Fin count)
    (exception : Exception) :
    (state.throw task exception).ended = state.ended ++ [task] := by
  change state.finished ++ (state.exceptions ++ [(task, exception)]).map Prod.fst = _
  rw [List.map_append, ← List.append_assoc]
  rfl

theorem Calm.throw {state : State Exception Value} (calm : Calm state) {task : Fin count}
    (started : task ∈ state.starts) (unfinished : task ∉ state.ended)
    (last : ∀ other, other ≠ task → other ∈ state.ended) (exception : Exception) :
    Spent (state.throw task exception) := by
  rw [calm.ended] at unfinished last
  have every : ∀ other, other ∈ state.starts := by
    intro other
    by_cases same : other = task
    · rw [same]
      exact started
    · exact calm.plain.finished (last other same)
  constructor
  case started =>
    cases stage : state.stage with
    | ready =>
        have passed := (calm.plain.mem_starts task).1 started
        rw [stage] at passed
        exact absurd passed (Nat.not_lt_zero _)
    | starting other =>
        have passed := (calm.plain.mem_starts other).1 (every other)
        rw [stage] at passed
        exact absurd passed (Nat.lt_irrefl _)
    | started => exact stage
  case ended =>
    intro other
    rw [State.throw_ended, calm.ended, List.mem_append, List.mem_singleton]
    by_cases same : other = task
    · exact .inr same
    · exact .inl (last other same)
  case resumed =>
    change state.resumed + 1 = 1
    rw [calm.plain.waiting (.inr (calm.plain.positive unfinished))]
  case threw =>
    refine ⟨task, exception, ?_, rfl⟩
    change state.exceptions ++ _ = _
    rw [calm.exceptions]
    rfl

/-! ### Runs -/

/-- What when_all is for: the awaiting coroutine goes on once, when every task has ended, and
gets an exception where a task threw one. -/
structure Gathers (state : State Exception Value) : Prop where
  resumed_at_most_once : state.resumed ≤ 1
  resumed_iff : state.resumed = 1 ↔ state.stage ≠ .ready ∧ ∀ task, task ∈ state.ended
  rethrows_iff : state.resumed = 1 → (state.rethrown ≠ none ↔ state.exceptions ≠ [])
  rethrows : ∀ exception, state.rethrown = some exception →
    ∃ task, (task, exception) ∈ state.exceptions
  returns : state.resumed = 1 → state.exceptions = [] → ∃ values, state.returned = some values ∧
    ∀ task value, ⟨task, value⟩ ∈ state.completions → values task = value

theorem Calm.gathers {state : State Exception Value} (calm : Calm state) : Gathers state := by
  have plain := calm.plain.gathers
  constructor
  case resumed_at_most_once => exact plain.resumed_at_most_once
  case resumed_iff =>
    rw [calm.ended]
    exact plain.resumed_iff
  case rethrows_iff =>
    intro _
    rw [calm.rethrown, calm.exceptions]
    exact ⟨absurd rfl, absurd rfl⟩
  case rethrows =>
    intro exception rethrown
    rw [calm.rethrown] at rethrown
    cases rethrown
  case returns =>
    intro once _
    exact plain.returns once

theorem Spent.gathers {state : State Exception Value} (spent : Spent state) : Gathers state := by
  obtain ⟨task, exception, exceptions, rethrown⟩ := spent.threw
  constructor
  case resumed_at_most_once => exact spent.resumed.le
  case resumed_iff =>
    constructor
    · intro _
      rw [spent.started]
      exact ⟨nofun, spent.ended⟩
    · intro _
      exact spent.resumed
  case rethrows_iff =>
    intro _
    rw [exceptions, rethrown]
    exact ⟨fun _ => List.cons_ne_nil _ _, fun _ => Option.some_ne_none _⟩
  case rethrows =>
    intro other same
    rw [rethrown, Option.some_inj] at same
    rw [exceptions, ← same]
    exact ⟨task, List.mem_singleton.2 rfl⟩
  case returns =>
    intro _ none_
    rw [exceptions] at none_
    cases none_

def Inv (state : State Exception Value) : Prop :=
  Calm state ∨ Spent state

theorem Inv.gathers {state : State Exception Value} (inv : Inv state) : Gathers state := by
  rcases inv with calm | spent
  · exact calm.gathers
  · exact spent.gathers

theorem Inv.next {state : State Exception Value} (inv : Inv state)
    {action : Action Exception Value} (enabled : Enabled state action)
    (last : ThrowsLast state action) : Inv (next state action) := by
  rcases inv with calm | spent
  · cases action with
    | suspend | start | complete task value => exact .inl (calm.next enabled (by nofun))
    | throw task exception => exact .inr (calm.throw enabled.1 enabled.2 last exception)
  · exact absurd enabled spent.no_step

theorem inv_along {actions : List (Action Exception Value)}
    (runs : (machine Exception Value).Runs (.initial ..) actions)
    (last : (machine Exception Value).Along ThrowsLast (.initial ..) actions) :
    Inv ((machine Exception Value).after (.initial ..) actions) :=
  Machine.invariant_along Inv (fun _ _ inv enabled last => inv.next enabled last)
    (.inl Calm.initial) runs last

theorem Calm.early_throw {state : State Exception Value} (calm : Calm state) {task : Fin count}
    (unfinished : task ∉ state.ended) {exception : Exception}
    (early : ¬∀ other, other ≠ task → other ∈ state.ended) :
    ¬Gathers (state.throw task exception) := by
  intro gathers
  have resumed : (state.throw task exception).resumed = 1 := by
    change state.resumed + 1 = 1
    rw [calm.ended] at unfinished
    rw [calm.plain.waiting (.inr (calm.plain.positive unfinished))]
  apply early
  intro other different
  have ended := (gathers.resumed_iff.1 resumed).2 other
  rw [State.throw_ended, List.mem_append, List.mem_singleton] at ended
  exact ended.resolve_right different

/-- Any number of tasks, with completions and throws at any moment after their starts. -/
theorem gathers_iff_throws_last (count : Nat) (Exception : Type) (Value : Fin count → Type)
    (actions : List (Action Exception Value))
    (runs : (machine Exception Value).Runs (.initial ..) actions) :
    (∀ front back, actions = front ++ back →
      Gathers ((machine Exception Value).after (.initial ..) front)) ↔
      (machine Exception Value).Along ThrowsLast (.initial ..) actions := by
  apply Machine.forall_front_iff_along Inv (fun _ _ inv enabled last => inv.next enabled last)
    (fun _ inv => inv.gathers)
  case breaks =>
    intro state action inv enabled fails after
    rcases inv with calm | spent
    · cases action with
      | suspend | start | complete task value => exact fails trivial
      | throw task exception => exact calm.early_throw enabled.2 fails after
    · exact spent.no_step enabled
  case start => exact .inl Calm.initial
  case runs => exact runs

/-- Three tasks, of which the last to end throws. -/
theorem gathers_iff_throws_last_three :
    Gathers ((machine String fun _ : Fin 3 => Nat).after (.initial ..)
      [.suspend, .start, .start, .complete 0 4, .start, .complete 2 6, .throw 1 "no"]) :=
  (gathers_iff_throws_last 3 String _
    [.suspend, .start, .start, .complete 0 4, .start, .complete 2 6, .throw 1 "no"]
    (by decide)).2 (by decide) _ [] rfl

/-- The awaiting coroutine has gone on while a task is running. -/
def Early (state : State Exception Value) : Prop :=
  0 < state.resumed ∧ ∃ task ∈ state.starts, task ∉ state.ended

/-- The first of two tasks throws while the second one is running. -/
theorem throw_resumes_early :
    ¬∀ actions : List (Action String fun _ : Fin 2 => Nat),
      (machine String fun _ : Fin 2 => Nat).Runs (.initial ..) actions →
        ¬Early ((machine String fun _ : Fin 2 => Nat).after (.initial ..) actions) := by
  intro never
  apply never [.suspend, .start, .start, .throw 0 "no"] (by decide)
  exact ⟨Nat.one_pos, 1, by decide, by decide⟩

/-- The awaiting coroutine is suspended, and its frame is there. -/
def OnFrame (state : State Exception Value) (_ : Action Exception Value) : Prop :=
  state.resumed = 0

theorem Calm.on_frame {state : State Exception Value} (calm : Calm state)
    {action : Action Exception Value} (enabled : Enabled state action) : OnFrame state action := by
  cases action with
  | suspend => exact calm.plain.waiting (.inl enabled)
  | start =>
      obtain ⟨task, stage⟩ := enabled
      have fresh : task ∉ state.finished := by
        intro finished
        have passed := (calm.plain.mem_starts task).1 (calm.plain.finished finished)
        rw [stage] at passed
        exact Nat.lt_irrefl _ passed
      exact calm.plain.waiting (.inr (calm.plain.positive fresh))
  | complete task value | throw task exception =>
      have unfinished := enabled.2
      rw [calm.ended] at unfinished
      exact calm.plain.waiting (.inr (calm.plain.positive unfinished))

/-- Where a task that throws is the last to end, no step comes after the frame is gone. -/
theorem steps_stay_on_frame {actions : List (Action Exception Value)}
    (runs : (machine Exception Value).Runs (.initial ..) actions)
    (last : (machine Exception Value).Along ThrowsLast (.initial ..) actions) :
    (machine Exception Value).Along OnFrame (.initial ..) actions := by
  by_contra leaves
  obtain ⟨front, action, back, split, _, fails⟩ := Machine.exists_first_violation leaves
  rw [split] at runs last
  obtain ⟨before, enabled⟩ := Machine.Along.step runs
  rcases inv_along before (Machine.Along.step last).1 with calm | spent
  · exact fails (calm.on_frame enabled)
  · exact spent.no_step enabled

theorem steps_stay_on_frame_three :
    (machine String fun _ : Fin 3 => Nat).Along OnFrame (.initial ..)
      [.suspend, .start, .start, .complete 0 4, .start, .complete 2 6, .throw 1 "no"] :=
  steps_stay_on_frame (by decide) (by decide)

end MCoro.WhenAllExcept
