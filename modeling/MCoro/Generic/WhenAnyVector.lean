/-
when_any of co_async/generic/when_any.hpp over a vector.

newTasks starts out with one default-constructed task for each given one, and the
loop appends its own tasks behind these. A default-constructed task has no
coroutine; a helper of when_all that awaits it dereferences a null handle, and from
there on the source defines nothing.

A given task that completes emplaces its result whether or not it has won. The
first to complete while the source is not cancelled is the one whose position is
stored, when its call of cancel() has returned.
-/

import MCoro.Generic.WhenAny

namespace MCoro

structure WhenAnyResult (Value : Type) where
  value : Value
  index : Nat
  deriving DecidableEq, Repr

namespace WhenAnyVector

open WhenAny (BadOptionalAccess)

/-- The constructor with a size and the push_backs of the loop; `none` is a null handle. -/
def newTasks (tasks : Nat) : List (Option Nat) :=
  (List.range tasks).foldl (fun newTasks i => newTasks ++ [some i]) (List.replicate tasks none)

inductive Phase where
  | idle
  | running
  /-- Inside `co_await cancel.cancel()`. -/
  | cancelling
  | done
  deriving DecidableEq, Repr

inductive Action (Value Canceller : Type) where
  /-- The awaiting coroutine enters await_suspend of when_all. -/
  | suspend
  /-- The next helper is started and awaits its task. -/
  | start
  | complete (task : Nat) (value : Value)
  /-- cancel() has returned to the task. -/
  | store (task : Nat)
  /-- Anything that happens to the shared source by other hands. -/
  | source (action : CancelRuns.Action Canceller)
  deriving DecidableEq, Repr

structure State (Value Canceller : Type) where
  control : WhenAllCtlBlock
  suspended : Bool
  /-- The tasks whose helpers await_suspend has still to start. -/
  pending : List (Option Nat)
  awaited : List (Option Nat)
  phase : Nat → Phase
  source : CancelRuns.State Canceller
  result : Option Value
  index : Nat
  /-- What the function has returned, or that `result.value()` threw. -/
  returned : Option (Except BadOptionalAccess (WhenAnyResult Value))
  completions : List (Nat × Value)
  /-- The tasks that completed while the source was not cancelled, in order. -/
  winners : List (Nat × Value)

variable {Value Canceller : Type}

namespace State

/-- The function awaits `when_all(newTasks)`. -/
def initial (newTasks : List (Option Nat)) : State Value Canceller :=
  { control := { mCount := newTasks.length }
    suspended := false
    pending := newTasks
    awaited := []
    phase := fun _ => .idle
    source := .initial
    result := none
    index := 2 ^ 64 - 1
    returned := none
    completions := []
    winners := [] }

def Defined (state : State Value Canceller) : Prop :=
  none ∉ state.awaited

/-- `co_return {std::move(result.value()), index}` -/
def resume (state : State Value Canceller) : State Value Canceller :=
  match state.result with
  | some value => { state with returned := some (.ok { value := value, index := state.index }) }
  | none => { state with returned := some (.error .thrown) }

def suspend (state : State Value Canceller) : State Value Canceller :=
  match state.pending with
  | [] => { state with suspended := true }.resume
  | _ :: _ => { state with suspended := true }

def start (state : State Value Canceller) : State Value Canceller :=
  match state.pending with
  | [] => state
  | none :: rest =>
      { state with
        pending := rest
        awaited := state.awaited ++ [none] }
  | some task :: rest =>
      { state with
        pending := rest
        awaited := state.awaited ++ [some task]
        phase := Function.update state.phase task .running }

def finish (state : State Value Canceller) (task : Nat) : State Value Canceller :=
  let finished : State Value Canceller :=
    { state with
      control := state.control.finishHelper.1
      phase := Function.update state.phase task .done }
  if state.control.finishHelper.2 then finished.resume else finished

/-- The task's own result is there; what follows up to the next suspension. -/
def complete (state : State Value Canceller) (task : Nat) (value : Value) :
    State Value Canceller :=
  let completed : State Value Canceller :=
    { state with
      result := some value
      completions := state.completions ++ [(task, value)] }
  if state.source.source.doIsCanceled then completed.finish task
  else
    { completed with
      phase := Function.update state.phase task .cancelling
      source := state.source.cancel
      winners := state.winners ++ [(task, value)] }

def store (state : State Value Canceller) (task : Nat) : State Value Canceller :=
  { state with index := task }.finish task

end State

variable [DecidableEq Canceller]

def Enabled (state : State Value Canceller) : Action Value Canceller → Prop
  | .suspend => state.Defined ∧ state.suspended = false
  | .start => state.Defined ∧ state.suspended = true ∧ state.pending ≠ []
  | .complete task _ => state.Defined ∧ state.phase task = .running
  | .store task => state.Defined ∧ state.phase task = .cancelling ∧ state.source.returned = true
  | .source action => state.Defined ∧ CancelRuns.Enabled state.source action

def next (state : State Value Canceller) : Action Value Canceller → State Value Canceller
  | .suspend => state.suspend
  | .start => state.start
  | .complete task value => state.complete task value
  | .store task => state.store task
  | .source action => { state with source := CancelRuns.next state.source action }

def machine (Value Canceller : Type) [DecidableEq Canceller] (newTasks : List (Option Nat)) :
    Machine (State Value Canceller) (Action Value Canceller) :=
  { initial := .initial newTasks
    Enabled := Enabled
    next := next }

instance [DecidableEq Value] (state : State Value Canceller) (action : Action Value Canceller) :
    Decidable (Enabled state action) := by
  cases action <;> unfold Enabled State.Defined <;> infer_instance

instance [DecidableEq Value] (newTasks : List (Option Nat)) (state : State Value Canceller)
    (action : Action Value Canceller) :
    Decidable ((machine Value Canceller newTasks).Enabled state action) :=
  inferInstanceAs (Decidable (Enabled state action))

/-! ### The race, for any tasks without a null handle before them -/

/-- Nobody has won, or the winner is on its way to store its position. -/
structure Race (state : State Value Canceller) : Prop where
  /-- Each completion overwrites the value. -/
  last : state.result = state.completions.getLast?.map Prod.snd
  first : state.winners = [] ∧ state.index = 2 ^ 64 - 1 ∧
      (∀ task, state.phase task ≠ .cancelling) ∨
    ∃ task value, state.winners = [(task, value)] ∧ state.source.source.mCanceled = true ∧
      (∀ other, state.phase other = .cancelling → other = task) ∧
      (state.index = 2 ^ 64 - 1 ∨ state.index = task)

omit [DecidableEq Canceller] in
theorem Race.initial (newTasks : List (Option Nat)) :
    Race (State.initial newTasks : State Value Canceller) := by
  constructor
  case last => rfl
  case first => exact .inl ⟨rfl, rfl, fun _ => nofun⟩

omit [DecidableEq Canceller] in
theorem Race.transfer {state next : State Value Canceller} (race : Race state)
    (result : next.result = state.result) (completions : next.completions = state.completions)
    (winners : next.winners = state.winners) (index : next.index = state.index)
    (phase : ∀ task, next.phase task = .cancelling → state.phase task = .cancelling)
    (source : state.source.source.mCanceled = true → next.source.source.mCanceled = true) :
    Race next := by
  constructor
  case last =>
    rw [result, completions]
    exact race.last
  case first =>
    rw [winners, index]
    rcases race.first with ⟨nobody, unset, quiet⟩ | ⟨task, value, won, canceled, alone, stored⟩
    · exact .inl ⟨nobody, unset, fun task cancelling => quiet task (phase task cancelling)⟩
    · exact .inr ⟨task, value, won, source canceled,
        fun other cancelling => alone other (phase other cancelling), stored⟩

omit [DecidableEq Canceller] in
theorem State.resume_fields (state : State Value Canceller) :
    ∃ returned, state.resume = { state with returned := returned } := by
  unfold State.resume
  split
  · exact ⟨_, rfl⟩
  · exact ⟨_, rfl⟩

omit [DecidableEq Canceller] in
theorem State.finish_fields (state : State Value Canceller) (task : Nat) :
    ∃ control returned, state.finish task =
      { state with
        control := control
        phase := Function.update state.phase task .done
        returned := returned } := by
  unfold State.finish
  by_cases last : state.control.finishHelper.2 = true
  · rw [if_pos last]
    obtain ⟨returned, same⟩ := State.resume_fields
      { state with
        control := state.control.finishHelper.1
        phase := Function.update state.phase task .done }
    exact ⟨_, returned, same⟩
  · rw [if_neg last]
    exact ⟨_, _, rfl⟩

theorem update_cancelling (phase : Nat → Phase) (task : Nat) {after : Phase}
    (elsewhere : after ≠ .cancelling) (other : Nat)
    (cancelling : Function.update phase task after other = .cancelling) :
    phase other = .cancelling := by
  by_cases same : other = task
  · rw [same, Function.update_self] at cancelling
    exact absurd cancelling elsewhere
  · rw [Function.update_of_ne same] at cancelling
    exact cancelling

omit [DecidableEq Canceller] in
theorem Race.finish {state : State Value Canceller} (race : Race state) (task : Nat) :
    Race (state.finish task) := by
  obtain ⟨control, returned, same⟩ := state.finish_fields task
  rw [same]
  have elsewhere : Phase.done ≠ .cancelling := nofun
  exact race.transfer rfl rfl rfl rfl (update_cancelling state.phase task elsewhere) id

omit [DecidableEq Canceller] in
theorem Race.suspend {state : State Value Canceller} (race : Race state) : Race state.suspend := by
  unfold State.suspend
  split
  · obtain ⟨returned, same⟩ := State.resume_fields { state with suspended := true }
    rw [same]
    exact race.transfer rfl rfl rfl rfl (fun _ => id) id
  · exact race.transfer rfl rfl rfl rfl (fun _ => id) id

omit [DecidableEq Canceller] in
theorem Race.start {state : State Value Canceller} (race : Race state) : Race state.start := by
  unfold State.start
  split
  · exact race
  · exact race.transfer rfl rfl rfl rfl (fun _ => id) id
  · have elsewhere : Phase.running ≠ .cancelling := nofun
    exact race.transfer rfl rfl rfl rfl (update_cancelling state.phase _ elsewhere) id

omit [DecidableEq Canceller] in
theorem Race.complete {state : State Value Canceller} (race : Race state) (task : Nat)
    (value : Value) : Race (state.complete task value) := by
  have last : some value = (state.completions ++ [(task, value)]).getLast?.map Prod.snd := by
    rw [List.getLast?_concat]
    rfl
  unfold State.complete
  by_cases canceled : state.source.source.doIsCanceled = true
  · rw [if_pos canceled]
    apply Race.finish
    constructor
    case last => exact last
    case first => exact race.first
  · rw [if_neg canceled]
    rcases race.first with ⟨nobody, unset, quiet⟩ | ⟨_, _, _, already, _⟩
    · constructor
      case last => exact last
      case first =>
        refine .inr ⟨task, value, ?_, ?_, ?_, .inl unset⟩
        · change state.winners ++ _ = _
          rw [nobody]
          rfl
        · change state.source.cancel.source.mCanceled = true
          rcases CancelRuns.cancel_cases state.source with ⟨already, _⟩ | ⟨_, first⟩
          · exact absurd already canceled
          · rw [first]
        · intro other cancelling
          change Function.update state.phase task .cancelling other = _ at cancelling
          by_contra different
          rw [Function.update_of_ne different] at cancelling
          exact quiet other cancelling
    · exact absurd already canceled

omit [DecidableEq Canceller] in
theorem Race.store {state : State Value Canceller} (race : Race state) {task : Nat}
    (cancelling : state.phase task = .cancelling) : Race (state.store task) := by
  apply Race.finish
  constructor
  case last => exact race.last
  case first =>
    rcases race.first with ⟨_, _, quiet⟩ | ⟨winner, value, won, canceled, alone, _⟩
    · exact absurd cancelling (quiet task)
    · exact .inr ⟨winner, value, won, canceled, alone, .inr (alone task cancelling)⟩

theorem Race.next {state : State Value Canceller} (race : Race state)
    {action : Action Value Canceller} (enabled : Enabled state action) :
    Race (next state action) := by
  cases action with
  | suspend => exact race.suspend
  | start => exact race.start
  | complete task value => exact race.complete task value
  | store task => exact race.store enabled.2.1
  | source action =>
      exact race.transfer rfl rfl rfl rfl (fun _ => id)
        (CancelRuns.canceled_next state.source action)

/-- For any list of tasks: the value is that of the last task to complete, the position that of
the first. -/
theorem race_always {newTasks : List (Option Nat)} {actions : List (Action Value Canceller)}
    (runs : (machine Value Canceller newTasks).Runs (.initial newTasks) actions) :
    Race ((machine Value Canceller newTasks).after (.initial newTasks) actions) :=
  Machine.invariant Race (fun _ _ race enabled => race.next enabled) (Race.initial newTasks) runs

/-! ### The null handles -/

theorem newTasks_eq (tasks : Nat) :
    newTasks tasks = List.replicate tasks none ++ (List.range tasks).map some := by
  have pushes : ∀ (given : List Nat) (front : List (Option Nat)),
      given.foldl (fun newTasks i => newTasks ++ [some i]) front = front ++ given.map some := by
    intro given
    induction given with
    | nil =>
        intro front
        exact (List.append_nil front).symm
    | cons i rest ih =>
        intro front
        rw [List.foldl_cons, ih, List.append_assoc]
        rfl
  exact pushes _ _

theorem newTasks_cons {tasks : Nat} (nonempty : 0 < tasks) :
    ∃ rest, newTasks tasks = none :: rest := by
  obtain ⟨fewer, rfl⟩ := Nat.exists_eq_add_one.2 nonempty
  rw [newTasks_eq, List.replicate_succ]
  exact ⟨_, rfl⟩

omit [DecidableEq Canceller] in
theorem defined_of_enabled {state : State Value Canceller} {action : Action Value Canceller}
    (enabled : Enabled state action) : state.Defined := by
  cases action with
  | suspend | start | complete _ _ | store _ | source _ => exact enabled.1

omit [DecidableEq Canceller] in
theorem State.suspend_of_pending {state : State Value Canceller} {task : Option Nat}
    {rest : List (Option Nat)} (pending : state.pending = task :: rest) :
    state.suspend = { state with suspended := true } := by
  unfold State.suspend
  split
  · rename_i empty
    rw [pending] at empty
    cases empty
  · rfl

/-- No task is running yet and the next to be awaited has no coroutine, or it was awaited. -/
def Doomed (state : State Value Canceller) : Prop :=
  state.returned = none ∧
    (state.Defined → (∃ rest, state.pending = none :: rest) ∧ ∀ task, state.phase task = .idle)

theorem Doomed.next {state : State Value Canceller} (doomed : Doomed state)
    {action : Action Value Canceller} (enabled : Enabled state action) :
    Doomed (next state action) := by
  obtain ⟨⟨rest, pending⟩, idle⟩ := doomed.2 (defined_of_enabled enabled)
  cases action with
  | suspend =>
      change Doomed state.suspend
      rw [State.suspend_of_pending pending]
      exact ⟨doomed.1, fun _ => ⟨⟨rest, pending⟩, idle⟩⟩
  | start =>
      change Doomed state.start
      unfold State.start
      rw [pending]
      exact ⟨doomed.1, fun still => absurd (List.mem_append_right _ (List.mem_singleton.2 rfl)) still⟩
  | complete task value =>
      have running := enabled.2
      rw [idle task] at running
      cases running
  | store task =>
      have cancelling := enabled.2.1
      rw [idle task] at cancelling
      cases cancelling
  | source action => exact ⟨doomed.1, fun _ => ⟨⟨rest, pending⟩, idle⟩⟩

omit [DecidableEq Canceller] in
theorem Doomed.initial {tasks : Nat} (nonempty : 0 < tasks) :
    Doomed (State.initial (newTasks tasks) : State Value Canceller) :=
  ⟨rfl, fun _ => ⟨newTasks_cons nonempty, fun _ => rfl⟩⟩

/-- Where a helper is started, it awaits a null handle. -/
theorem Doomed.start {newTasks : List (Option Nat)} {state : State Value Canceller}
    (doomed : Doomed state) {actions : List (Action Value Canceller)}
    (runs : (machine Value Canceller newTasks).Runs state actions) (started : .start ∈ actions) :
    none ∈ ((machine Value Canceller newTasks).after state actions).awaited := by
  induction actions generalizing state with
  | nil => cases started
  | cons action rest ih =>
      rcases List.mem_cons.1 started with same | later
      · subst same
        have enabled : Enabled state .start := runs.1
        obtain ⟨⟨others, pending⟩, _⟩ := doomed.2 enabled.1
        have awaits : none ∈ state.start.awaited := by
          unfold State.start
          rw [pending]
          exact List.mem_append_right _ (List.mem_singleton.2 rfl)
        cases rest with
        | nil => exact awaits
        | cons further _ =>
            have enabled : Enabled state.start further := runs.2.1
            exact absurd awaits (defined_of_enabled enabled)
      · exact ih (doomed.next runs.1) runs.2 later

/-- What when_any is for: it awaits given tasks only, and returns the first to complete before
the source was cancelled, with its position. -/
structure Chooses (tasks : Nat) (state : State Value Canceller) : Prop where
  only_given : ∀ task ∈ state.awaited, ∃ given < tasks, task = some given
  returns : ∀ result, state.returned = some (.ok result) →
    result.index < tasks ∧ state.winners.head? = some (result.index, result.value)

omit [DecidableEq Canceller] in
theorem Chooses.defined {tasks : Nat} {state : State Value Canceller}
    (chooses : Chooses tasks state) : state.Defined := by
  intro awaits
  obtain ⟨given, _, same⟩ := chooses.only_given none awaits
  cases same

/-- For every non-empty vector: each run that starts a helper awaits a null handle, and none
returns. -/
theorem when_any_awaits_null (Value Canceller : Type) [DecidableEq Canceller] (tasks : Nat)
    (nonempty : 0 < tasks) :
    (¬∀ actions, (machine Value Canceller (newTasks tasks)).Runs (.initial (newTasks tasks)) actions →
      Chooses tasks
        ((machine Value Canceller (newTasks tasks)).after (.initial (newTasks tasks)) actions)) ∧
      ∀ actions, (machine Value Canceller (newTasks tasks)).Runs (.initial (newTasks tasks)) actions →
        ((machine Value Canceller (newTasks tasks)).after (.initial (newTasks tasks))
            actions).returned = none ∧
          (.start ∈ actions → ¬Chooses tasks
            ((machine Value Canceller (newTasks tasks)).after (.initial (newTasks tasks))
              actions)) := by
  have doomed : Doomed (State.initial (newTasks tasks) : State Value Canceller) :=
    Doomed.initial nonempty
  constructor
  · intro claim
    have runs : (machine Value Canceller (newTasks tasks)).Runs (.initial (newTasks tasks))
        [.suspend, .start] := by
      obtain ⟨rest, pending⟩ := newTasks_cons nonempty
      have starts : Enabled (State.initial (newTasks tasks) : State Value Canceller).suspend
          .start := by
        rw [State.suspend_of_pending pending]
        refine ⟨List.not_mem_nil, rfl, ?_⟩
        change newTasks tasks ≠ []
        rw [pending]
        exact List.cons_ne_nil _ _
      exact ⟨⟨List.not_mem_nil, rfl⟩, starts, trivial⟩
    have started : Action.start ∈ ([.suspend, .start] : List (Action Value Canceller)) :=
      List.mem_cons_of_mem _ (List.mem_singleton.2 rfl)
    exact (claim _ runs).defined (doomed.start runs started)
  · intro actions runs
    constructor
    · exact (Machine.invariant Doomed (fun _ _ doomed enabled => doomed.next enabled) doomed
        runs).1
    · intro started chooses
      exact chooses.defined (doomed.start runs started)

/-- A vector of two tasks. -/
theorem when_any_awaits_null_two :
    ((machine Nat Nat (newTasks 2)).after (.initial (newTasks 2)) [.suspend, .start]).returned =
      none :=
  ((when_any_awaits_null Nat Nat 2 (by decide)).2 [.suspend, .start] (by decide)).1

/-- One task: the first helper awaits a task that has no coroutine. -/
theorem one_task_awaits_null :
    ¬∀ actions, (machine Nat Nat (newTasks 1)).Runs (.initial (newTasks 1)) actions →
      Chooses 1 ((machine Nat Nat (newTasks 1)).after (.initial (newTasks 1)) actions) := by
  intro claim
  have chooses := claim [.suspend, .start] (by decide)
  obtain ⟨given, _, same⟩ := chooses.only_given none (by decide)
  cases same

end WhenAnyVector

end MCoro
