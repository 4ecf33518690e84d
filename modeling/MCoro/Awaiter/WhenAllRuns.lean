/-
when_all of co_async/awaiter/when_all.hpp, both forms.

await_suspend starts the helper tasks one after the other: all but the last from its
loop, the last by returning its handle. A task that has been started completes at
any later moment, also before the next one is started. The results of a vector are
those of a tuple whose components have one type.
-/

import MCoro.Awaiter.WhenAll
import MCoro.Library.Machine

namespace MCoro.WhenAll

inductive Stage (count : Nat) where
  | ready
  /-- `mPrevious` is set, and this task is the next to be started. -/
  | starting (task : Fin count)
  | started
  deriving DecidableEq, Repr

variable {count : Nat} {Value : Fin count → Type}

/-- The frame of when_all. `starts` and `completions` log what the tasks do. -/
structure State (Value : Fin count → Type) where
  mControl : WhenAllCtlBlock
  /-- The slots of type Uninitialized. -/
  result : (task : Fin count) → Option (Value task)
  stage : Stage count
  resumed : Nat
  returned : Option ((task : Fin count) → Value task)
  starts : List (Fin count)
  completions : List (Sigma Value)

inductive Action (Value : Fin count → Type) where
  /-- The awaiting coroutine enters await_suspend. -/
  | suspend
  | start
  | complete (task : Fin count) (value : Value task)

namespace State

def initial (Value : Fin count → Type) : State Value :=
  { mControl := { mCount := count }
    result := fun _ => none
    stage := .ready
    resumed := 0
    returned := none
    starts := []
    completions := [] }

/-- The moves out of the slots, which need all of them to hold a value. -/
def collect (result : (task : Fin count) → Option (Value task)) :
    Option ((task : Fin count) → Value task) :=
  if whole : ∀ task, (result task).isSome then some fun task => (result task).get (whole task)
  else none

/-- The awaiting coroutine goes on after `co_await WhenAllAwaiter`. -/
def resume (state : State Value) : State Value :=
  { state with
    resumed := state.resumed + 1
    returned := collect state.result }

def suspend (state : State Value) : State Value :=
  if empty : count = 0 then { state with stage := .started }.resume
  else { state with stage := .starting ⟨0, Nat.pos_of_ne_zero empty⟩ }

/-- The task after the last is none: its predecessor's handle was returned. -/
def start (state : State Value) (task : Fin count) : State Value :=
  { state with
    stage := if more : task.val + 1 < count then .starting ⟨task.val + 1, more⟩ else .started
    starts := state.starts ++ [task] }

/-- The task has its value: what is left of whenAllHelper, and where it returns to. -/
def complete (state : State Value) (task : Fin count) (value : Value task) : State Value :=
  let completed : State Value :=
    { state with
      mControl := state.mControl.finishHelper.1
      result := Function.update state.result task (some value)
      completions := state.completions ++ [⟨task, value⟩] }
  if state.mControl.finishHelper.2 then completed.resume else completed

def finished (state : State Value) : List (Fin count) :=
  state.completions.map Sigma.fst

end State

def Enabled (state : State Value) : Action Value → Prop
  | .suspend => state.stage = .ready
  | .start => ∃ task, state.stage = .starting task
  | .complete task _ => task ∈ state.starts ∧ task ∉ state.finished

def next (state : State Value) : Action Value → State Value
  | .suspend => state.suspend
  | .start =>
      match state.stage with
      | .starting task => state.start task
      | _ => state
  | .complete task value => state.complete task value

def machine (Value : Fin count → Type) : Machine (State Value) (Action Value) :=
  { initial := .initial Value
    Enabled := Enabled
    next := next }

instance (state : State Value) (action : Action Value) : Decidable (Enabled state action) :=
  match action with
  | .suspend => inferInstanceAs (Decidable (state.stage = .ready))
  | .start => inferInstanceAs (Decidable (∃ task, state.stage = .starting task))
  | .complete task _ => inferInstanceAs (Decidable (task ∈ state.starts ∧ task ∉ state.finished))

instance (state : State Value) (action : Action Value) :
    Decidable ((machine Value).Enabled state action) :=
  inferInstanceAs (Decidable (Enabled state action))

/-! ### The invariant -/

def Stage.passed : Stage count → Nat
  | .ready => 0
  | .starting task => task.val
  | .started => count

structure Inv (state : State Value) : Prop where
  starts : state.starts.map Fin.val = List.range state.stage.passed
  finished : state.finished ⊆ state.starts
  once : state.finished.Nodup
  counter : state.mControl.mCount + state.completions.length = count
  slots : ∀ task value, state.result task = some value ↔ ⟨task, value⟩ ∈ state.completions
  waiting : state.stage = .ready ∨ state.mControl.mCount ≠ 0 → state.resumed = 0
  resumed : state.stage ≠ .ready → state.mControl.mCount = 0 →
    state.resumed = 1 ∧ state.returned = State.collect state.result

theorem Inv.initial : Inv (State.initial Value) :=
  { starts := rfl
    finished := List.nil_subset _
    once := List.nodup_nil
    counter := rfl
    slots := by
      intro task value
      simp [State.initial]
    waiting := by
      intro early
      rfl
    resumed := by
      intro entered
      exact absurd rfl entered }

theorem Inv.starts_nodup {state : State Value} (inv : Inv state) : state.starts.Nodup := by
  apply List.Nodup.of_map Fin.val
  rw [inv.starts]
  exact List.nodup_range

theorem Inv.starts_length {state : State Value} (inv : Inv state) :
    state.starts.length = state.stage.passed := by
  have lengths := congrArg List.length inv.starts
  rw [List.length_map, List.length_range] at lengths
  exact lengths

theorem Inv.mem_starts {state : State Value} (inv : Inv state) (task : Fin count) :
    task ∈ state.starts ↔ task.val < state.stage.passed := by
  rw [← List.mem_range, ← inv.starts, List.mem_map]
  constructor
  · intro member
    exact ⟨task, member, rfl⟩
  · rintro ⟨other, member, same⟩
    rw [← Fin.ext same]
    exact member

theorem State.finished_length (state : State Value) :
    state.finished.length = state.completions.length :=
  List.length_map ..

theorem Inv.zero_iff {state : State Value} (inv : Inv state) :
    state.mControl.mCount = 0 ↔ ∀ task, task ∈ state.finished := by
  have counter := inv.counter
  rw [← state.finished_length] at counter
  constructor
  · intro zero task
    have whole : state.finished.toFinset = Finset.univ := by
      apply Finset.eq_univ_of_card
      rw [List.toFinset_card_of_nodup inv.once, Fintype.card_fin]
      omega
    rw [← List.mem_toFinset, whole]
    exact Finset.mem_univ task
  · intro every
    have whole : state.finished.toFinset = Finset.univ := by
      apply Finset.eq_univ_of_forall
      intro task
      exact List.mem_toFinset.2 (every task)
    have card := List.toFinset_card_of_nodup inv.once
    rw [whole, Finset.card_univ, Fintype.card_fin] at card
    omega

theorem Inv.positive {state : State Value} (inv : Inv state) {task : Fin count}
    (unfinished : task ∉ state.finished) : state.mControl.mCount ≠ 0 := by
  intro zero
  exact unfinished (inv.zero_iff.1 zero task)

/-! ### The steps -/

theorem Inv.suspend {state : State Value} (inv : Inv state) (ready : state.stage = .ready) :
    Inv state.suspend := by
  have nothing : state.starts = [] := by
    apply List.eq_nil_of_length_eq_zero
    rw [inv.starts_length, ready]
    rfl
  unfold State.suspend
  by_cases empty : count = 0
  · rw [dif_pos empty]
    constructor
    case starts =>
      change state.starts.map Fin.val = List.range count
      rw [nothing, empty]
      rfl
    case finished => exact inv.finished
    case once => exact inv.once
    case counter => exact inv.counter
    case slots => exact inv.slots
    case waiting =>
      intro early
      have counter := inv.counter
      rcases early with early | early
      · cases early
      · change state.mControl.mCount ≠ 0 at early
        omega
    case resumed =>
      intro entered zero
      have before := inv.waiting (.inl ready)
      change state.resumed + 1 = 1 ∧ State.collect state.result = State.collect state.result
      rw [before]
      exact ⟨rfl, rfl⟩
  · rw [dif_neg empty]
    constructor
    case starts =>
      change state.starts.map Fin.val = List.range 0
      rw [nothing]
      rfl
    case finished => exact inv.finished
    case once => exact inv.once
    case counter => exact inv.counter
    case slots => exact inv.slots
    case waiting =>
      intro early
      exact inv.waiting (.inl ready)
    case resumed =>
      intro entered zero
      -- No task has completed before the first is started.
      have member := inv.finished (inv.zero_iff.1 zero ⟨0, Nat.pos_of_ne_zero empty⟩)
      rw [nothing] at member
      cases member

theorem Inv.start {state : State Value} (inv : Inv state) {task : Fin count}
    (stage : state.stage = .starting task) : Inv (state.start task) := by
  have fresh : task ∉ state.starts := by
    rw [inv.mem_starts, stage]
    exact Nat.lt_irrefl _
  have pending : state.mControl.mCount ≠ 0 := inv.positive fun member => fresh (inv.finished member)
  constructor
  case starts =>
    have passed : (state.start task).stage.passed = task.val + 1 := by
      unfold State.start
      by_cases more : task.val + 1 < count
      · simp only [dif_pos more]
        rfl
      · simp only [dif_neg more]
        have last := task.isLt
        change count = task.val + 1
        omega
    have before := inv.starts
    rw [stage] at before
    rw [passed, List.range_succ]
    change (state.starts ++ [task]).map Fin.val = _
    rw [List.map_append, before]
    rfl
  case finished =>
    intro done member
    exact List.mem_append_left _ (inv.finished member)
  case once => exact inv.once
  case counter => exact inv.counter
  case slots => exact inv.slots
  case waiting =>
    intro early
    exact inv.waiting (.inr pending)
  case resumed =>
    intro entered zero
    exact absurd zero pending

/-- What a completion does, whether or not the awaiting coroutine goes on after it. -/
theorem State.complete_fields (state : State Value) (task : Fin count) (value : Value task) :
    (state.complete task value).mControl = state.mControl.finishHelper.1 ∧
      (state.complete task value).result = Function.update state.result task (some value) ∧
      (state.complete task value).stage = state.stage ∧
      (state.complete task value).starts = state.starts ∧
      (state.complete task value).completions = state.completions ++ [⟨task, value⟩] := by
  unfold State.complete
  by_cases last : state.mControl.finishHelper.2 = true
  · rw [if_pos last]
    exact ⟨rfl, rfl, rfl, rfl, rfl⟩
  · rw [if_neg last]
    exact ⟨rfl, rfl, rfl, rfl, rfl⟩

theorem State.complete_resumed (state : State Value) (task : Fin count) (value : Value task) :
    (state.complete task value).mControl.mCount = 0 ∧
        (state.complete task value).resumed = state.resumed + 1 ∧
        (state.complete task value).returned = collect (state.complete task value).result ∨
      (state.complete task value).mControl.mCount ≠ 0 ∧
        (state.complete task value).resumed = state.resumed := by
  rw [(state.complete_fields task value).1]
  unfold State.complete
  by_cases last : state.mControl.mCount - 1 = 0
  · have isLast : state.mControl.finishHelper.2 = true := decide_eq_true last
    rw [if_pos isLast]
    exact .inl ⟨last, rfl, rfl⟩
  · have isNotLast : ¬state.mControl.finishHelper.2 = true := by
      rw [Bool.not_eq_true]
      exact decide_eq_false last
    rw [if_neg isNotLast]
    exact .inr ⟨last, rfl⟩

theorem Inv.complete {state : State Value} (inv : Inv state) {task : Fin count}
    (started : task ∈ state.starts) (unfinished : task ∉ state.finished) (value : Value task) :
    Inv (state.complete task value) := by
  have pending := inv.positive unfinished
  have entered : state.stage ≠ .ready := by
    intro ready
    rw [inv.mem_starts, ready] at started
    exact Nat.not_lt_zero _ started
  have before := inv.waiting (.inr pending)
  have resumes := state.complete_resumed task value
  rcases state.complete_fields task value with ⟨control, result, stage, starts, completions⟩
  have finished : (state.complete task value).finished = state.finished ++ [task] := by
    unfold State.finished
    rw [completions, List.map_append]
    rfl
  constructor
  case starts =>
    rw [starts, stage]
    exact inv.starts
  case finished =>
    rw [finished, starts]
    intro other member
    rcases List.mem_append.1 member with old | new
    · exact inv.finished old
    · rw [List.mem_singleton] at new
      rw [new]
      exact started
  case once =>
    rw [finished, ← List.concat_eq_append, List.nodup_concat]
    exact ⟨unfinished, inv.once⟩
  case counter =>
    have counter := inv.counter
    rw [control, completions, List.length_append]
    change state.mControl.mCount - 1 + (state.completions.length + 1) = count
    omega
  case slots =>
    intro other probe
    rw [result, completions, List.mem_append, List.mem_singleton]
    by_cases same : other = task
    · subst same
      rw [Function.update_self]
      constructor
      · intro equal
        cases equal
        exact .inr rfl
      · intro logged
        rcases logged with old | new
        · exact absurd (List.mem_map.2 ⟨_, old, rfl⟩) unfinished
        · cases new
          rfl
    · rw [Function.update_of_ne same, inv.slots]
      constructor
      · exact Or.inl
      · intro logged
        rcases logged with old | new
        · exact old
        · cases new
          exact absurd rfl same
  case waiting =>
    intro early
    rw [stage] at early
    rcases resumes with ⟨zero, _⟩ | ⟨_, unchanged⟩
    · rcases early with ready | more
      · exact absurd ready entered
      · exact absurd zero more
    · rw [unchanged]
      exact before
  case resumed =>
    intro _ zero
    rcases resumes with ⟨_, once, returned⟩ | ⟨more, _⟩
    · rw [once, before]
      exact ⟨rfl, returned⟩
    · exact absurd zero more

theorem Inv.next {state : State Value} (inv : Inv state) {action : Action Value}
    (enabled : Enabled state action) : Inv (next state action) := by
  cases action with
  | suspend => exact inv.suspend enabled
  | start =>
      rcases enabled with ⟨task, stage⟩
      simp only [WhenAll.next, stage]
      exact inv.start stage
  | complete task value => exact inv.complete enabled.1 enabled.2 value

/-! ### Runs -/

/-- The counter is positive where it is decremented. -/
def NoUnderflow (state : State Value) : Action Value → Prop
  | .complete _ _ => 0 < state.mControl.mCount
  | _ => True

structure Gathers (state : State Value) : Prop where
  started_once : state.starts.Nodup
  zero_iff : state.mControl.mCount = 0 ↔ ∀ task, task ∈ state.finished
  resumed_at_most_once : state.resumed ≤ 1
  resumed_iff : state.resumed = 1 ↔ state.stage ≠ .ready ∧ ∀ task, task ∈ state.finished
  returns : state.resumed = 1 → ∃ values, state.returned = some values ∧
    ∀ task value, ⟨task, value⟩ ∈ state.completions → values task = value

theorem Inv.collected {state : State Value} (inv : Inv state)
    (every : ∀ task, task ∈ state.finished) :
    ∃ values, State.collect state.result = some values ∧
      ∀ task value, ⟨task, value⟩ ∈ state.completions → values task = value := by
  have whole : ∀ task, (state.result task).isSome := by
    intro task
    rcases List.mem_map.1 (every task) with ⟨⟨done, value⟩, logged, same⟩
    subst same
    rw [(inv.slots done value).2 logged]
    rfl
  unfold State.collect
  rw [dif_pos whole]
  refine ⟨_, rfl, ?_⟩
  intro task value logged
  exact Option.get_of_eq_some (whole task) ((inv.slots task value).2 logged)

theorem Inv.gathers {state : State Value} (inv : Inv state) : Gathers state := by
  have resumed_iff : state.resumed = 1 ↔ state.stage ≠ .ready ∧ ∀ task, task ∈ state.finished := by
    rw [← inv.zero_iff]
    constructor
    · intro once
      constructor
      · intro ready
        have before := inv.waiting (.inl ready)
        omega
      · by_contra more
        have before := inv.waiting (.inr more)
        omega
    · rintro ⟨entered, zero⟩
      exact (inv.resumed entered zero).1
  constructor
  case started_once => exact inv.starts_nodup
  case zero_iff => exact inv.zero_iff
  case resumed_at_most_once =>
    by_cases early : state.stage = .ready ∨ state.mControl.mCount ≠ 0
    · rw [inv.waiting early]
      exact Nat.zero_le 1
    · rw [not_or, not_not] at early
      exact (inv.resumed early.1 early.2).1.le
  case resumed_iff => exact resumed_iff
  case returns =>
    intro once
    rcases resumed_iff.1 once with ⟨entered, every⟩
    rw [(inv.resumed entered (inv.zero_iff.2 every)).2]
    exact inv.collected every

/-- Any number of tasks, with the completions at any moment after their starts. -/
theorem gathers_all (count : Nat) (Value : Fin count → Type) (actions : List (Action Value))
    (runs : (machine Value).Runs (.initial Value) actions) :
    Gathers ((machine Value).after (.initial Value) actions) ∧
      (machine Value).Along NoUnderflow (.initial Value) actions := by
  have keeps : ∀ state action, Inv state → (machine Value).Enabled state action →
      Inv ((machine Value).next state action) := by
    intro state action inv enabled
    exact inv.next enabled
  constructor
  · exact (Machine.invariant Inv keeps Inv.initial runs).gathers
  · apply Machine.along_of_invariant Inv keeps ?_ Inv.initial runs
    intro state action inv enabled
    cases action with
    | suspend | start => trivial
    | complete task value => exact Nat.pos_of_ne_zero (inv.positive enabled.2)

/-- Three tasks: the first completes while the second is being started. -/
theorem gathers_all_three :
    Gathers ((machine fun _ : Fin 3 => Nat).after (.initial _)
        [.suspend, .start, .start, .complete 0 4, .start, .complete 2 6, .complete 1 5]) ∧
      (machine fun _ : Fin 3 => Nat).Along NoUnderflow (.initial _)
        [.suspend, .start, .start, .complete 0 4, .start, .complete 2 6, .complete 1 5] :=
  gathers_all 3 _ _ (by decide)

end MCoro.WhenAll
