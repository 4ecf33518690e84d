/-
Runs of when_any: who stores the result, and whether anyone does.

The race is decided by the first task that completes while the source is not
cancelled; `Race` says where it stands. mCount counts the tasks that have not
returned to whenAllHelper.
-/

import MCoro.Generic.WhenAny

namespace MCoro.WhenAny

open CancelRuns (cancel_cases)

variable {Value Slot Canceller : Type}

def Phase.isDone : Phase Value → Bool
  | .done => true
  | _ => false

theorem Phase.isDone_iff (phase : Phase Value) : phase.isDone = true ↔ phase = .done := by
  cases phase <;> simp [Phase.isDone]

/-! ### The invariant -/

/-- Nobody has won, or the winner is cancelling the others, or it has stored
its result. -/
inductive Race (form : ResultForm Value Slot) (state : State Value Slot Canceller) : Prop where
  | undecided (winners : state.winners = []) (emplaced : state.emplaced = [])
      (slot : state.slot = form.empty) (quiet : ∀ task res, state.phase task ≠ .cancelling res)
  | cancelling (task : Nat) (res : Value) (winners : state.winners = [(task, res)])
      (emplaced : state.emplaced = []) (slot : state.slot = form.empty)
      (canceled : state.source.source.mCanceled = true)
      (phase : state.phase task = .cancelling res)
      (alone : ∀ other value, state.phase other = .cancelling value → other = task)
  | decided (task : Nat) (res : Value) (winners : state.winners = [(task, res)])
      (emplaced : state.emplaced = [task])
      (slot : state.slot = form.emplace form.empty task res)
      (canceled : state.source.source.mCanceled = true)
      (quiet : ∀ other value, state.phase other ≠ .cancelling value)

/-- The tasks that have not returned to whenAllHelper. -/
def unfinished (tasks : Nat) (phase : Nat → Phase Value) : Finset Nat :=
  (Finset.range tasks).filter fun task => (phase task).isDone = false

structure Inv (form : ResultForm Value Slot) (tasks : Nat) (state : State Value Slot Canceller) :
    Prop where
  race : Race form state
  counted : state.control.mCount = (unfinished tasks state.phase).card
  resumedOnce : state.resumed = 0 ∨ state.resumed = 1 ∧ state.control.mCount = 0
  started : ∀ task, state.phase task ≠ .idle → task < tasks
  finished : ∀ task, state.phase task = .done → state.source.source.mCanceled = true

theorem Inv.initial (form : ResultForm Value Slot) (tasks : Nat) :
    Inv form tasks (State.initial form tasks : State Value Slot Canceller) where
  race := .undecided rfl rfl rfl (by intro task res impossible; cases impossible)
  counted := by
    have all : unfinished tasks (fun _ => (.idle : Phase Value)) = Finset.range tasks :=
      Finset.filter_true_of_mem fun _ _ => rfl
    change tasks = (unfinished tasks fun _ => (.idle : Phase Value)).card
    rw [all, Finset.card_range]
  resumedOnce := .inl rfl
  started := by
    intro task notIdle
    exact absurd rfl notIdle
  finished := by
    intro task impossible
    cases impossible

/-! ### Phases -/

section Phases

variable {phase : Nat → Phase Value} {tasks task : Nat}

theorem mem_unfinished : task ∈ unfinished tasks phase ↔ task < tasks ∧ phase task ≠ .done := by
  unfold unfinished
  rw [Finset.mem_filter, Finset.mem_range, ← Bool.not_eq_true, Phase.isDone_iff]

theorem unfinished_update {other : Phase Value} (before : phase task ≠ .done)
    (now : other ≠ .done) :
    unfinished tasks (Function.update phase task other) = unfinished tasks phase := by
  ext probe
  rw [mem_unfinished, mem_unfinished]
  by_cases same : probe = task
  · rw [same, Function.update_self]
    simp [before, now]
  · rw [Function.update_of_ne same]

theorem unfinished_done :
    unfinished tasks (Function.update phase task .done) = (unfinished tasks phase).erase task := by
  ext probe
  rw [Finset.mem_erase, mem_unfinished, mem_unfinished]
  by_cases same : probe = task
  · rw [same, Function.update_self]
    simp
  · rw [Function.update_of_ne same]
    simp [same]

theorem update_cancelling_iff {other : Phase Value} (before : ∀ res, phase task ≠ .cancelling res)
    (now : ∀ res, other ≠ .cancelling res) (probe : Nat) (res : Value) :
    Function.update phase task other probe = .cancelling res ↔ phase probe = .cancelling res := by
  by_cases same : probe = task
  · rw [same, Function.update_self]
    exact ⟨fun atTask => absurd atTask (now res), fun atTask => absurd atTask (before res)⟩
  · rw [Function.update_of_ne same]

end Phases

/-! ### One step -/

section Steps

variable {form : ResultForm Value Slot} {tasks : Nat} {state : State Value Slot Canceller}

theorem Race.transfer {next : State Value Slot Canceller} (race : Race form state)
    (winnersEq : next.winners = state.winners) (emplacedEq : next.emplaced = state.emplaced)
    (slotEq : next.slot = state.slot)
    (stays : state.source.source.mCanceled = true → next.source.source.mCanceled = true)
    (phases : ∀ task res, next.phase task = .cancelling res ↔ state.phase task = .cancelling res) :
    Race form next := by
  cases race with
  | undecided winners emplaced slot quiet =>
      exact .undecided (winnersEq.trans winners) (emplacedEq.trans emplaced) (slotEq.trans slot)
        fun task res atTask => quiet task res ((phases task res).1 atTask)
  | cancelling winner res winners emplaced slot canceled phase alone =>
      exact .cancelling winner res (winnersEq.trans winners) (emplacedEq.trans emplaced)
        (slotEq.trans slot) (stays canceled) ((phases winner res).2 phase)
        fun task value atTask => alone task value ((phases task value).1 atTask)
  | decided winner res winners emplaced slot canceled quiet =>
      exact .decided winner res (winnersEq.trans winners) (emplacedEq.trans emplaced)
        (slotEq.trans slot) (stays canceled)
        fun task value atTask => quiet task value ((phases task value).1 atTask)

private theorem finish_counted
    (counted : state.control.mCount = (unfinished tasks state.phase).card)
    (resumedOnce : state.resumed = 0 ∨ state.resumed = 1 ∧ state.control.mCount = 0) {task : Nat}
    (inside : task < tasks) (notDone : state.phase task ≠ .done) :
    (state.finish task).control.mCount =
        (unfinished tasks (state.finish task).phase).card ∧
      ((state.finish task).resumed = 0 ∨
        (state.finish task).resumed = 1 ∧ (state.finish task).control.mCount = 0) := by
  have member : task ∈ unfinished tasks state.phase := mem_unfinished.2 ⟨inside, notDone⟩
  have positive : 0 < (unfinished tasks state.phase).card := Finset.card_pos.2 ⟨task, member⟩
  have notYet : state.resumed = 0 := by
    rcases resumedOnce with zero | ⟨_, zero⟩
    · exact zero
    · omega
  constructor
  · change state.control.mCount - 1 = (unfinished tasks (Function.update state.phase task .done)).card
    rw [unfinished_done, Finset.card_erase_of_mem member, counted]
  · change (if decide (state.control.mCount - 1 = 0) = true then _ else _) = 0 ∨
      (if decide (state.control.mCount - 1 = 0) = true then _ else _) = 1 ∧
        state.control.mCount - 1 = 0
    by_cases last : state.control.mCount - 1 = 0
    · right
      rw [if_pos (decide_eq_true last), notYet]
      exact ⟨rfl, last⟩
    · left
      rw [if_neg (by simpa using last)]
      exact notYet

theorem Inv.start (inv : Inv form tasks state) {task : Nat} (inside : task < tasks)
    (idle : state.phase task = .idle) :
    Inv form tasks { state with phase := Function.update state.phase task .running } := by
  have quiet : ∀ res, state.phase task ≠ .cancelling res := by
    intro res
    rw [idle]
    intro impossible
    cases impossible
  exact {
    race := inv.race.transfer rfl rfl rfl id
      (update_cancelling_iff quiet (by intro res impossible; cases impossible))
    counted := by
      change state.control.mCount = (unfinished tasks (Function.update state.phase task _)).card
      rw [unfinished_update (by rw [idle]; intro impossible; cases impossible)
        (by intro impossible; cases impossible)]
      exact inv.counted
    resumedOnce := inv.resumedOnce
    started := by
      intro probe notIdle
      change Function.update state.phase task .running probe ≠ .idle at notIdle
      by_cases same : probe = task
      · rw [same]
        exact inside
      · rw [Function.update_of_ne same] at notIdle
        exact inv.started probe notIdle
    finished := by
      intro probe isDone
      change Function.update state.phase task .running probe = .done at isDone
      by_cases same : probe = task
      · rw [same, Function.update_self] at isDone
        cases isDone
      · rw [Function.update_of_ne same] at isDone
        exact inv.finished probe isDone }

private theorem Inv.finish (inv : Inv form tasks state) {task : Nat}
    (busy : state.phase task ≠ .idle) (notDone : state.phase task ≠ .done)
    (canceled : state.source.source.mCanceled = true)
    (race : Race form (state.finish task)) : Inv form tasks (state.finish task) where
  race := race
  counted := (finish_counted inv.counted inv.resumedOnce (inv.started task busy) notDone).1
  resumedOnce := (finish_counted inv.counted inv.resumedOnce (inv.started task busy) notDone).2
  started := by
    intro probe notIdle
    change Function.update state.phase task .done probe ≠ .idle at notIdle
    by_cases same : probe = task
    · rw [same]
      exact inv.started task busy
    · rw [Function.update_of_ne same] at notIdle
      exact inv.started probe notIdle
  finished := fun _ _ => canceled

theorem complete_canceled (task : Nat) (res : Value)
    (canceled : state.source.source.mCanceled = true) :
    state.complete task res = state.finish task :=
  if_pos canceled

theorem complete_first (task : Nat) (res : Value)
    (notCanceled : ¬state.source.source.mCanceled = true) :
    state.complete task res =
      { state with
        phase := Function.update state.phase task (.cancelling res)
        source := state.source.cancel
        winners := state.winners ++ [(task, res)] } :=
  if_neg notCanceled

theorem Inv.complete (inv : Inv form tasks state) {task : Nat} (res : Value)
    (running : state.phase task = .running) : Inv form tasks (state.complete task res) := by
  have busy : state.phase task ≠ .idle := by
    rw [running]
    intro impossible
    cases impossible
  have notDone : state.phase task ≠ .done := by
    rw [running]
    intro impossible
    cases impossible
  by_cases canceled : state.source.source.mCanceled = true
  · have quiet : ∀ value, state.phase task ≠ .cancelling value := by
      intro value
      rw [running]
      intro impossible
      cases impossible
    rw [complete_canceled task res canceled]
    exact inv.finish busy notDone canceled (inv.race.transfer rfl rfl rfl id
      (update_cancelling_iff quiet (by intro value impossible; cases impossible)))
  · have nowCanceled : state.source.cancel.source.mCanceled = true := by
      rcases cancel_cases state.source with ⟨isCanceled, _⟩ | ⟨_, first⟩
      · exact absurd isCanceled canceled
      · rw [first]
    rw [complete_first task res canceled]
    exact {
      race := by
        cases inv.race with
        | undecided winners emplaced slot quiet =>
            refine .cancelling task res ?_ emplaced slot nowCanceled (Function.update_self ..) ?_
            · change state.winners ++ [(task, res)] = _
              rw [winners]
              rfl
            · intro other value atOther
              change Function.update state.phase task _ other = _ at atOther
              by_contra different
              rw [Function.update_of_ne different] at atOther
              exact quiet other value atOther
        | cancelling _ _ _ _ _ isCanceled _ _ => exact absurd isCanceled canceled
        | decided _ _ _ _ _ isCanceled _ => exact absurd isCanceled canceled
      counted := by
        change state.control.mCount =
          (unfinished tasks (Function.update state.phase task _)).card
        rw [unfinished_update notDone (by intro impossible; cases impossible)]
        exact inv.counted
      resumedOnce := inv.resumedOnce
      started := by
        intro probe notIdle
        by_cases same : probe = task
        · rw [same]
          exact inv.started task busy
        · change Function.update state.phase task _ probe ≠ _ at notIdle
          rw [Function.update_of_ne same] at notIdle
          exact inv.started probe notIdle
      finished := fun _ _ => nowCanceled }

theorem Inv.emplace (inv : Inv form tasks state) {task : Nat} {res : Value}
    (phase : state.phase task = .cancelling res) :
    Inv form tasks (state.emplace form task res) := by
  cases inv.race with
  | undecided _ _ _ quiet => exact absurd phase (quiet task res)
  | decided _ _ _ _ _ _ quiet => exact absurd phase (quiet task res)
  | cancelling winner value winners emplaced slot canceled winnerPhase alone =>
      have same : task = winner := alone task res phase
      subst same
      have sameRes : res = value := by
        rw [phase] at winnerPhase
        exact Phase.cancelling.inj winnerPhase
      subst sameRes
      have busy : state.phase task ≠ .idle := by
        rw [phase]
        intro impossible
        cases impossible
      have notDone : state.phase task ≠ .done := by
        rw [phase]
        intro impossible
        cases impossible
      have counts := finish_counted inv.counted inv.resumedOnce (inv.started task busy) notDone
      exact {
        race := by
          refine .decided task res winners ?_ ?_ canceled ?_
          · change state.emplaced ++ [task] = [task]
            rw [emplaced]
            rfl
          · change form.emplace state.slot task res = _
            rw [slot]
          · intro other value atOther
            change Function.update state.phase task .done other = _ at atOther
            by_cases isTask : other = task
            · rw [isTask, Function.update_self] at atOther
              cases atOther
            · rw [Function.update_of_ne isTask] at atOther
              exact isTask (alone other value atOther)
        counted := counts.1
        resumedOnce := counts.2
        started := by
          intro probe notIdle
          by_cases isTask : probe = task
          · rw [isTask]
            exact inv.started task busy
          · change Function.update state.phase task .done probe ≠ _ at notIdle
            rw [Function.update_of_ne isTask] at notIdle
            exact inv.started probe notIdle
        finished := fun _ _ => canceled }

variable [DecidableEq Canceller]

theorem Inv.source (inv : Inv form tasks state) (action : CancelRuns.Action Canceller) :
    Inv form tasks { state with source := CancelRuns.next state.source action } := by
  have stays : state.source.source.mCanceled = true →
      (CancelRuns.next state.source action).source.mCanceled = true :=
    CancelRuns.canceled_next state.source action
  exact {
    race := inv.race.transfer rfl rfl rfl stays fun _ _ => Iff.rfl
    counted := inv.counted
    resumedOnce := inv.resumedOnce
    started := inv.started
    finished := fun task isDone => stays (inv.finished task isDone) }

theorem Inv.next (inv : Inv form tasks state) (action : Action Value Canceller)
    (enabled : Enabled tasks state action) : Inv form tasks (WhenAny.next form state action) := by
  cases action with
  | start task => exact inv.start enabled.1 enabled.2.1
  | complete task res => exact inv.complete res enabled
  | emplace task res => exact inv.emplace enabled.1
  | source action => exact inv.source action

end Steps

/-! ### The winner -/

section Runs

variable [DecidableEq Canceller]

theorem Inv.after {form : ResultForm Value Slot} {tasks : Nat}
    {actions : List (Action Value Canceller)}
    (runs : (machine Canceller form tasks).Runs (.initial form tasks) actions) :
    Inv form tasks ((machine Canceller form tasks).after (.initial form tasks) actions) :=
  Machine.invariant (Inv form tasks) (fun _ action inv enabled => inv.next action enabled)
    (Inv.initial form tasks) runs

omit [DecidableEq Canceller] in
theorem Inv.all_done {form : ResultForm Value Slot} {tasks : Nat}
    {state : State Value Slot Canceller} (inv : Inv form tasks state)
    (resumed : 0 < state.resumed) : ∀ task < tasks, state.phase task = .done := by
  intro task inside
  rcases inv.resumedOnce with never | ⟨_, none⟩
  · omega
  · by_contra notDone
    have member : task ∈ unfinished tasks state.phase := mem_unfinished.2 ⟨inside, notDone⟩
    have positive : 0 < (unfinished tasks state.phase).card := Finset.card_pos.2 ⟨task, member⟩
    have counted := inv.counted
    omega

omit [DecidableEq Canceller] in
theorem Inv.stored_of_done {form : ResultForm Value Slot} {tasks : Nat}
    {state : State Value Slot Canceller} (inv : Inv form tasks state)
    (allDone : ∀ task < tasks, state.phase task = .done) {winner : Nat × Value}
    (won : winner ∈ state.winners) : form.stored state.slot = some winner := by
  cases inv.race with
  | undecided winners _ _ _ =>
      rw [winners] at won
      cases won
  | cancelling task res _ _ _ _ phase _ =>
      have busy : state.phase task ≠ .idle := by
        rw [phase]
        intro impossible
        cases impossible
      have isDone := allDone task (inv.started task busy)
      rw [phase] at isDone
      cases isDone
  | decided task res winners _ slot _ _ =>
      rw [winners, List.mem_singleton] at won
      rw [slot, form.stored_emplace, won]

/-- At most one task executes result.emplace. It is the one task that completed
while the source was not cancelled, it stores its own position and value, and
the awaiting coroutine is resumed at most once, after all tasks and after that. -/
theorem single_winner (form : ResultForm Value Slot) (tasks : Nat)
    (actions : List (Action Value Canceller))
    (runs : (machine Canceller form tasks).Runs (.initial form tasks) actions) :
    let state := (machine Canceller form tasks).after (.initial form tasks) actions
    (state.emplaced = [] ∧ form.stored state.slot = none ∨
        ∃ task res, state.winners = [(task, res)] ∧ state.emplaced = [task] ∧
          form.stored state.slot = some (task, res)) ∧
      state.winners.length ≤ 1 ∧ state.resumed ≤ 1 ∧
      (0 < state.resumed → (∀ task < tasks, state.phase task = .done) ∧
        ∀ winner ∈ state.winners, form.stored state.slot = some winner) := by
  intro state
  have inv : Inv form tasks state := Inv.after runs
  refine ⟨?_, ?_, ?_, fun resumed => ⟨inv.all_done resumed,
    fun _ won => inv.stored_of_done (inv.all_done resumed) won⟩⟩
  · cases inv.race with
    | undecided winners emplaced slot quiet =>
        left
        rw [slot]
        exact ⟨emplaced, form.stored_empty⟩
    | cancelling task res winners emplaced slot canceled phase alone =>
        left
        rw [slot]
        exact ⟨emplaced, form.stored_empty⟩
    | decided task res winners emplaced slot canceled quiet =>
        right
        rw [slot]
        exact ⟨task, res, winners, emplaced, form.stored_emplace _ _ _⟩
  · cases inv.race with
    | undecided winners _ _ _ =>
        rw [winners]
        exact Nat.zero_le 1
    | cancelling _ _ winners _ _ _ _ _ =>
        rw [winners]
        exact Nat.le_refl 1
    | decided _ _ winners _ _ _ _ =>
        rw [winners]
        exact Nat.le_refl 1
  · rcases inv.resumedOnce with never | ⟨once, _⟩
    · omega
    · omega

/-- Task 1 completes first; task 0 completes while task 1 waits in cancel(). -/
theorem single_winner_two :
    let actions : List (Action Nat Nat) :=
      [.start 0, .start 1, .source (.construct 7), .complete 1 20, .source .start,
        .complete 0 10, .source (.complete 7), .source .finishCancel, .emplace 1 20]
    let state := (machine Nat (whenAnyCommon Nat) 2).after (.initial (whenAnyCommon Nat) 2) actions
    (state.emplaced = [] ∧ (whenAnyCommon Nat).stored state.slot = none ∨
        ∃ task res, state.winners = [(task, res)] ∧ state.emplaced = [task] ∧
          (whenAnyCommon Nat).stored state.slot = some (task, res)) ∧
      state.winners.length ≤ 1 ∧ state.resumed ≤ 1 ∧
      (0 < state.resumed → (∀ task < 2, state.phase task = .done) ∧
        ∀ winner ∈ state.winners, (whenAnyCommon Nat).stored state.slot = some winner) ∧
      state.winners = [(1, 20)] ∧ state.resumed = 1 := by
  obtain ⟨stores, one, once, done⟩ := single_winner (whenAnyCommon Nat) 2
    [.start 0, .start 1, .source (.construct 7), .complete 1 20, .source .start,
      .complete 0 10, .source (.complete 7), .source .finishCancel, .emplace 1 20] (by decide)
  exact ⟨stores, one, once, done, by decide, by decide⟩

/-! ### The value -/

variable {form : ResultForm Value Slot} {tasks : Nat}

private theorem hasWinner_next {state : State Value Slot Canceller}
    {action : Action Value Canceller}
    (hasWinner : state.source.source.mCanceled = true → state.winners ≠ [])
    (first : TaskFirst state action) :
    (next form state action).source.source.mCanceled = true →
      (next form state action).winners ≠ [] := by
  cases action with
  | start task => exact hasWinner
  | complete task res =>
      change (state.complete task res).source.source.mCanceled = true →
        (state.complete task res).winners ≠ []
      by_cases canceled : state.source.source.mCanceled = true
      · rw [complete_canceled task res canceled]
        exact fun _ => hasWinner canceled
      · rw [complete_first task res canceled]
        exact fun _ => List.append_ne_nil_of_right_ne_nil _ (List.cons_ne_nil _ _)
  | emplace task res => exact hasWinner
  | source action =>
      intro canceled
      apply hasWinner
      by_cases isCancel : action = .cancel
      · rw [isCancel] at first
        exact first rfl
      · exact CancelRuns.canceled_of_next isCancel canceled

private theorem noWinner_next {state : State Value Slot Canceller}
    (action : Action Value Canceller)
    (noWinner : state.winners = [] ∧ state.source.source.mCanceled = true) :
    (next form state action).winners = [] ∧
      (next form state action).source.source.mCanceled = true := by
  cases action with
  | start task => exact noWinner
  | complete task res =>
      change (state.complete task res).winners = [] ∧
        (state.complete task res).source.source.mCanceled = true
      rw [complete_canceled task res noWinner.2]
      exact noWinner
  | emplace task res => exact noWinner
  | source action => exact ⟨noWinner.1, CancelRuns.canceled_next _ action noWinner.2⟩

omit [DecidableEq Canceller] in
theorem Race.noWinner {state : State Value Slot Canceller} (race : Race form state)
    (notCanceled : state.source.source.mCanceled ≠ true) : state.winners = [] := by
  cases race with
  | undecided winners _ _ _ => exact winners
  | cancelling _ _ _ _ _ canceled _ _ => exact absurd canceled notCanceled
  | decided _ _ _ _ _ canceled _ => exact absurd canceled notCanceled

omit [DecidableEq Canceller] in
theorem Race.winner_of_value {state : State Value Slot Canceller} (race : Race form state)
    {result : Nat × Value} (returned : value form state.slot = .ok result) :
    state.winners ≠ [] := by
  cases race with
  | undecided _ _ slot _ =>
      unfold value at returned
      rw [slot, form.stored_empty] at returned
      cases returned
  | cancelling _ _ winners _ _ _ _ _ =>
      rw [winners]
      exact List.cons_ne_nil _ _
  | decided _ _ winners _ _ _ _ =>
      rw [winners]
      exact List.cons_ne_nil _ _

omit [DecidableEq Canceller] in
theorem Inv.value_of_winner {state : State Value Slot Canceller} (inv : Inv form tasks state)
    (allDone : ∀ task < tasks, state.phase task = .done) (hasWinner : state.winners ≠ []) :
    ∃ result, value form state.slot = .ok result := by
  obtain ⟨winner, won⟩ := List.exists_mem_of_ne_nil _ hasWinner
  refine ⟨winner, ?_⟩
  unfold value
  rw [inv.stored_of_done allDone won]

theorem noWinner_of_violated {actions : List (Action Value Canceller)}
    (runs : (machine Canceller form tasks).Runs (.initial form tasks) actions)
    (violated : ¬(machine Canceller form tasks).Along TaskFirst (.initial form tasks) actions) :
    ((machine Canceller form tasks).after (.initial form tasks) actions).winners = [] := by
  obtain ⟨front, action, back, split, _, fails⟩ := Machine.exists_first_violation violated
  rw [split] at runs
  have inv := Inv.after runs.step.1
  have runsBack := (Machine.along_append.1 runs).2.2
  rw [split, Machine.after_append]
  generalize (machine Canceller form tasks).after (.initial form tasks) front = state
    at fails inv runsBack ⊢
  have isCancel : action = .source .cancel ∧ state.source.source.mCanceled ≠ true :=
    Classical.not_imp.1 fails
  have start : (next form state action).winners = [] ∧
      (next form state action).source.source.mCanceled = true := by
    rw [isCancel.1]
    constructor
    · exact inv.race.noWinner isCancel.2
    · change (CancelRuns.State.cancel state.source).source.mCanceled = true
      rcases cancel_cases state.source with ⟨canceled, _⟩ | ⟨_, now⟩
      · exact absurd canceled isCancel.2
      · rw [now]
  have kept := Machine.invariant
    (fun state => state.winners = [] ∧ state.source.source.mCanceled = true)
    (fun state action noWinner _ => noWinner_next action noWinner) start runsBack
  exact kept.1

/-- When the awaiting coroutine goes on, `result.value()` returns if and only if
the source was not cancelled by other hands before a task had completed. -/
theorem value_iff_task_first (form : ResultForm Value Slot) (tasks : Nat) (nonempty : 0 < tasks)
    (actions : List (Action Value Canceller))
    (runs : (machine Canceller form tasks).Runs (.initial form tasks) actions)
    (resumed : 0 < ((machine Canceller form tasks).after (.initial form tasks) actions).resumed) :
    (∃ result,
        value form ((machine Canceller form tasks).after (.initial form tasks) actions).slot =
          .ok result) ↔
      (machine Canceller form tasks).Along TaskFirst (.initial form tasks) actions := by
  have inv := Inv.after runs
  constructor
  · rintro ⟨result, returned⟩
    by_contra violated
    exact inv.race.winner_of_value returned (noWinner_of_violated runs violated)
  · intro along
    have hasWinner := Machine.invariant_along
      (fun state : State Value Slot Canceller =>
        state.source.source.mCanceled = true → state.winners ≠ [])
      (fun state action hasWinner _ first => hasWinner_next hasWinner first)
      (by intro impossible; cases impossible) runs along
    have allDone := inv.all_done resumed
    have canceled := inv.finished 0 (allDone 0 nonempty)
    exact inv.value_of_winner allDone (hasWinner canceled)

/-- Two tasks, the second completes first; the enclosing task is cancelled later. -/
theorem value_iff_task_first_two :
    let actions : List (Action Nat Nat) :=
      [.start 0, .start 1, .complete 1 20, .source .cancel, .source .finishCancel,
        .emplace 1 20, .complete 0 10]
    (∃ result,
        value (whenAny Nat) ((machine Nat (whenAny Nat) 2).after (.initial (whenAny Nat) 2)
          actions).slot = .ok result) ∧
      (machine Nat (whenAny Nat) 2).Along TaskFirst (.initial (whenAny Nat) 2) actions :=
  have first : (machine Nat (whenAny Nat) 2).Along TaskFirst (.initial (whenAny Nat) 2)
      [.start 0, .start 1, .complete 1 20, .source .cancel, .source .finishCancel,
        .emplace 1 20, .complete 0 10] := by decide
  ⟨(value_iff_task_first (whenAny Nat) 2 (by decide) _ (by decide) (by decide)).2 first, first⟩

/-- The enclosing task is cancelled while both tasks run: both see a cancelled
token, nobody stores a result, and value() throws. -/
theorem cancelled_outside_has_no_value :
    ¬∀ actions : List (Action Nat Nat),
      (machine Nat (whenAny Nat) 2).Runs (.initial (whenAny Nat) 2) actions →
        0 < ((machine Nat (whenAny Nat) 2).after (.initial (whenAny Nat) 2) actions).resumed →
        ∃ result,
          value (whenAny Nat) ((machine Nat (whenAny Nat) 2).after (.initial (whenAny Nat) 2)
            actions).slot = .ok result := by
  intro claim
  obtain ⟨result, returned⟩ :=
    claim [.start 0, .start 1, .source .cancel, .complete 0 10, .complete 1 20,
      .source .finishCancel] (by decide) (by decide)
  cases returned

end Runs

end MCoro.WhenAny
