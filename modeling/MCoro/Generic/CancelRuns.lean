/-
One cancel source and everything that happens to it.

Cancellers are constructed and destroyed at any moment, also by the code that the
tasks of other cancellers resume. The call of cancel() that finds the source not
cancelled collects one task for each canceller and starts them one by one; it
returns when all of them have completed. Every other call returns at once.
-/

import MCoro.Generic.Cancel
import MCoro.Library.Machine
import MCoro.Utils.IntrusiveListRuns

namespace MCoro.CancelRuns

inductive Action (Canceller : Type) where
  | construct (canceller : Canceller)
  | destroy (canceller : Canceller)
  | cancel
  | start
  | complete (canceller : Canceller)
  | finishCancel
  deriving DecidableEq, Repr

structure State (Canceller : Type) where
  source : CancelSourceImpl Canceller
  alive : List Canceller
  known : List Canceller
  /-- Those constructed when cancel() had been called already. -/
  late : List Canceller
  /-- The tasks that when_all has still to start. -/
  pending : List Canceller
  running : List Canceller
  /-- The cancellers whose doCancel was run, in order. -/
  ran : List Canceller
  /-- The call that cancelled the source has completed. -/
  returned : Bool
  deriving DecidableEq, Repr

variable {Canceller : Type}

def State.initial : State Canceller :=
  { source := .initial
    alive := []
    known := []
    late := []
    pending := []
    running := []
    ran := []
    returned := false }

variable [DecidableEq Canceller]

namespace State

def construct (state : State Canceller) (canceller : Canceller) : State Canceller :=
  { state with
    source := state.source.doRegister canceller
    alive := canceller :: state.alive
    known := canceller :: state.known
    late := if state.source.mCanceled then canceller :: state.late else state.late }

def destroy (state : State Canceller) (canceller : Canceller) : State Canceller :=
  { state with
    source := state.source.eraseFromParent canceller
    alive := state.alive.erase canceller }

omit [DecidableEq Canceller] in
def cancel (state : State Canceller) : State Canceller :=
  match state.source.doCancel with
  | none => state
  | some (source, tasks) =>
      { state with
        source := source
        pending := tasks }

/-- WhenAllAwaiter::await_suspend resumes the next task. -/
def start (state : State Canceller) : State Canceller :=
  match state.pending with
  | [] => state
  | canceller :: rest =>
      { state with
        pending := rest
        running := state.running ++ [canceller]
        ran := state.ran ++ [canceller] }

def complete (state : State Canceller) (canceller : Canceller) : State Canceller :=
  { state with running := state.running.erase canceller }

def finishCancel (state : State Canceller) : State Canceller :=
  { state with
    source := state.source.doCancelEnd
    returned := true }

end State

def Enabled (state : State Canceller) : Action Canceller → Prop
  | .construct canceller => canceller ∉ state.known
  | .destroy canceller => canceller ∈ state.alive
  | .cancel => True
  | .start => state.pending ≠ []
  | .complete canceller => canceller ∈ state.running
  | .finishCancel => state.source.mCanceled = true ∧ state.returned = false ∧ state.pending = [] ∧
      state.running = []

def next (state : State Canceller) : Action Canceller → State Canceller
  | .construct canceller => state.construct canceller
  | .destroy canceller => state.destroy canceller
  | .cancel => state.cancel
  | .start => state.start
  | .complete canceller => state.complete canceller
  | .finishCancel => state.finishCancel

instance (state : State Canceller) (action : Action Canceller) :
    Decidable (Enabled state action) := by
  cases action <;> unfold Enabled <;> infer_instance

def machine (Canceller : Type) [DecidableEq Canceller] :
    Machine (State Canceller) (Action Canceller) :=
  { initial := .initial
    Enabled := Enabled
    next := next }

instance (state : State Canceller) (action : Action Canceller) :
    Decidable ((machine Canceller).Enabled state action) :=
  inferInstanceAs (Decidable (Enabled state action))

/-! ### The invariant -/

structure Inv (state : State Canceller) : Prop where
  aliveKnown : ∀ canceller ∈ state.alive, canceller ∈ state.known
  lateKnown : ∀ canceller ∈ state.late, canceller ∈ state.known
  tasksKnown : ∀ canceller ∈ state.ran ++ state.pending, canceller ∈ state.known
  aliveNodup : state.alive.Nodup
  linkedNodup : state.source.mCancellers.Nodup
  tasksNodup : (state.ran ++ state.pending).Nodup
  linkedAlive : ∀ canceller ∈ state.source.mCancellers, canceller ∈ state.alive
  aliveLinked : state.returned = false → ∀ canceller ∈ state.alive,
    canceller ∈ state.source.mCancellers
  quiet : state.source.mCanceled = false →
    state.late = [] ∧ state.pending = [] ∧ state.ran = [] ∧ state.returned = false
  collected : state.source.mCanceled = true → ∀ canceller ∈ state.alive,
    canceller ∈ state.late ∨ canceller ∈ state.ran ++ state.pending
  lateApart : ∀ canceller ∈ state.late, canceller ∉ state.ran ++ state.pending
  settled : state.returned = true → state.pending = []

omit [DecidableEq Canceller] in
theorem Inv.initial : Inv (State.initial : State Canceller) := by
  constructor <;> simp [State.initial, CancelSourceImpl.initial]

section Steps

variable {state : State Canceller}

omit [DecidableEq Canceller] in
theorem Inv.construct (inv : Inv state) {canceller : Canceller} (fresh : canceller ∉ state.known) :
    Inv (state.construct canceller) := by
  have notAlive : canceller ∉ state.alive := fun member => fresh (inv.aliveKnown _ member)
  have notLinked : canceller ∉ state.source.mCancellers := fun member =>
    notAlive (inv.linkedAlive _ member)
  have notTask : canceller ∉ state.ran ++ state.pending := fun member =>
    fresh (inv.tasksKnown _ member)
  exact {
    aliveKnown := fun _ member =>
      List.cons_subset_cons canceller (fun probe => inv.aliveKnown probe) member
    lateKnown := by
      intro probe member
      change probe ∈ (if state.source.mCanceled then _ else _) at member
      split at member
      · exact List.cons_subset_cons canceller (fun probe => inv.lateKnown probe) member
      · exact List.mem_cons_of_mem _ (inv.lateKnown probe member)
    tasksKnown := by
      intro probe member
      exact List.mem_cons_of_mem _ (inv.tasksKnown probe member)
    aliveNodup := List.nodup_cons.2 ⟨notAlive, inv.aliveNodup⟩
    linkedNodup := List.nodup_cons.2 ⟨notLinked, inv.linkedNodup⟩
    tasksNodup := inv.tasksNodup
    linkedAlive := fun _ member =>
      List.cons_subset_cons canceller (fun probe => inv.linkedAlive probe) member
    aliveLinked := by
      intro notReturned probe member
      exact List.cons_subset_cons canceller (fun other => inv.aliveLinked notReturned other) member
    quiet := by
      intro notCanceled
      change state.source.mCanceled = false at notCanceled
      obtain ⟨noLate, rest⟩ := inv.quiet notCanceled
      refine ⟨?_, rest⟩
      change (if state.source.mCanceled then _ else state.late) = []
      rw [notCanceled]
      exact noLate
    collected := by
      intro canceled probe member
      change state.source.mCanceled = true at canceled
      change probe ∈ (if state.source.mCanceled then canceller :: state.late else _) ∨ _
      rw [canceled]
      rcases List.mem_cons.1 member with same | older
      · rw [same]
        exact .inl List.mem_cons_self
      · rcases inv.collected canceled probe older with isLate | task
        · exact .inl (List.mem_cons_of_mem _ isLate)
        · exact .inr task
    lateApart := by
      intro probe member
      change probe ∈ (if state.source.mCanceled then _ else _) at member
      split at member
      · rcases List.mem_cons.1 member with same | older
        · rw [same]
          exact notTask
        · exact inv.lateApart probe older
      · exact inv.lateApart probe member
    settled := inv.settled }

theorem Inv.destroy (inv : Inv state) (canceller : Canceller) : Inv (state.destroy canceller) where
  aliveKnown := by
    intro probe member
    exact inv.aliveKnown probe (List.mem_of_mem_erase member)
  lateKnown := inv.lateKnown
  tasksKnown := inv.tasksKnown
  aliveNodup := inv.aliveNodup.erase canceller
  linkedNodup := inv.linkedNodup.erase canceller
  tasksNodup := inv.tasksNodup
  linkedAlive := by
    intro probe member
    obtain ⟨other, linked⟩ := (inv.linkedNodup.mem_erase_iff).1 member
    exact (inv.aliveNodup.mem_erase_iff).2 ⟨other, inv.linkedAlive probe linked⟩
  aliveLinked := by
    intro notReturned probe member
    obtain ⟨other, isAlive⟩ := (inv.aliveNodup.mem_erase_iff).1 member
    exact (inv.linkedNodup.mem_erase_iff).2 ⟨other, inv.aliveLinked notReturned probe isAlive⟩
  quiet := inv.quiet
  collected := by
    intro canceled probe member
    exact inv.collected canceled probe (List.mem_of_mem_erase member)
  lateApart := inv.lateApart
  settled := inv.settled

omit [DecidableEq Canceller] in
theorem cancel_cases (state : State Canceller) :
    (state.source.mCanceled = true ∧ state.cancel = state) ∨
      (state.source.mCanceled = false ∧ state.cancel = { state with
        source := { state.source with mCanceled := true }
        pending := state.source.mCancellers }) := by
  unfold State.cancel CancelSourceImpl.doCancel
  cases canceled : state.source.mCanceled with
  | true => exact .inl ⟨rfl, rfl⟩
  | false => exact .inr ⟨rfl, rfl⟩

theorem canceled_next (state : State Canceller) (action : Action Canceller)
    (canceled : state.source.mCanceled = true) :
    (next state action).source.mCanceled = true := by
  cases action with
  | cancel =>
      change state.cancel.source.mCanceled = true
      rcases cancel_cases state with ⟨_, same⟩ | ⟨_, first⟩
      · rw [same]
        exact canceled
      · rw [first]
  | start =>
      change state.start.source.mCanceled = true
      unfold State.start
      split
      · exact canceled
      · exact canceled
  | construct _ | destroy _ | complete _ | finishCancel => exact canceled

theorem canceled_of_next {state : State Canceller} {action : Action Canceller}
    (other : action ≠ .cancel) (canceled : (next state action).source.mCanceled = true) :
    state.source.mCanceled = true := by
  cases action with
  | cancel => exact absurd rfl other
  | start =>
      change state.start.source.mCanceled = true at canceled
      unfold State.start at canceled
      split at canceled
      · exact canceled
      · exact canceled
  | construct _ | destroy _ | complete _ | finishCancel => exact canceled

omit [DecidableEq Canceller] in
theorem Inv.cancel (inv : Inv state) : Inv state.cancel := by
  rcases cancel_cases state with ⟨_, same⟩ | ⟨notCanceled, first⟩
  · rw [same]
    exact inv
  · obtain ⟨noLate, noPending, noRan, notReturned⟩ := inv.quiet notCanceled
    rw [first]
    exact {
      aliveKnown := inv.aliveKnown
      lateKnown := inv.lateKnown
      tasksKnown := by
        intro probe member
        change probe ∈ state.ran ++ state.source.mCancellers at member
        rw [noRan] at member
        exact inv.aliveKnown probe (inv.linkedAlive probe member)
      aliveNodup := inv.aliveNodup
      linkedNodup := inv.linkedNodup
      tasksNodup := by
        change (state.ran ++ state.source.mCancellers).Nodup
        rw [noRan]
        exact inv.linkedNodup
      linkedAlive := inv.linkedAlive
      aliveLinked := inv.aliveLinked
      quiet := by
        intro impossible
        cases impossible
      collected := by
        intro _ probe member
        right
        change probe ∈ state.ran ++ state.source.mCancellers
        rw [noRan]
        exact inv.aliveLinked notReturned probe member
      lateApart := by
        intro probe member
        change probe ∈ state.late at member
        rw [noLate] at member
        cases member
      settled := by
        intro isReturned
        change state.returned = true at isReturned
        rw [notReturned] at isReturned
        cases isReturned }

omit [DecidableEq Canceller] in
theorem Inv.start (inv : Inv state) : Inv state.start := by
  unfold State.start
  cases tasks : state.pending with
  | nil => exact inv
  | cons canceller rest =>
      have moved : (state.ran ++ [canceller]) ++ rest = state.ran ++ state.pending := by
        rw [tasks, List.append_assoc]
        rfl
      have notQuiet : state.source.mCanceled ≠ false := by
        intro notCanceled
        have noPending := (inv.quiet notCanceled).2.1
        rw [tasks] at noPending
        cases noPending
      exact {
        aliveKnown := inv.aliveKnown
        lateKnown := inv.lateKnown
        tasksKnown := by
          change ∀ probe ∈ (state.ran ++ [canceller]) ++ rest, _
          rw [moved]
          exact inv.tasksKnown
        aliveNodup := inv.aliveNodup
        linkedNodup := inv.linkedNodup
        tasksNodup := by
          change ((state.ran ++ [canceller]) ++ rest).Nodup
          rw [moved]
          exact inv.tasksNodup
        linkedAlive := inv.linkedAlive
        aliveLinked := inv.aliveLinked
        quiet := fun notCanceled => absurd notCanceled notQuiet
        collected := by
          change _ → ∀ probe ∈ _, _ ∨ probe ∈ (state.ran ++ [canceller]) ++ rest
          rw [moved]
          exact inv.collected
        lateApart := by
          change ∀ probe ∈ _, probe ∉ (state.ran ++ [canceller]) ++ rest
          rw [moved]
          exact inv.lateApart
        settled := by
          intro isReturned
          have noPending := inv.settled isReturned
          rw [tasks] at noPending
          cases noPending }

theorem Inv.complete (inv : Inv state) (canceller : Canceller) :
    Inv (state.complete canceller) :=
  { inv with }

omit [DecidableEq Canceller] in
theorem Inv.finishCancel (inv : Inv state) (canceled : state.source.mCanceled = true)
    (noPending : state.pending = []) : Inv state.finishCancel :=
  { inv with
    linkedNodup := List.nodup_nil
    linkedAlive := by
      intro probe member
      cases member
    aliveLinked := by
      intro impossible
      cases impossible
    quiet := by
      intro notCanceled
      change state.source.mCanceled = false at notCanceled
      rw [canceled] at notCanceled
      cases notCanceled
    settled := fun _ => noPending }

theorem Inv.next (inv : Inv state) (action : Action Canceller) (enabled : Enabled state action) :
    Inv (CancelRuns.next state action) := by
  cases action with
  | construct canceller => exact inv.construct enabled
  | destroy canceller => exact inv.destroy canceller
  | cancel => exact inv.cancel
  | start => exact inv.start
  | complete canceller => exact inv.complete canceller
  | finishCancel => exact inv.finishCancel enabled.1 enabled.2.2.1

end Steps

theorem Inv.after {actions : List (Action Canceller)}
    (runs : (machine Canceller).Runs .initial actions) :
    Inv ((machine Canceller).after .initial actions) :=
  Machine.invariant Inv (fun _ action inv enabled => inv.next action enabled) Inv.initial runs

/-! ### What a completed cancel() has done -/

/-- Once cancel() has completed, every canceller that is alive has had its
doCancel run exactly once if and only if none of them was constructed after
cancel() had been called. -/
theorem alive_ran_once_iff (actions : List (Action Canceller))
    (runs : (machine Canceller).Runs .initial actions)
    (returned : ((machine Canceller).after .initial actions).returned = true) :
    (∀ canceller ∈ ((machine Canceller).after .initial actions).alive,
        ((machine Canceller).after .initial actions).ran.count canceller = 1) ↔
      ∀ canceller ∈ ((machine Canceller).after .initial actions).alive,
        canceller ∉ ((machine Canceller).after .initial actions).late := by
  have inv := Inv.after runs
  generalize (machine Canceller).after .initial actions = state at returned inv ⊢
  have noPending := inv.settled returned
  have canceled : state.source.mCanceled = true := by
    by_contra notCanceled
    have notReturned := (inv.quiet (by simpa using notCanceled)).2.2.2
    rw [returned] at notReturned
    cases notReturned
  have collected := inv.collected canceled
  have lateApart := inv.lateApart
  have distinct := inv.tasksNodup
  rw [noPending, List.append_nil] at distinct
  constructor
  · intro once canceller isAlive isLate
    have apart := lateApart canceller isLate
    rw [noPending, List.append_nil] at apart
    have never := List.count_eq_zero_of_not_mem apart
    rw [once canceller isAlive] at never
    cases never
  · intro noneLate canceller isAlive
    have task := (collected canceller isAlive).resolve_left (noneLate canceller isAlive)
    rw [noPending, List.append_nil] at task
    exact List.count_eq_one_of_mem distinct task

/-- A canceller that is destroyed again, one that is cancelled, and a second call. -/
theorem alive_ran_once_iff_three :
    let actions : List (Action Nat) :=
      [.construct 1, .construct 2, .destroy 1, .cancel, .start, .cancel, .complete 2, .finishCancel]
    (∀ canceller ∈ ((machine Nat).after .initial actions).alive,
        ((machine Nat).after .initial actions).ran.count canceller = 1) ∧
      ((machine Nat).after .initial actions).alive = [2] ∧
      ((machine Nat).after .initial actions).late = [] :=
  ⟨(alive_ran_once_iff _ (by decide) (by decide)).2 (by decide), by decide, by decide⟩

/-- A canceller constructed on a source that is cancelled already never runs. -/
theorem late_canceller_never_runs :
    (machine Nat).Runs .initial [.cancel, .finishCancel, .construct 1] ∧
      ((machine Nat).after .initial [.cancel, .finishCancel, .construct 1]).returned = true ∧
      ¬∀ canceller ∈
          ((machine Nat).after .initial [.cancel, .finishCancel, .construct 1]).alive,
        ((machine Nat).after .initial [.cancel, .finishCancel, .construct 1]).ran.count
          canceller = 1 := by
  decide

/-! ### Whom cancel() runs -/

/-- No canceller is destroyed while its task waits to be started. -/
def KeepsPending (state : State Canceller) (action : Action Canceller) : Prop :=
  ∀ canceller, action = .destroy canceller → canceller ∉ state.pending

instance (state : State Canceller) (action : Action Canceller) :
    Decidable (KeepsPending state action) := by
  cases action with
  | destroy canceller =>
      exact decidable_of_iff (canceller ∉ state.pending)
        ⟨fun absent _ same => Action.destroy.inj same ▸ absent, fun keeps => keeps _ rfl⟩
  | construct _ | cancel | start | complete _ | finishCancel =>
      exact isTrue fun _ impossible => by cases impossible

private theorem pendingAlive_next {state : State Canceller} {action : Action Canceller}
    (inv : Inv state) (pendingAlive : ∀ canceller ∈ state.pending, canceller ∈ state.alive)
    (keeps : KeepsPending state action) :
    ∀ canceller ∈ (next state action).pending, canceller ∈ (next state action).alive := by
  cases action with
  | construct canceller =>
      intro probe member
      exact List.mem_cons_of_mem _ (pendingAlive probe member)
  | destroy canceller =>
      intro probe member
      have other : probe ≠ canceller := by
        intro same
        rw [same] at member
        exact keeps canceller rfl member
      exact (inv.aliveNodup.mem_erase_iff).2 ⟨other, pendingAlive probe member⟩
  | cancel =>
      rcases cancel_cases state with ⟨_, same⟩ | ⟨_, first⟩
      · change ∀ canceller ∈ state.cancel.pending, canceller ∈ state.cancel.alive
        rw [same]
        exact pendingAlive
      · change ∀ canceller ∈ state.cancel.pending, canceller ∈ state.cancel.alive
        rw [first]
        exact inv.linkedAlive
  | start =>
      change ∀ canceller ∈ state.start.pending, canceller ∈ state.start.alive
      unfold State.start
      cases tasks : state.pending with
      | nil => exact pendingAlive
      | cons canceller rest =>
          intro probe member
          apply pendingAlive
          rw [tasks]
          exact List.mem_cons_of_mem _ member
  | complete canceller => exact pendingAlive
  | finishCancel => exact pendingAlive

/-- In every run in which no canceller is destroyed while its task waits to be
started, each task that is started belongs to a canceller that is alive and
linked at that moment and has not been run before. -/
theorem started_alive (actions : List (Action Canceller))
    (runs : (machine Canceller).Runs .initial actions)
    (keeps : (machine Canceller).Along KeepsPending .initial actions)
    (before after : List (Action Canceller)) (split : actions = before ++ .start :: after) :
    ∃ canceller rest, ((machine Canceller).after .initial before).pending = canceller :: rest ∧
      canceller ∈ ((machine Canceller).after .initial before).alive ∧
      canceller ∈ ((machine Canceller).after .initial before).source.mCancellers ∧
      canceller ∉ ((machine Canceller).after .initial before).ran := by
  rw [split] at runs keeps
  obtain ⟨runsBefore, waiting⟩ := runs.step
  obtain ⟨inv, pendingAlive⟩ := Machine.invariant_along
    (fun state : State Canceller =>
      Inv state ∧ ∀ canceller ∈ state.pending, canceller ∈ state.alive)
    (fun state action both enabled kept =>
      ⟨both.1.next action enabled, pendingAlive_next both.1 both.2 kept⟩)
    ⟨Inv.initial, by intro canceller member; cases member⟩ runsBefore keeps.step.1
  change ((machine Canceller).after .initial before).pending ≠ [] at waiting
  generalize (machine Canceller).after .initial before = state at waiting inv pendingAlive ⊢
  cases tasks : state.pending with
  | nil => exact absurd tasks waiting
  | cons canceller rest =>
      have isPending : canceller ∈ state.pending := by
        rw [tasks]
        exact List.mem_cons_self
      have isAlive := pendingAlive canceller isPending
      have notReturned : state.returned = false := by
        by_contra isReturned
        exact waiting (inv.settled (by simpa using isReturned))
      refine ⟨canceller, rest, rfl, isAlive, inv.aliveLinked notReturned canceller isAlive, ?_⟩
      intro already
      exact (List.nodup_append.1 inv.tasksNodup).2.2 canceller already canceller isPending rfl

/-- Canceller 2 destroys itself in its task, canceller 1 is destroyed afterwards. -/
theorem started_alive_two :
    let before : List (Action Nat) :=
      [.construct 1, .construct 2, .cancel, .start, .destroy 2, .complete 2]
    ∃ canceller rest, ((machine Nat).after .initial before).pending = canceller :: rest ∧
      canceller ∈ ((machine Nat).after .initial before).alive ∧
      canceller ∈ ((machine Nat).after .initial before).source.mCancellers ∧
      canceller ∉ ((machine Nat).after .initial before).ran :=
  started_alive
    ([.construct 1, .construct 2, .cancel, .start, .destroy 2, .complete 2] ++
      .start :: [.complete 1, .destroy 1, .finishCancel])
    (by decide) (by decide) _ _ rfl

/-- The task of canceller 2 resumes a coroutine that destroys canceller 1, whose
task is started all the same. -/
theorem destroyed_canceller_is_started :
    ¬∀ actions : List (Action Nat), (machine Nat).Runs .initial actions →
      ∀ before after, actions = before ++ .start :: after →
        ∃ canceller rest, ((machine Nat).after .initial before).pending = canceller :: rest ∧
          canceller ∈ ((machine Nat).after .initial before).alive ∧
          canceller ∈ ((machine Nat).after .initial before).source.mCancellers ∧
          canceller ∉ ((machine Nat).after .initial before).ran := by
  intro claim
  let before : List (Action Nat) :=
    [.construct 1, .construct 2, .cancel, .start, .destroy 2, .destroy 1, .complete 2]
  obtain ⟨canceller, rest, waiting, isAlive, _⟩ :=
    claim (before ++ [.start]) (by decide) before [] rfl
  have noneAlive : ((machine Nat).after .initial before).alive = [] := by decide
  rw [noneAlive] at isAlive
  cases isAlive

/-! ### The intrusive list behind mCancellers -/

section Refinement

variable {Canceller : Type} [DecidableEq Canceller] {list : ListHead Canceller}
  {source : CancelSourceImpl Canceller}

theorem doRegister_linked (holds : list.Holds source.mCancellers) {canceller : Canceller}
    (new : canceller ∉ source.mCancellers) :
    ∃ next, list.doPushFront canceller = .ok next ∧
      next.Holds (source.doRegister canceller).mCancellers := by
  have allowed : (ListHead.Operation.pushFront canceller).Allowed source.mCancellers := new
  exact holds.step allowed (Nat.lt_succ_self _)

theorem eraseFromParent_linked (holds : list.Holds source.mCancellers) (canceller : Canceller) :
    ∃ next, list.eraseFromParent canceller = .ok next ∧
      next.Holds (source.eraseFromParent canceller).mCancellers :=
  holds.eraseFromParent canceller

omit [DecidableEq Canceller] in
theorem doCancel_linked (holds : list.Holds source.mCancellers)
    {next : CancelSourceImpl Canceller} {tasks : List Canceller}
    (starts : source.doCancel = some (next, tasks)) {fuel : Nat} (enough : tasks.length < fuel) :
    list.walk .forward fuel = .ok tasks ∧ list.Holds next.mCancellers := by
  unfold CancelSourceImpl.doCancel at starts
  split at starts
  · cases starts
  · cases starts
    exact ⟨holds.forward enough, holds⟩

theorem doCancelEnd_linked (holds : list.Holds source.mCancellers) {fuel : Nat}
    (enough : source.mCancellers.length < fuel) :
    ∃ next, list.doClear fuel = .ok next ∧ next.Holds source.doCancelEnd.mCancellers :=
  holds.clear enough

end Refinement

end MCoro.CancelRuns
