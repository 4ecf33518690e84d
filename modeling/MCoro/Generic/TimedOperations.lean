/-
co_timeout around the waiting calls of one queue and one semaphore.

A timed call shares its cancel source with a timer. The kernel posts one result
for each futex wait: 0 when it was woken (or the word had changed already), or
-ECANCELED when the cancellation reached it first. The event loop handles the
timer and the posted results in any order. A call that has done its work may wake any of
those that sleep on its word; `Notifies` says whom futex_notify wakes. `transfers` logs
every call that did its work on the queue or the semaphore.
-/

import MCoro.Generic.Waiting
import MCoro.Library.Machine

namespace MCoro.TimedOperations

variable {T : Type}

inductive Completion where
  | woken
  | canceled
  deriving DecidableEq, Repr

inductive Phase where
  | running
  /-- In futex_wait on a word that had the value `old`; `arrived` when the kernel
  has put it to sleep, `guarded` when the cancellation of the source reaches it. -/
  | waiting (old : UInt32) (arrived guarded : Bool)
  | posted (old : UInt32) (completion : Completion)
  | finished
  deriving DecidableEq, Repr

/-- What the caller of co_timeout, or of the call itself, gets. -/
inductive Report (T : Type) where
  | value (reply : Returned T)
  | operationCanceled
  | streamTimeout
  deriving DecidableEq, Repr

structure Operation (T : Type) where
  request : Request T
  timed : Bool
  phase : Phase
  /-- The timer has completed first and cancelled the shared source. -/
  timedOut : Bool
  report : Option (Report T)
  deriving DecidableEq, Repr

structure Transfer (T : Type) where
  id : Nat
  request : Request T
  reply : Returned T
  deriving DecidableEq, Repr

structure State (T : Type) where
  store : Store T
  known : List Nat
  operations : Nat → Option (Operation T)
  transfers : List (Transfer T)

/-- Where a call notifies, `woken` says whom the kernel chooses. -/
inductive Action (T : Type) where
  | start (id : Nat) (request : Request T) (timed : Bool) (woken : List Nat)
  | arrive (id : Nat)
  | resume (id : Nat) (woken : List Nat)
  | expire (id : Nat)
  | cancelArrive (id : Nat)
  deriving DecidableEq, Repr

def State.initial [Inhabited T] (maxSize : Nat) (initialCount maxCount : UInt32) : State T :=
  { store :=
      { queue :=
          { mQueue := .setMaxSize maxSize
            mReady := { mFutex := 0 } }
        semaphore :=
          { mCounter := initialCount
            mMaxCount := maxCount } }
    known := []
    operations := fun _ => none
    transfers := [] }

def Phase.IsAsleep : Phase → Prop
  | .waiting _ true _ => True
  | _ => False

instance (phase : Phase) : Decidable phase.IsAsleep :=
  match phase with
  | .waiting _ true _ => isTrue trivial
  | .waiting _ false _ | .running | .posted _ _ | .finished => isFalse id

/-- The result 0 of a woken sleeper goes to the ring. -/
def Operation.wake (operation : Operation T) : Operation T :=
  match operation.phase with
  | .waiting old _ _ => { operation with phase := .posted old .woken }
  | .running | .posted _ _ | .finished => operation

namespace State

def set (state : State T) (id : Nat) (operation : Operation T) : State T :=
  { state with operations := Function.update state.operations id (some operation) }

/-- The operation sleeps in the kernel on the word. -/
def Sleeping (state : State T) (word : FutexWord) (id : Nat) : Prop :=
  ∃ operation ∈ state.operations id, operation.request.word = word ∧ operation.phase.IsAsleep

instance (state : State T) (word : FutexWord) (id : Nat) : Decidable (state.Sleeping word id) :=
  inferInstanceAs (Decidable (∃ operation ∈ state.operations id, _ ∧ _))

def wake (state : State T) (woken : List Nat) : State T :=
  { state with
    operations := fun id =>
      if id ∈ woken then (state.operations id).map Operation.wake else state.operations id }

/-- What the caller is told when the call returns `report`. -/
def outcome (operation : Operation T) (report : Report T) : Report T :=
  if operation.timedOut then .streamTimeout else report

def record (state : State T) (store : Store T) (transfer : Transfer T) : State T :=
  { state with
    store := store
    transfers := state.transfers ++ [transfer] }

variable (movedFrom : T → T)

/-- The call tries to do its work; it returns with a reply or waits. -/
def attempt (state : State T) (id : Nat) (operation : Operation T) (woken : List Nat) :
    State T :=
  match operation.request.attempt movedFrom state.store with
  | some (store, reply) =>
      let transfer :=
        { id := id
          request := operation.request
          reply := reply }
      ((state.record store transfer).wake woken).set id
        { operation with
          phase := .finished
          report := some (outcome operation (.value reply)) }
  | none =>
      state.set id
        { operation with
          phase := .waiting (state.store.load operation.request.word) false !operation.timedOut }

def start (state : State T) (id : Nat) (request : Request T) (timed : Bool)
    (woken : List Nat) : State T :=
  let operation : Operation T :=
    { request := request
      timed := timed
      phase := .running
      timedOut := false
      report := none }
  ({ state with known := id :: state.known }.set id operation).attempt movedFrom id operation woken

/-- The kernel compares the word and puts the caller to sleep or returns at once. -/
def arrive (state : State T) (id : Nat) (operation : Operation T) : State T :=
  match operation.phase with
  | .waiting old _ guarded =>
      if state.store.load operation.request.word = old then
        state.set id { operation with phase := .waiting old true guarded }
      else
        state.set id { operation with phase := .posted old .woken }
  | _ => state

/-- ConditionVariable::wait goes back to sleep while its word has not changed. -/
def Spurious (state : State T) (request : Request T) (old : UInt32) : Prop :=
  request.word = .ready ∧ state.store.load .ready = old

instance (state : State T) (request : Request T) (old : UInt32) :
    Decidable (state.Spurious request old) :=
  inferInstanceAs (Decidable (_ ∧ _))

/-- The event loop resumes the call with its posted result. -/
def resume (state : State T) (id : Nat) (operation : Operation T) (woken : List Nat) :
    State T :=
  match operation.phase with
  | .posted _ .canceled =>
      state.set id
        { operation with
          phase := .finished
          report := some (outcome operation .operationCanceled) }
  | .posted old .woken =>
      if state.Spurious operation.request old then
        state.set id { operation with phase := .waiting old false !operation.timedOut }
      else
        state.attempt movedFrom id operation woken
  | _ => state

def cancelArrive (state : State T) (id : Nat) (operation : Operation T) : State T :=
  match operation.phase with
  | .waiting old _ true => state.set id { operation with phase := .posted old .canceled }
  | _ => state

end State

variable (movedFrom : T → T)

/-- The result with which the call is resumed lets it do its work. -/
def Works (state : State T) (operation : Operation T) : Prop :=
  match operation.phase with
  | .posted old .woken =>
      ¬state.Spurious operation.request old ∧
        (operation.request.attempt movedFrom state.store).isSome
  | _ => False

instance (state : State T) (operation : Operation T) :
    Decidable (Works movedFrom state operation) := by
  unfold Works
  split <;> infer_instance

/-- The timer of the call has won, and yet it does its work. -/
def TooLate (state : State T) (operation : Operation T) : Prop :=
  operation.timedOut = true ∧ Works movedFrom state operation

instance (state : State T) (operation : Operation T) :
    Decidable (TooLate movedFrom state operation) :=
  inferInstanceAs (Decidable (_ ∧ _))

def NoLateTransfer (state : State T) : Action T → Prop
  | .resume id _ => ∀ operation ∈ state.operations id, ¬TooLate movedFrom state operation
  | _ => True

instance (state : State T) (action : Action T) :
    Decidable (NoLateTransfer movedFrom state action) := by
  cases action <;> unfold NoLateTransfer <;> infer_instance

/-- The action can be taken by the operation it names. -/
def Ready (state : State T) (operation : Operation T) : Action T → Prop
  | .start _ _ _ _ => False
  | .arrive _ =>
      match operation.phase with
      | .waiting _ false _ => True
      | _ => False
  | .resume _ woken =>
      match operation.phase with
      | .posted _ _ => ∀ other ∈ woken, state.Sleeping operation.request.word other
      | _ => False
  | .expire _ => operation.timed = true ∧ operation.timedOut = false ∧ operation.phase ≠ .finished
  | .cancelArrive _ =>
      operation.timedOut = true ∧
        match operation.phase with
        | .waiting _ _ guarded => guarded = true
        | _ => False

instance (state : State T) (operation : Operation T) (action : Action T) :
    Decidable (Ready state operation action) := by
  cases action with
  | start _ _ _ _ => exact isFalse id
  | arrive id =>
      unfold Ready
      simp only
      split <;> infer_instance
  | resume id woken =>
      unfold Ready
      simp only
      split <;> infer_instance
  | expire id => exact inferInstanceAs (Decidable (_ ∧ _))
  | cancelArrive id =>
      unfold Ready
      simp only
      split <;> infer_instance

def Action.id : Action T → Nat
  | start id _ _ _ | arrive id | resume id _ | expire id | cancelArrive id => id

def Enabled (state : State T) : Action T → Prop
  | .start id request _ woken =>
      id ∉ state.known ∧ ∀ other ∈ woken, state.Sleeping request.word other
  | action =>
      match state.operations action.id with
      | some operation => Ready state operation action
      | none => False

instance (state : State T) (action : Action T) : Decidable (Enabled state action) := by
  cases action <;> unfold Enabled <;> simp only <;>
    first
    | infer_instance
    | (split <;> infer_instance)

theorem found_of_enabled {state : State T} {action : Action T} (enabled : Enabled state action)
    (old : ∀ id request timed woken, action ≠ .start id request timed woken) :
    ∃ operation, state.operations action.id = some operation ∧ Ready state operation action := by
  have ready : match state.operations action.id with
      | some operation => Ready state operation action
      | none => False := by
    cases action with
    | start id request timed woken => exact absurd rfl (old id request timed woken)
    | arrive id | resume id woken | expire id | cancelArrive id => exact enabled
  cases found : state.operations action.id with
  | none =>
      rw [found] at ready
      cases ready
  | some operation =>
      rw [found] at ready
      exact ⟨operation, rfl, ready⟩

def next (state : State T) (action : Action T) : State T :=
  match action with
  | .start id request timed woken => state.start movedFrom id request timed woken
  | .arrive id => (state.operations id).elim state (state.arrive id)
  | .resume id woken => (state.operations id).elim state fun operation =>
      state.resume movedFrom id operation woken
  | .expire id => (state.operations id).elim state fun operation =>
      state.set id { operation with timedOut := true }
  | .cancelArrive id => (state.operations id).elim state (state.cancelArrive id)

def machine [Inhabited T] (maxSize : Nat) (initialCount maxCount : UInt32) :
    Machine (State T) (Action T) :=
  { initial := .initial maxSize initialCount maxCount
    Enabled := Enabled
    next := next movedFrom }

instance [Inhabited T] (maxSize : Nat) (initialCount maxCount : UInt32) (state : State T)
    (action : Action T) :
    Decidable ((machine movedFrom maxSize initialCount maxCount).Enabled state action) :=
  inferInstanceAs (Decidable (Enabled state action))

end MCoro.TimedOperations
