/-
when_any and when_any_common of co_async/generic/when_any.hpp.

All tasks share one cancel source, which is registered on the token of the
enclosing task. A task that completes looks whether the source is cancelled; if
not, it cancels it, waits for that call and only then stores its result. In the
meantime anything may happen: other tasks complete, cancellers come and go, the
source is cancelled from outside.
-/

import MCoro.Awaiter.WhenAll
import MCoro.Generic.CancelRuns

namespace MCoro

/-- What the tasks share to store the result in: the two forms of when_any. -/
structure ResultForm (Value Slot : Type) where
  empty : Slot
  emplace : Slot → Nat → Value → Slot
  stored : Slot → Option (Nat × Value)
  stored_empty : stored empty = none
  stored_emplace : ∀ slot index value, stored (emplace slot index value) = some (index, value)

/-- `std::optional<std::variant<...>> result`. -/
def whenAny (Value : Type) : ResultForm Value (Option (Nat × Value)) where
  empty := none
  emplace _ index value := some (index, value)
  stored slot := slot
  stored_empty := rfl
  stored_emplace _ _ _ := rfl

structure CommonSlot (Value : Type) where
  index : Nat
  result : Option Value

/-- `std::size_t index` and `std::optional<Common> result`. -/
def whenAnyCommon (Value : Type) : ResultForm Value (CommonSlot Value) where
  empty :=
    { index := 2 ^ 64 - 1
      result := none }
  emplace _ index value :=
    { index := index
      result := some value }
  stored slot := slot.result.map fun value => (slot.index, value)
  stored_empty := rfl
  stored_emplace _ _ _ := rfl

namespace WhenAny

inductive Phase (Value : Type) where
  | idle
  | running
  /-- Inside `co_await co_cancel.cancel()`, with `res` in the frame. -/
  | cancelling (res : Value)
  | done
  deriving DecidableEq, Repr

inductive Action (Value Canceller : Type) where
  | start (task : Nat)
  | complete (task : Nat) (res : Value)
  | emplace (task : Nat) (res : Value)
  /-- Anything that happens to the shared source by other hands. -/
  | source (action : CancelRuns.Action Canceller)
  deriving DecidableEq, Repr

structure State (Value Slot Canceller : Type) where
  control : WhenAllCtlBlock
  phase : Nat → Phase Value
  source : CancelRuns.State Canceller
  slot : Slot
  resumed : Nat
  /-- The tasks that completed while the source was not cancelled, in order. -/
  winners : List (Nat × Value)
  /-- The tasks that executed result.emplace, in order. -/
  emplaced : List Nat

variable {Value Slot Canceller : Type}

def State.initial (form : ResultForm Value Slot) (tasks : Nat) : State Value Slot Canceller :=
  { control := { mCount := tasks }
    phase := fun _ => .idle
    source := .initial
    slot := form.empty
    resumed := 0
    winners := []
    emplaced := [] }

def State.finish (state : State Value Slot Canceller) (task : Nat) : State Value Slot Canceller :=
  let (control, last) := state.control.finishHelper
  { state with
    control := control
    phase := Function.update state.phase task .done
    resumed := if last then state.resumed + 1 else state.resumed }

/-- The task's own result is there; what follows up to the next suspension. -/
def State.complete (state : State Value Slot Canceller) (task : Nat) (res : Value) :
    State Value Slot Canceller :=
  if state.source.source.doIsCanceled then state.finish task
  else
    { state with
      phase := Function.update state.phase task (.cancelling res)
      source := state.source.cancel
      winners := state.winners ++ [(task, res)] }

/-- cancel() has returned to the task. -/
def State.emplace (form : ResultForm Value Slot) (state : State Value Slot Canceller) (task : Nat)
    (res : Value) : State Value Slot Canceller :=
  { state with
    slot := form.emplace state.slot task res
    emplaced := state.emplaced ++ [task] }.finish task

variable [DecidableEq Canceller]

def Enabled (tasks : Nat) (state : State Value Slot Canceller) : Action Value Canceller → Prop
  | .start task => task < tasks ∧ state.phase task = .idle ∧
      ∀ earlier < task, state.phase earlier ≠ .idle
  | .complete task _ => state.phase task = .running
  | .emplace task res => state.phase task = .cancelling res ∧ state.source.returned = true
  | .source action => CancelRuns.Enabled state.source action

instance [DecidableEq Value] (tasks : Nat) (state : State Value Slot Canceller)
    (action : Action Value Canceller) : Decidable (Enabled tasks state action) := by
  cases action <;> unfold Enabled <;> infer_instance

def next (form : ResultForm Value Slot) (state : State Value Slot Canceller) :
    Action Value Canceller → State Value Slot Canceller
  | .start task => { state with phase := Function.update state.phase task .running }
  | .complete task res => state.complete task res
  | .emplace task res => state.emplace form task res
  | .source action => { state with source := CancelRuns.next state.source action }

def machine (Canceller : Type) [DecidableEq Canceller] (form : ResultForm Value Slot)
    (tasks : Nat) : Machine (State Value Slot Canceller) (Action Value Canceller) :=
  { initial := .initial form tasks
    Enabled := Enabled tasks
    next := next form }

instance [DecidableEq Value] (form : ResultForm Value Slot) (tasks : Nat)
    (state : State Value Slot Canceller) (action : Action Value Canceller) :
    Decidable ((machine Canceller form tasks).Enabled state action) :=
  inferInstanceAs (Decidable (Enabled tasks state action))

/-- By other hands the source is only cancelled when a task has cancelled it. -/
def TaskFirst (state : State Value Slot Canceller) (action : Action Value Canceller) : Prop :=
  action = .source .cancel → state.source.source.mCanceled = true

instance [DecidableEq Value] (state : State Value Slot Canceller)
    (action : Action Value Canceller) : Decidable (TaskFirst state action) :=
  inferInstanceAs (Decidable (_ → _))

/-- `result.value()` throws std::bad_optional_access. -/
inductive BadOptionalAccess where
  | thrown
  deriving DecidableEq, Repr

/-- `result.value()`, with the position that is returned with it. -/
def value (form : ResultForm Value Slot) (slot : Slot) : Except BadOptionalAccess (Nat × Value) :=
  match form.stored slot with
  | some result => .ok result
  | none => .error .thrown

end WhenAny

end MCoro
