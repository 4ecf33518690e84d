/-
Semaphore of co_async/generic/semaphore.hpp, under any interleaving of atomic steps.

acquire and release load the counter, wait on it while it stands at their limit and
then exchange it, which may fail spuriously. Their loop goes round as long as the
exchange succeeds. A notification may wake any of the sleepers. `changes` counts the
exchanges of a call that have succeeded.
-/

import MCoro.Library.Futex
import MCoro.Library.Machine

namespace MCoro

structure Semaphore where
  mCounter : UInt32
  mMaxCount : UInt32
  deriving DecidableEq, Repr

namespace Semaphore

inductive Direction where
  | acquire
  | release
  deriving DecidableEq, Repr

def kAcquireMask : UInt32 := 1

def kReleaseMask : UInt32 := 2

namespace Direction

/-- The count with which the inner loop waits. -/
def limit (semaphore : Semaphore) : Direction → UInt32
  | acquire => 0
  | release => semaphore.mMaxCount

def desired (count : UInt32) : Direction → UInt32
  | acquire => count - 1
  | release => count + 1

def waitMask : Direction → UInt32
  | acquire => kAcquireMask
  | release => kReleaseMask

end Direction

/-- compare_exchange: the result, the stored and the expected value afterwards. -/
def compareExchange (stored expected desired : UInt32) : Bool × UInt32 × UInt32 :=
  if stored = expected then (true, desired, expected) else (false, stored, stored)

/-- compare_exchange_weak, which C++ allows to fail although the values are equal. -/
def compareExchangeWeak (spurious : Bool) (stored expected desired : UInt32) :
    Bool × UInt32 × UInt32 :=
  if spurious then (false, stored, stored) else compareExchange stored expected desired

inductive Position where
  | loading
  | exchanging (count : UInt32)
  | waiting
  | notifying
  | succeeded
  | failed
  deriving DecidableEq, Repr

/-- The expected value of the exchange the call is at. -/
def Position.count? : Position → Option UInt32
  | exchanging count => some count
  | _ => none

structure Call where
  direction : Direction
  position : Position
  changes : Nat
  deriving DecidableEq, Repr

structure State where
  semaphore : Semaphore
  known : List Nat
  calls : Nat → Option Call
  waits : Nat → Futex.Wait

inductive Action where
  | call (id : Nat) (direction : Direction)
  | load (id : Nat)
  | exchange (id : Nat) (spurious : Bool)
  /-- The kernel compares the counter for the queued wait. -/
  | compare (id : Nat)
  | cancel (id : Nat)
  | resume (id : Nat)
  | notify (id : Nat) (woken : List Nat)
  deriving DecidableEq, Repr

def State.initial (maxCount initialCount : UInt32) : State :=
  { semaphore :=
      { mCounter := initialCount
        mMaxCount := maxCount }
    known := []
    calls := fun _ => none
    waits := fun _ => .idle }

namespace State

def set (state : State) (id : Nat) (call : Call) : State :=
  { state with calls := Function.update state.calls id (some call) }

def setWait (state : State) (id : Nat) (wait : Futex.Wait) : State :=
  { state with waits := Function.update state.waits id wait }

/-- The head of the loops with this `count`. -/
def round (state : State) (id : Nat) (call : Call) (count : UInt32) : State :=
  if count = call.direction.limit state.semaphore then
    (state.set id { call with position := .waiting }).setWait id
      (.queued count call.direction.waitMask)
  else state.set id { call with position := .exchanging count }

def store (state : State) (counter : UInt32) : State :=
  { state with semaphore := { state.semaphore with mCounter := counter } }

/-- An exchange that succeeds goes round with the same `count`. -/
def exchange (state : State) (id : Nat) (call : Call) (count : UInt32) (spurious : Bool) : State :=
  match compareExchangeWeak spurious state.semaphore.mCounter count
      (call.direction.desired count) with
  | (true, counter, count) =>
      (state.store counter).round id { call with changes := call.changes + 1 } count
  | (false, counter, _) => (state.store counter).set id { call with position := .notifying }

/-- futex_wait ignores EAGAIN; its other errors end the call. -/
def resume (state : State) (id : Nat) (call : Call) : State :=
  match state.waits id with
  | .returned .woken | .returned .again =>
      (state.set id { call with position := .loading }).setWait id .idle
  | .returned .canceled | .returned .invalid =>
      (state.set id { call with position := .failed }).setWait id .idle
  | _ => state

end State

/-- The step of a call at its position. -/
def Ready (state : State) (call : Call) : Action → Prop
  | .call _ _ => False
  | .load _ => call.position = .loading
  | .exchange _ _ => call.position.count?.isSome
  | .compare id => (state.waits id).IsQueued
  | .cancel id => (state.waits id).IsQueued ∨ (state.waits id).IsAsleep
  | .resume id => call.position = .waiting ∧ (state.waits id).HasReturned
  | .notify _ woken =>
      call.position = .notifying ∧ ∀ other ∈ woken, (state.waits other).IsAsleep

instance (state : State) (call : Call) (action : Action) : Decidable (Ready state call action) :=
  match action with
  | .call _ _ => isFalse id
  | .load _ => inferInstanceAs (Decidable (call.position = .loading))
  | .exchange _ _ => inferInstanceAs (Decidable (call.position.count?.isSome = true))
  | .compare id => inferInstanceAs (Decidable (state.waits id).IsQueued)
  | .cancel id =>
      inferInstanceAs (Decidable ((state.waits id).IsQueued ∨ (state.waits id).IsAsleep))
  | .resume id =>
      inferInstanceAs (Decidable (call.position = .waiting ∧ (state.waits id).HasReturned))
  | .notify _ woken =>
      inferInstanceAs (Decidable (call.position = .notifying ∧
        ∀ other ∈ woken, (state.waits other).IsAsleep))

def Action.id : Action → Nat
  | call id _ | load id | exchange id _ | compare id | cancel id | resume id | notify id _ => id

def Enabled (state : State) : Action → Prop
  | .call id _ => id ∉ state.known
  | action => ∃ call ∈ state.calls action.id, Ready state call action

instance (state : State) (action : Action) : Decidable (Enabled state action) :=
  match action with
  | .call id _ => inferInstanceAs (Decidable (id ∉ state.known))
  | .load id | .exchange id _ | .compare id | .cancel id | .resume id | .notify id _ =>
      inferInstanceAs (Decidable (∃ call ∈ state.calls id, Ready state call _))

def next (state : State) (action : Action) : State :=
  match action with
  | .call id direction =>
      { state with known := id :: state.known }.set id
        { direction := direction
          position := .loading
          changes := 0 }
  | .load id => (state.calls id).elim state fun call =>
      state.round id call state.semaphore.mCounter
  | .exchange id spurious => (state.calls id).elim state fun call =>
      call.position.count?.elim state fun count => state.exchange id call count spurious
  | .compare id => state.setWait id ((state.waits id).compare state.semaphore.mCounter)
  | .cancel id => state.setWait id (.returned .canceled)
  | .resume id => (state.calls id).elim state (state.resume id)
  | .notify id woken => (state.calls id).elim state fun call =>
      { state with waits := Futex.wakeEach state.waits woken }.set id
        { call with position := .succeeded }

def machine (maxCount initialCount : UInt32) : Machine State Action :=
  { initial := .initial maxCount initialCount
    Enabled := Enabled
    next := next }

instance (maxCount initialCount : UInt32) (state : State) (action : Action) :
    Decidable ((machine maxCount initialCount).Enabled state action) :=
  inferInstanceAs (Decidable (Enabled state action))

/-- The outcome that the exchange of a call needs: success if it has not succeeded
before, and failure if it has. -/
def RightOutcome (state : State) (call : Call) (spurious : Bool) : Prop :=
  if call.changes = 0 then
    spurious = false ∧ call.position.count? = some state.semaphore.mCounter
  else spurious = true ∨ call.position.count? ≠ some state.semaphore.mCounter

instance (state : State) (call : Call) (spurious : Bool) :
    Decidable (RightOutcome state call spurious) :=
  inferInstanceAs (Decidable (if call.changes = 0 then
      spurious = false ∧ call.position.count? = some state.semaphore.mCounter
    else spurious = true ∨ call.position.count? ≠ some state.semaphore.mCounter))

/-- No first exchange of a call fails, and no exchange succeeds after that. -/
def OneChange (state : State) : Action → Prop
  | .exchange id spurious => ∀ call ∈ state.calls id, RightOutcome state call spurious
  | _ => True

instance (state : State) (action : Action) : Decidable (OneChange state action) :=
  match action with
  | .exchange id spurious =>
      inferInstanceAs (Decidable (∀ call ∈ state.calls id, RightOutcome state call spurious))
  | .call _ _ | .load _ | .compare _ | .cancel _ | .resume _ | .notify _ _ => isTrue trivial

end Semaphore

end MCoro
