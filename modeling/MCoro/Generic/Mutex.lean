/-
BasicMutex of co_async/generic/mutex.hpp, under any interleaving of atomic steps.

A party is a coroutine, on any thread. lock exchanges the word and waits on the
futex as long as it finds it taken; unlock stores false and then, as another step,
wakes one sleeper. A wait can be cancelled as long as it has not returned.
-/

import MCoro.Library.Futex
import MCoro.Library.Machine

namespace MCoro

structure BasicMutex where
  mFutex : UInt32
  deriving DecidableEq, Repr

namespace BasicMutex

/-- `mFutex.exchange(true)`, and the old value as a bool. -/
def exchange (mutex : BasicMutex) : BasicMutex × Bool :=
  ({ mFutex := 1 }, mutex.mFutex ≠ 0)

/-- What try_lock returns, and where the loop of lock is left. -/
def tryLock (mutex : BasicMutex) : BasicMutex × Bool :=
  (mutex.exchange.1, mutex.exchange.2 = false)

/-- `mFutex.store(false)` in unlock. -/
def store (_ : BasicMutex) : BasicMutex :=
  { mFutex := 0 }

inductive Place where
  | outside
  | waiting
  | holding
  /-- In unlock, between the store and the wake. -/
  | unlocking
  deriving DecidableEq, Repr

variable {Party : Type}

structure State (Party : Type) where
  mutex : BasicMutex
  place : Party → Place
  waits : Party → Futex.Wait

/-- Where a party wakes a sleeper, `woken` says which one the kernel chose. -/
inductive Action (Party : Type) where
  | tryLock (party : Party)
  | lock (party : Party)
  /-- The kernel compares the word for the queued wait. -/
  | compare (party : Party)
  | cancel (party : Party)
  /-- The event loop resumes the party with the result of its wait. -/
  | resume (party : Party)
  | store (party : Party)
  | wake (party : Party) (woken : Option Party)

def State.initial : State Party :=
  { mutex := { mFutex := 0 }
    place := fun _ => .outside
    waits := fun _ => .idle }

variable [DecidableEq Party]

namespace State

def move (state : State Party) (party : Party) (place : Place) (wait : Futex.Wait) : State Party :=
  { state with
    place := Function.update state.place party place
    waits := Function.update state.waits party wait }

def setWait (state : State Party) (party : Party) (wait : Futex.Wait) : State Party :=
  { state with waits := Function.update state.waits party wait }

def tryLock (state : State Party) (party : Party) : State Party :=
  { state with mutex := state.mutex.tryLock.1 }.move party
    (if state.mutex.tryLock.2 then .holding else .outside) .idle

/-- One round of the loop of lock; the value waited on is the bool `old`, which is true. -/
def lockRound (state : State Party) (party : Party) : State Party :=
  if state.mutex.tryLock.2 then
    { state with mutex := state.mutex.tryLock.1 }.move party .holding .idle
  else
    { state with mutex := state.mutex.tryLock.1 }.move party .waiting (.queued 1 Futex.matchAny)

/-- futex_wait ignores EAGAIN; its other errors end lock. -/
def resume (state : State Party) (party : Party) : State Party :=
  match state.waits party with
  | .returned .woken | .returned .again => state.lockRound party
  | .returned .canceled | .returned .invalid => state.move party .outside .idle
  | _ => state

end State

def Enabled (state : State Party) : Action Party → Prop
  | .tryLock party | .lock party => state.place party = .outside
  | .compare party => (state.waits party).IsQueued
  | .cancel party => (state.waits party).IsQueued ∨ (state.waits party).IsAsleep
  | .resume party => (state.waits party).HasReturned
  | .store party => state.place party = .holding
  | .wake party woken =>
      state.place party = .unlocking ∧ Futex.WakesOne state.waits Futex.matchAny woken

instance [Fintype Party] (state : State Party) (action : Action Party) :
    Decidable (Enabled state action) :=
  match action with
  | .tryLock party | .lock party => inferInstanceAs (Decidable (state.place party = .outside))
  | .compare party => inferInstanceAs (Decidable (state.waits party).IsQueued)
  | .cancel party =>
      inferInstanceAs (Decidable ((state.waits party).IsQueued ∨ (state.waits party).IsAsleep))
  | .resume party => inferInstanceAs (Decidable (state.waits party).HasReturned)
  | .store party => inferInstanceAs (Decidable (state.place party = .holding))
  | .wake party woken =>
      inferInstanceAs (Decidable (state.place party = .unlocking ∧
        Futex.WakesOne state.waits Futex.matchAny woken))

def next (state : State Party) : Action Party → State Party
  | .tryLock party => state.tryLock party
  | .lock party => state.lockRound party
  | .compare party => state.setWait party ((state.waits party).compare state.mutex.mFutex)
  | .cancel party => state.setWait party (.returned .canceled)
  | .resume party => state.resume party
  | .store party =>
      { state with
        mutex := state.mutex.store
        place := Function.update state.place party .unlocking }
  | .wake party woken =>
      { state with
        place := Function.update state.place party .outside
        waits := Futex.wakeOne state.waits woken }

def machine (Party : Type) [DecidableEq Party] : Machine (State Party) (Action Party) :=
  { initial := .initial
    Enabled := Enabled
    next := next }

instance [Fintype Party] (state : State Party) (action : Action Party) :
    Decidable ((machine Party).Enabled state action) :=
  inferInstanceAs (Decidable (Enabled state action))

end BasicMutex

end MCoro
