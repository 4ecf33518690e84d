/-
CallOnce of co_async/generic/mutex.hpp, under any interleaving of atomic steps.

The steps of mMutex are those of a BasicMutex. A lock attempt that was cancelled
returns an error, and call_once tries again. What the calls return is kept in the
order in which they return.
-/

import MCoro.Generic.Mutex

namespace MCoro

namespace CallOnce

/-- Where a party is in call_once, or with the Locked it was given. -/
inductive Stage where
  | idle
  /-- In the loop, up to the end of a lock attempt. -/
  | locking
  /-- With the mutex, before the second load. -/
  | locked
  /-- To return a Locked that tests false, once the mutex is unlocked. -/
  | leaving
  /-- With a Locked that tests true, or in its destructor. -/
  | holder (ready : Bool)
  deriving DecidableEq, Repr

variable {Party : Type}

structure State (Party : Type) where
  mCalled : Bool
  mMutex : BasicMutex.State Party
  stage : Party → Stage
  returned : List Bool

inductive Action (Party : Type) where
  /-- The first load of mCalled. -/
  | enter (party : Party)
  | mutex (action : BasicMutex.Action Party)
  /-- The load under the lock. -/
  | check (party : Party)
  | setReady (party : Party)

def State.initial : State Party :=
  { mCalled := false
    mMutex := .initial
    stage := fun _ => .idle
    returned := [] }

/-- The Locked of the party tests true. -/
def State.Holds (state : State Party) (party : Party) : Prop :=
  (∃ ready, state.stage party = .holder ready) ∧ state.mMutex.place party = .holding

/-- The steps of the mutex that call_once and the destructor of Locked make. -/
def MayStep (state : State Party) : BasicMutex.Action Party → Prop
  | .tryLock _ => False
  | .lock party => state.stage party = .locking
  | .store party => state.stage party = .leaving ∨ ∃ ready, state.stage party = .holder ready
  | .compare _ | .cancel _ | .resume _ | .wake _ _ => True

def Enabled (state : State Party) : Action Party → Prop
  | .enter party => state.stage party = .idle
  | .mutex action => MayStep state action ∧ BasicMutex.Enabled state.mMutex action
  | .check party => state.stage party = .locked
  | .setReady party => state.Holds party

instance (state : State Party) (party : Party) : Decidable (state.Holds party) :=
  inferInstanceAs (Decidable ((∃ ready, state.stage party = .holder ready) ∧ _))

instance (state : State Party) (action : BasicMutex.Action Party) :
    Decidable (MayStep state action) :=
  match action with
  | .tryLock _ => isFalse id
  | .lock party => inferInstanceAs (Decidable (state.stage party = .locking))
  | .store party =>
      inferInstanceAs
        (Decidable (state.stage party = .leaving ∨ ∃ ready, state.stage party = .holder ready))
  | .compare _ | .cancel _ | .resume _ | .wake _ _ => isTrue trivial

variable [DecidableEq Party]

instance [Fintype Party] (state : State Party) (action : Action Party) :
    Decidable (Enabled state action) :=
  match action with
  | .enter party => inferInstanceAs (Decidable (state.stage party = .idle))
  | .mutex action =>
      inferInstanceAs (Decidable (MayStep state action ∧ BasicMutex.Enabled state.mMutex action))
  | .check party => inferInstanceAs (Decidable (state.stage party = .locked))
  | .setReady party => inferInstanceAs (Decidable (state.Holds party))

/-- What a call returns in this step: whether its Locked tests true. -/
def returns (state : State Party) : Action Party → Option Bool
  | .enter _ => if state.mCalled then some false else none
  | .mutex action =>
      match action with
      | .wake party _ => if state.stage party = .leaving then some false else none
      | _ => none
  | .check _ => if state.mCalled then none else some true
  | .setReady _ => none

def State.setStage (state : State Party) (party : Party) (stage : Stage) : State Party :=
  { state with stage := Function.update state.stage party stage }

/-- Where a step of the mutex leaves the party. -/
def State.settle (state : State Party) : BasicMutex.Action Party → State Party
  | .lock party | .resume party =>
      if state.mMutex.place party = .holding then state.setStage party .locked else state
  | .wake party _ => state.setStage party .idle
  | .tryLock _ | .compare _ | .cancel _ | .store _ => state

def step (state : State Party) : Action Party → State Party
  | .enter party => if state.mCalled then state else state.setStage party .locking
  | .mutex action => { state with mMutex := BasicMutex.next state.mMutex action }.settle action
  | .check party => state.setStage party (if state.mCalled then .leaving else .holder false)
  | .setReady party => { state.setStage party (.holder true) with mCalled := true }

def next (state : State Party) (action : Action Party) : State Party :=
  { step state action with returned := state.returned ++ (returns state action).toList }

def machine (Party : Type) [DecidableEq Party] : Machine (State Party) (Action Party) :=
  { initial := .initial
    Enabled := Enabled
    next := next }

instance [Fintype Party] (state : State Party) (action : Action Party) :
    Decidable ((machine Party).Enabled state action) :=
  inferInstanceAs (Decidable (Enabled state action))

end CallOnce

end MCoro
