/-
Queue of co_async/generic/queue.hpp on one event loop.

A call runs without interruption up to its next suspension, which is in the wait of
the condition variable. The kernel compares the word of a queued wait at any later
moment, wakes one sleeper for a notification, and posts the results; the event loop
resumes the calls in any order. `notifications` counts the notify_one calls, and
`stamp` is their number when a waiting call loaded the word.
-/

import MCoro.Generic.ConditionVariable
import MCoro.Utils.RingQueue

namespace MCoro

structure Queue (T : Type) where
  mQueue : RingQueue T
  mReady : ConditionVariable

namespace Queue

variable {T : Type}

def kNonEmptyMask : UInt32 := 1

def kNonFullMask : UInt32 := 2

/-- What a call does up to its end or its next suspension, and the mask with which it
calls notify_one. -/
structure Outcome (T Reply : Type) where
  queue : Queue T
  reply : Reply
  notified : Option UInt32

/-- notify_one, as far as the word is concerned. -/
def notifyOne {Reply : Type} (mQueue : RingQueue T) (mReady : ConditionVariable) (reply : Reply)
    (mask : UInt32) : Outcome T Reply :=
  { queue :=
      { mQueue := mQueue
        mReady := mReady.fetchAdd }
    reply := reply
    notified := some mask }

def silent {Reply : Type} (mQueue : RingQueue T) (mReady : ConditionVariable) (reply : Reply) :
    Outcome T Reply :=
  { queue :=
      { mQueue := mQueue
        mReady := mReady }
    reply := reply
    notified := none }

inductive Request (T : Type) where
  | pop
  | push (value : T)
  deriving DecidableEq, Repr

variable (movedFrom : T → T)

def tryPop (queue : Queue T) : Outcome T (Option T) :=
  let wasFull := queue.mQueue.full
  let (mQueue, value) := queue.mQueue.pop movedFrom
  if value.isSome ∧ wasFull then notifyOne mQueue queue.mReady value kNonFullMask
  else silent mQueue queue.mReady value

def tryPush (queue : Queue T) (value : T) : Outcome T Bool :=
  let wasEmpty := queue.mQueue.empty
  let (mQueue, ok, _) := queue.mQueue.push movedFrom value
  if ok ∧ wasEmpty then notifyOne mQueue queue.mReady ok kNonEmptyMask
  else silent mQueue queue.mReady ok

/-- One round of the loops of pop and push, unless the call has to wait. -/
def attempt (queue : Queue T) : Request T → Option (Outcome T (Option T))
  | .pop =>
      let (mQueue, value) := queue.mQueue.pop movedFrom
      if value.isSome then some (notifyOne mQueue queue.mReady value kNonFullMask) else none
  | .push value =>
      let (mQueue, ok, _) := queue.mQueue.push movedFrom value
      if ok then some (notifyOne mQueue queue.mReady none kNonEmptyMask) else none

def Request.waitMask : Request T → UInt32
  | pop => kNonEmptyMask
  | push _ => kNonFullMask

/-! ### The machine -/

inductive Position (T : Type) where
  /-- In `mReady.wait`, with `old` loaded. -/
  | waiting (old : UInt32) (stamp : Nat) (wait : Futex.Wait)
  | returned (reply : Option T)
  | failed
  deriving DecidableEq, Repr

structure Call (T : Type) where
  request : Request T
  position : Position T
  deriving DecidableEq, Repr

def Position.wait : Position T → Futex.Wait
  | .waiting _ _ wait => wait
  | .returned _ | .failed => .idle

structure State (T : Type) where
  queue : Queue T
  notifications : Nat
  known : List Nat
  calls : Nat → Option (Call T)

/-- Where a call notifies, `woken` is the sleeper the kernel chooses. -/
inductive Action (T : Type) where
  | tryPop (woken : Option Nat)
  | tryPush (value : T) (woken : Option Nat)
  | start (id : Nat) (request : Request T) (woken : Option Nat)
  /-- The kernel compares the word for the queued wait. -/
  | compare (id : Nat)
  | cancel (id : Nat)
  | resume (id : Nat) (woken : Option Nat)
  deriving DecidableEq, Repr

def State.initial [Inhabited T] (size : Nat) : State T :=
  { queue :=
      { mQueue := .setMaxSize size
        mReady := { mFutex := 0 } }
    notifications := 0
    known := []
    calls := fun _ => none }

namespace State

def waits (state : State T) (id : Nat) : Futex.Wait :=
  (state.calls id).elim .idle fun call => call.position.wait

def set (state : State T) (id : Nat) (call : Call T) : State T :=
  { state with calls := Function.update state.calls id (some call) }

def setWait (state : State T) (id : Nat) (wait : Futex.Wait) : State T :=
  (state.calls id).elim state fun call =>
    match call.position with
    | .waiting old stamp _ => state.set id { call with position := .waiting old stamp wait }
    | _ => state

/-- The kernel's part of a notification. -/
def wake (state : State T) : Option Nat → State T
  | some id => state.setWait id (.returned .woken)
  | none => state

def apply {Reply : Type} (state : State T) (outcome : Outcome T Reply) (woken : Option Nat) :
    State T :=
  { state with
    queue := outcome.queue
    notifications :=
      if outcome.notified.isSome then state.notifications + 1 else state.notifications }.wake woken

/-- The call goes to wait, with the word it has loaded. -/
def suspend (state : State T) (id : Nat) (request : Request T) (old : UInt32) (stamp : Nat) :
    State T :=
  state.set id
    { request := request
      position := .waiting old stamp (.queued old request.waitMask) }

def attempt (state : State T) (id : Nat) (request : Request T) (woken : Option Nat) : State T :=
  match state.queue.attempt movedFrom request with
  | some outcome =>
      (state.apply outcome woken).set id
        { request := request
          position := .returned outcome.reply }
  | none => state.suspend id request state.queue.mReady.mFutex state.notifications

/-- The wait loop looks at the word again. Only a result that is no error goes on. -/
def resume (state : State T) (id : Nat) (call : Call T) (woken : Option Nat) : State T :=
  match call.position with
  | .waiting old stamp (.returned .woken) | .waiting old stamp (.returned .again) =>
      if state.queue.mReady.mFutex = old then state.suspend id call.request old stamp
      else state.attempt movedFrom id call.request woken
  | .waiting _ _ (.returned _) => state.set id { call with position := .failed }
  | _ => state

/-- The mask with which the resumed call notifies. -/
def resumeNotified (state : State T) (call : Call T) : Option UInt32 :=
  match call.position with
  | .waiting old _ (.returned .woken) | .waiting old _ (.returned .again) =>
      if state.queue.mReady.mFutex = old then none
      else (state.queue.attempt movedFrom call.request).bind Outcome.notified
  | _ => none

/-- The kernel wakes one sleeper that the mask of the notification meets, if there is one. -/
def Notices (state : State T) (notified : Option UInt32) (woken : Option Nat) : Prop :=
  notified.elim (woken = none) fun mask => Futex.WakesAmong state.known state.waits mask woken

instance (state : State T) (notified : Option UInt32) (woken : Option Nat) :
    Decidable (state.Notices notified woken) :=
  match notified with
  | none => inferInstanceAs (Decidable (woken = none))
  | some mask => inferInstanceAs (Decidable (Futex.WakesAmong state.known state.waits mask woken))

end State

def Enabled (state : State T) : Action T → Prop
  | .tryPop woken => state.Notices (state.queue.tryPop movedFrom).notified woken
  | .tryPush value woken => state.Notices (state.queue.tryPush movedFrom value).notified woken
  | .start id request woken =>
      id ∉ state.known ∧
        state.Notices ((state.queue.attempt movedFrom request).bind Outcome.notified) woken
  | .compare id => (state.waits id).IsQueued
  | .cancel id => (state.waits id).IsQueued ∨ (state.waits id).IsAsleep
  | .resume id woken =>
      (state.waits id).HasReturned ∧
        ∀ call ∈ state.calls id, state.Notices (state.resumeNotified movedFrom call) woken

instance (state : State T) (action : Action T) : Decidable (Enabled movedFrom state action) :=
  match action with
  | .tryPop woken =>
      inferInstanceAs (Decidable (state.Notices (state.queue.tryPop movedFrom).notified woken))
  | .tryPush value woken =>
      inferInstanceAs
        (Decidable (state.Notices (state.queue.tryPush movedFrom value).notified woken))
  | .start id request woken =>
      inferInstanceAs (Decidable (id ∉ state.known ∧
        state.Notices ((state.queue.attempt movedFrom request).bind Outcome.notified) woken))
  | .compare id => inferInstanceAs (Decidable (state.waits id).IsQueued)
  | .cancel id =>
      inferInstanceAs (Decidable ((state.waits id).IsQueued ∨ (state.waits id).IsAsleep))
  | .resume id woken =>
      inferInstanceAs (Decidable ((state.waits id).HasReturned ∧
        ∀ call ∈ state.calls id, state.Notices (state.resumeNotified movedFrom call) woken))

def next (state : State T) : Action T → State T
  | .tryPop woken => state.apply (state.queue.tryPop movedFrom) woken
  | .tryPush value woken => state.apply (state.queue.tryPush movedFrom value) woken
  | .start id request woken =>
      { state with known := id :: state.known }.attempt movedFrom id request woken
  | .compare id =>
      state.setWait id ((state.waits id).compare state.queue.mReady.mFutex)
  | .cancel id => state.setWait id (.returned .canceled)
  | .resume id woken => (state.calls id).elim state fun call =>
      state.resume movedFrom id call woken

def machine [Inhabited T] (size : Nat) : Machine (State T) (Action T) :=
  { initial := .initial size
    Enabled := Enabled movedFrom
    next := next movedFrom }

instance [Inhabited T] (size : Nat) (state : State T) (action : Action T) :
    Decidable ((machine movedFrom size).Enabled state action) :=
  inferInstanceAs (Decidable (Enabled movedFrom state action))

end Queue

end MCoro
