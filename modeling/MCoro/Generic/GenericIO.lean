/-
The timer queue of co_async/generic/generic_io.hpp and generic_io.cpp.

A TimerNode is a node of the red-black tree with an expiry and a cancelled flag.
Time points and durations are the 64-bit nanosecond counts of steady_clock. One
iteration of runDuration is one call of `runDurationTurn`; what the resumed
coroutine does happens between two turns.
-/

import MCoro.Utils.RbTreeRuns

namespace MCoro

abbrev TimePoint := Int64

abbrev Duration := Int64

structure GenericIOContext (Ptr : Type) where
  mTimers : RbTree Ptr
  mExpires : Ptr → TimePoint
  mCancelled : Ptr → Bool

/-- What a turn of the loop does: it resumes a timer and goes on, or returns. -/
inductive Turn (Ptr : Type) where
  | resumed (promise : Ptr)
  | returned (remaining : Option Duration)
  deriving DecidableEq, Repr

/-- What `Awaiter::await_resume` tells the sleeping coroutine. -/
inductive SleepResult where
  | success
  | operationCanceled
  deriving DecidableEq, Repr

namespace GenericIOContext

variable {Ptr : Type}

def initial : GenericIOContext Ptr :=
  { mTimers := .empty
    mExpires := fun _ => 0
    mCancelled := fun _ => false }

/-- `TimerNode::operator<`. -/
def less (context : GenericIOContext Ptr) (left right : Ptr) : Prop :=
  context.mExpires left < context.mExpires right

instance (context : GenericIOContext Ptr) : DecidableRel context.less := fun left right =>
  inferInstanceAs (Decidable (context.mExpires left < context.mExpires right))

variable [DecidableEq Ptr]

def enqueueTimerNode (fuel : Nat) (context : GenericIOContext Ptr) (promise : Ptr) :
    Except Fault (GenericIOContext Ptr) := do
  let timers ← context.mTimers.doInsert context.less fuel promise
  return { context with mTimers := timers }

def setExpires (context : GenericIOContext Ptr) (promise : Ptr) (expires : TimePoint) :
    GenericIOContext Ptr :=
  { context with
    mExpires := fun probe => if probe = promise then expires else context.mExpires probe }

def setCancelled (context : GenericIOContext Ptr) (promise : Ptr) (cancelled : Bool) :
    GenericIOContext Ptr :=
  { context with
    mCancelled := fun probe => if probe = promise then cancelled else context.mCancelled probe }

/-- `Awaiter::await_suspend`. -/
def awaitSuspend (fuel : Nat) (context : GenericIOContext Ptr) (promise : Ptr)
    (expires : TimePoint) : Except Fault (GenericIOContext Ptr) :=
  (context.setExpires promise expires).enqueueTimerNode fuel promise

def awaitResume (context : GenericIOContext Ptr) (promise : Ptr) : SleepResult :=
  if context.mCancelled promise then .operationCanceled else .success

def eraseTimer (fuel : Nat) (context : GenericIOContext Ptr) (promise : Ptr) :
    Except Fault (GenericIOContext Ptr) := do
  let timers ← context.mTimers.eraseFromParent fuel promise
  return { context with mTimers := timers }

/-- `TimerNode::doCancel`. -/
def doCancel (fuel : Nat) (context : GenericIOContext Ptr) (promise : Ptr) :
    Except Fault (GenericIOContext Ptr) :=
  (context.setCancelled promise true).eraseTimer fuel promise

/-- One iteration of runDuration; `now` is what steady_clock answers in it. -/
def runDurationTurn (fuel : Nat) (context : GenericIOContext Ptr) (now : TimePoint) :
    Except Fault (GenericIOContext Ptr × Turn Ptr) :=
  if context.mTimers.isEmpty then
    .ok (context, .returned none)
  else do
    let promise ← context.mTimers.getFront fuel
    if context.mExpires promise ≤ now then
      let context ← (context.setCancelled promise false).eraseTimer fuel promise
      return (context, .resumed promise)
    else
      return (context, .returned (some (context.mExpires promise - now)))

/-! ### The three kinds of turns -/

variable {context : GenericIOContext Ptr}

theorem runDurationTurn_idle (empty : context.mTimers.isEmpty = true) (fuel : Nat)
    (now : TimePoint) : context.runDurationTurn fuel now = .ok (context, .returned none) := by
  unfold runDurationTurn
  rw [if_pos empty]

theorem runDurationTurn_fires (notEmpty : ¬context.mTimers.isEmpty = true) {fuel : Nat}
    {front : Ptr} (found : context.mTimers.getFront fuel = .ok front) {now : TimePoint}
    (due : context.mExpires front ≤ now) {timers : RbTree Ptr}
    (erased : context.mTimers.eraseFromParent fuel front = .ok timers) :
    context.runDurationTurn fuel now =
      .ok ({ context.setCancelled front false with mTimers := timers }, .resumed front) := by
  rw [runDurationTurn, if_neg notEmpty, found]
  change (if context.mExpires front ≤ now then _ else _) = _
  rw [if_pos due]
  change ((context.mTimers.eraseFromParent fuel front).bind _).bind _ = _
  rw [erased]
  rfl

theorem runDurationTurn_sleeps (notEmpty : ¬context.mTimers.isEmpty = true) {fuel : Nat}
    {front : Ptr} (found : context.mTimers.getFront fuel = .ok front) {now : TimePoint}
    (later : ¬context.mExpires front ≤ now) :
    context.runDurationTurn fuel now =
      .ok (context, .returned (some (context.mExpires front - now))) := by
  rw [runDurationTurn, if_neg notEmpty, found]
  exact if_neg later

end GenericIOContext

end MCoro
