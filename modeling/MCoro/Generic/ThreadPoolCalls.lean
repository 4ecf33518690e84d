/-
rawRun of co_async/generic/thread_pool.cpp in its two forms, and run of thread_pool.hpp
for a function without a stop token, which awaits the first.

The coroutine that calls one of them is on an event loop; the lambda that it submits runs
on a thread of the pool; between them is the futex `ready`. A step is one atomic access or
the code between two of them. The coroutines are on one event loop, so of their steps only
those of the running one can be taken; another coroutine of the loop cancels a token or
starts a call while none of them runs. Each job is one call.

The futex calls are those of a kernel that has them all or, where `supported` is false,
none of them. Not in the model: the run for a function with a stop token, which calls
rawRun without the token that it takes and so is no code.
-/

import MCoro.Generic.ThreadPool
import MCoro.Library.Futex
import MCoro.Platform.FutexNotify

namespace MCoro.RawRun

open FutexNotify (FutexKernel futexNotifySync futexNotifyAll)

variable {Job Token Value Exception : Type}

inductive Form (Token : Type) where
  | run
  | rawRun
  /-- rawRun with a token, which can be the empty one. -/
  | rawRunCancel (cancel : Option Token)
  deriving DecidableEq, Repr

structure Setting (Job Token : Type) where
  form : Job → Form Token
  /-- The token that `co_await co_cancel` gives in the futex_wait of the call. -/
  coCancel : Job → Option Token
  kernel : FutexKernel Job
  supported : Bool

inductive Outcome (Value Exception : Type) where
  | threw (exception : Exception)
  | operationCanceled
  /-- `co_return {}` of rawRun. -/
  | done
  | value (value : Value)
  deriving DecidableEq, Repr

inductive Place (Value Exception : Type) where
  | outside
  | submitting
  /-- About to load `ready`. -/
  | checking
  /-- In `futex_wait(ready.get(), false)`. -/
  | waiting (wait : Futex.Wait)
  | returned (outcome : Outcome Value Exception)
  deriving DecidableEq, Repr

namespace Place

/-- The wait is submitted, and the kernel has not got to it. -/
def IsQueued : Place Value Exception → Prop
  | .waiting (.queued _ _) => True
  | _ => False

/-- The result of the wait is in the ring. -/
def IsPosted : Place Value Exception → Prop
  | .waiting (.returned _) => True
  | _ => False

instance (place : Place Value Exception) : Decidable place.IsQueued :=
  match place with
  | .waiting (.queued _ _) => isTrue trivial
  | .waiting .idle | .waiting (.asleep _) | .waiting (.returned _) => isFalse id
  | .outside | .submitting | .checking | .returned _ => isFalse id

instance (place : Place Value Exception) : Decidable place.IsPosted :=
  match place with
  | .waiting (.returned _) => isTrue trivial
  | .waiting .idle | .waiting (.asleep _) | .waiting (.queued _ _) => isFalse id
  | .outside | .submitting | .checking | .returned _ => isFalse id

end Place

inductive Lambda (Exception : Type) where
  | uncalled
  | calling
  /-- In the handler, about to set `ep`. -/
  | caught (exception : Exception)
  /-- About to store to `ready`. -/
  | storing
  | notifying
  | ended
  deriving DecidableEq, Repr

/-- A call: the locals of the coroutine, and its lambda. -/
structure Call (Value Exception : Type) where
  place : Place Value Exception
  lambda : Lambda Exception
  ready : UInt32
  ep : Option Exception
  stopped : Bool
  /-- `stop.stop_requested()`. -/
  stop : Bool
  /-- `res` of run. -/
  res : Option Value
  /-- The cancelGuard of the futex wait has submitted an IORING_OP_ASYNC_CANCEL. -/
  canceling : Bool
  deriving DecidableEq, Repr

namespace Call

variable (call : Call Value Exception)

def initial : Call Value Exception :=
  { place := .outside
    lambda := .uncalled
    ready := 0
    ep := none
    stopped := false
    stop := false
    res := none
    canceling := false }

/-- What comes after the loop: rethrow_exception, the look at `stopped`, and for run the
look at `res`. -/
def outcome (form : Form Token) : Outcome Value Exception :=
  match call.ep with
  | some exception => .threw exception
  | none =>
      match form with
      | .run =>
          match call.res with
          | none => .operationCanceled
          | some value => .value value
      | .rawRun => .done
      | .rawRunCancel _ => if call.stopped then .operationCanceled else .done

/-- The condition of the loop, and what follows it. -/
def check (form : Form Token) : Call Value Exception :=
  if call.ready = 0 then { call with place := .waiting (.queued 0 Futex.matchAny) }
  else { call with place := .returned (call.outcome form) }

/-- The kernel gets to a submitted wait. -/
def compare (supported : Bool) (wait : Futex.Wait) : Call Value Exception :=
  { call with
    place := .waiting (if supported then wait.compare call.ready else .returned .invalid) }

/-- The kernel gets to a submitted cancellation. -/
def cancelWait : Call Value Exception :=
  match call.place with
  | .waiting (.queued _ _) | .waiting (.asleep _) =>
      { call with place := .waiting (.returned .canceled), canceling := false }
  | _ => { call with canceling := false }

/-- Func returns; run puts the value into `res`. -/
def funcReturns (form : Form Token) (value : Value) : Call Value Exception :=
  { call with
    lambda := .storing
    res :=
      match form with
      | .run => some value
      | _ => call.res }

def handle (exception : Exception) : Call Value Exception :=
  { call with lambda := .storing, ep := some exception }

def store : Call Value Exception :=
  { call with lambda := .notifying, ready := 1 }

/-- Nobody but the coroutine waits on `ready`. -/
def notify (kernel : FutexKernel Job) (supported : Bool) (job : Job) : Call Value Exception :=
  match call.place with
  | .waiting (.asleep mask) =>
      match (futexNotifySync kernel supported [⟨job, mask⟩] futexNotifyAll Futex.matchAny).2 with
      | [] => { call with lambda := .ended }
      | _ :: _ => { call with lambda := .ended, place := .waiting (.returned .woken) }
  | _ => { call with lambda := .ended }

/-- Both cancellers exist while the coroutine waits: the CancelCallback of rawRun, if its
token is this one, and the one of cancelGuard. -/
def canceled [DecidableEq Token] (form : Form Token) (coCancel : Option Token) (token : Token) :
    Call Value Exception :=
  match call.place with
  | .waiting _ =>
      let own := decide (form = .rawRunCancel (some token))
      { call with
        stopped := call.stopped || own
        stop := call.stop || own
        canceling := call.canceling || decide (coCancel = some token) }
  | _ => call

end Call

structure State (Job Token Value Exception : Type) where
  pool : ThreadPool.State Job
  call : Job → Call Value Exception
  mCanceled : Token → Bool
  running : Option Job
  calls : List Job

inductive Action (Job Token Value Exception : Type) where
  | start (job : Job)
  /-- A step of submitJob or of startMain. -/
  | pool (action : ThreadPool.Action Job)
  | submitted (job : Job)
  | check (job : Job)
  | compare (job : Job)
  | cancelWait (job : Job)
  | resume (job : Job)
  | funcReturns (job : Job) (value : Value)
  | funcThrows (job : Job) (exception : Exception)
  | handle (job : Job) (exception : Exception)
  | store (job : Job)
  | notify (job : Job)
  /-- `cancel()` of a source. -/
  | cancel (token : Token)

/-- What the environment does: the rest are steps of the calls. -/
def Action.External : Action Job Token Value Exception → Prop
  | .start _ | .cancel _ => True
  | _ => False

instance (action : Action Job Token Value Exception) : Decidable action.External :=
  match action with
  | .start _ | .cancel _ => isTrue trivial
  | .pool _ | .submitted _ | .check _ | .compare _ | .cancelWait _ | .resume _
  | .funcReturns _ _ | .funcThrows _ _ | .handle _ _ | .store _ | .notify _ => isFalse id

namespace State

def initial : State Job Token Value Exception :=
  { pool := .initial
    call := fun _ => .initial
    mCanceled := fun _ => false
    running := none
    calls := [] }

variable [DecidableEq Job] (state : State Job Token Value Exception)

def set (job : Job) (call : Call Value Exception) : State Job Token Value Exception :=
  { state with call := Function.update state.call job call }

def start (job : Job) : State Job Token Value Exception :=
  { state.set job { state.call job with place := .submitting } with
    running := some job
    calls := job :: state.calls }

/-- A thread that takes its task calls the lambda. -/
def poolStep (action : ThreadPool.Action Job) : State Job Token Value Exception :=
  let stepped := { state with pool := ThreadPool.next state.pool action }
  match action with
  | .take _ task => stepped.set task { state.call task with lambda := .calling }
  | _ => stepped

def check (form : Form Token) (job : Job) : State Job Token Value Exception :=
  { state.set job ((state.call job).check form) with running := none }

def compare (supported : Bool) (job : Job) : State Job Token Value Exception :=
  match (state.call job).place with
  | .waiting wait => state.set job ((state.call job).compare supported wait)
  | _ => state

def resume (job : Job) : State Job Token Value Exception :=
  { state.set job { state.call job with place := .checking } with running := some job }

omit [DecidableEq Job] in
/-- The second cancellation of a source does nothing. -/
def cancel [DecidableEq Token] (setting : Setting Job Token) (token : Token) :
    State Job Token Value Exception :=
  if state.mCanceled token then state
  else
    { state with
      mCanceled := Function.update state.mCanceled token true
      call := fun job =>
        (state.call job).canceled (setting.form job) (setting.coCancel job) token }

end State

def Submitted : ThreadPool.Call → Prop
  | .returned _ => True
  | _ => False

/-- Which steps of the pool can be taken: those of submitJob by the running coroutine, and
the end of a task once its lambda has ended. -/
def PoolStep (state : State Job Token Value Exception) : ThreadPool.Action Job → Prop
  | .submit job | .emplace job | .workOn job _ | .register job _ =>
      (state.call job).place = .submitting
  | .finish _ task => (state.call task).lambda = .ended
  | .take _ _ | .reset _ _ | .remove _ _ | .free _ | .unlock _ => True

def Enabled (state : State Job Token Value Exception) :
    Action Job Token Value Exception → Prop
  | .start job => (state.call job).place = .outside ∧ state.running = none
  | .pool action => PoolStep state action ∧ ThreadPool.Enabled state.pool action
  | .submitted job =>
      (state.call job).place = .submitting ∧ Submitted (state.pool.call job)
  | .check job => (state.call job).place = .checking
  | .compare job => (state.call job).place.IsQueued
  | .cancelWait job => (state.call job).canceling = true
  | .resume job => state.running = none ∧ (state.call job).place.IsPosted
  | .funcReturns job _ => (state.call job).lambda = .calling
  | .funcThrows job _ => (state.call job).lambda = .calling
  | .handle job exception => (state.call job).lambda = .caught exception
  | .store job => (state.call job).lambda = .storing
  | .notify job => (state.call job).lambda = .notifying
  | .cancel _ => state.running = none

instance (call : ThreadPool.Call) : Decidable (Submitted call) :=
  match call with
  | .returned _ => isTrue trivial
  | .outside | .emplacing | .assigning _ | .registering _ => isFalse id

variable [DecidableEq Job] [DecidableEq Token]

def next (setting : Setting Job Token) (state : State Job Token Value Exception) :
    Action Job Token Value Exception → State Job Token Value Exception
  | .start job => state.start job
  | .pool action => state.poolStep action
  | .submitted job => state.set job { state.call job with place := .checking }
  | .check job => state.check (setting.form job) job
  | .compare job => state.compare setting.supported job
  | .cancelWait job => state.set job (state.call job).cancelWait
  | .resume job => state.resume job
  | .funcReturns job value =>
      state.set job ((state.call job).funcReturns (setting.form job) value)
  | .funcThrows job exception => state.set job { state.call job with lambda := .caught exception }
  | .handle job exception => state.set job ((state.call job).handle exception)
  | .store job => state.set job (state.call job).store
  | .notify job =>
      state.set job ((state.call job).notify setting.kernel setting.supported job)
  | .cancel token => state.cancel setting token

section Decidability

variable [DecidableEq Value] [DecidableEq Exception]

instance (state : State Job Token Value Exception) (action : ThreadPool.Action Job) :
    Decidable (PoolStep state action) :=
  match action with
  | .submit job | .emplace job | .workOn job _ | .register job _ =>
      inferInstanceAs (Decidable ((state.call job).place = .submitting))
  | .finish _ task => inferInstanceAs (Decidable ((state.call task).lambda = .ended))
  | .take _ _ | .reset _ _ | .remove _ _ | .free _ | .unlock _ => isTrue trivial

instance (state : State Job Token Value Exception) (action : Action Job Token Value Exception) :
    Decidable (Enabled state action) :=
  match action with
  | .start job => inferInstanceAs (Decidable ((state.call job).place = .outside ∧ _))
  | .pool action =>
      inferInstanceAs (Decidable (PoolStep state action ∧ ThreadPool.Enabled state.pool action))
  | .submitted job =>
      inferInstanceAs
        (Decidable ((state.call job).place = .submitting ∧ Submitted (state.pool.call job)))
  | .check job => inferInstanceAs (Decidable ((state.call job).place = .checking))
  | .compare job => inferInstanceAs (Decidable (state.call job).place.IsQueued)
  | .cancelWait job => inferInstanceAs (Decidable ((state.call job).canceling = true))
  | .resume job =>
      inferInstanceAs (Decidable (state.running = none ∧ (state.call job).place.IsPosted))
  | .funcReturns job _ | .funcThrows job _ =>
      inferInstanceAs (Decidable ((state.call job).lambda = .calling))
  | .handle job exception =>
      inferInstanceAs (Decidable ((state.call job).lambda = .caught exception))
  | .store job => inferInstanceAs (Decidable ((state.call job).lambda = .storing))
  | .notify job => inferInstanceAs (Decidable ((state.call job).lambda = .notifying))
  | .cancel _ => inferInstanceAs (Decidable (state.running = none))

end Decidability

def machine (Value Exception : Type) (setting : Setting Job Token) :
    Machine (State Job Token Value Exception) (Action Job Token Value Exception) :=
  { initial := .initial
    Enabled := Enabled
    next := next setting }

instance [DecidableEq Value] [DecidableEq Exception] (setting : Setting Job Token)
    (state : State Job Token Value Exception) (action : Action Job Token Value Exception) :
    Decidable ((machine Value Exception setting).Enabled state action) :=
  inferInstanceAs (Decidable (Enabled state action))

end MCoro.RawRun
