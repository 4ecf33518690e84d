/-
Coroutines at run time: Task, TaskPromise, the awaiters and the await_transform of an
Expected of co_async/awaiter/task.hpp, ValueOrReturnAwaiter of details/value_awaiter.hpp,
IgnoreReturnPromise and AutoDestroyFinalAwaiter of details/ignore_return_promise.hpp,
and coSpawnStarter and co_spawn of co_async/generic/generic_io.hpp.

A body is what a coroutine does from one suspension point to the next. A loop of the
source stands for its unrolling, of which a run sees a finite part. `mLocals` and the
allocator of a task have modules of their own.
-/

import MCoro.Library.Resumptions
import MCoro.Utils.Expected

namespace MCoro.Tasks

abbrev Handle := Nat

/-- GeneratorResult: a co_yield or the co_return. -/
inductive GeneratorResult (T E : Type) where
  | value (yielded : T)
  | result (returned : E)

inductive Outcome (Value Exception : Type) where
  | yielded (value : Value)
  | returned (result : Expected Value)
  | threw (exception : Exception)
  deriving DecidableEq, Repr

inductive Body (Value Exception Operation Answer Memory : Type) where
  | coReturn (result : Expected Value)
  | throw (exception : Exception)
  | coYield (value : Value) (next : Body Value Exception Operation Answer Memory)
  | coAwaitExpected (expected : Expected Value)
      (next : Value → Body Value Exception Operation Answer Memory)
  /-- co_await of an awaiter whose coroutine the event loop resumes. -/
  | coAwaitOperation (operation : Operation)
      (next : Answer → Body Value Exception Operation Answer Memory)
  | access (change : Memory → Memory × Answer)
      (next : Answer → Body Value Exception Operation Answer Memory)
  | coSpawn (task next : Body Value Exception Operation Answer Memory)
  /-- co_spawn of the handle of a coroutine that waits for an answer. -/
  | resume (pick : Memory → List Operation → Option (Nat × Answer))
      (next : Body Value Exception Operation Answer Memory)
  /-- co_await of the task that a call gives; `checked` is a co_await of its value in
  the same full expression. -/
  | coAwait (checked : Bool) (callee : Body Value Exception Operation Answer Memory)
      (next : Outcome Value Exception → Body Value Exception Operation Answer Memory)
  | bindTask (callee next : Body Value Exception Operation Answer Memory)
  /-- co_await of a Task variable, or of std::move of it; the latest has index 0. -/
  | coAwaitTask (checked : Bool) (index : Nat) (moved : Bool)
      (next : Outcome Value Exception → Body Value Exception Operation Answer Memory)
  | endScope (next : Body Value Exception Operation Answer Memory)

variable {Value Exception Operation Answer Memory : Type}

/-! ### Awaiters and frames -/

/-- TaskAwaiter, the temporary of a co_await. -/
structure TaskAwaiter (Value Exception : Type) where
  mCallerCoroutine : Option Handle := none
  mCalleeCoroutine : Handle
  mResult : Option (GeneratorResult Value (Expected Value)) := none
  mException : Option Exception := none
  /-- It is a TaskOwnedAwaiter, which destroys the callee. -/
  owned : Bool

namespace TaskAwaiter

def awaitReady (awaiter : TaskAwaiter Value Exception) : Bool :=
  awaiter.mException.isSome || awaiter.mResult.isSome

def awaitSuspend (awaiter : TaskAwaiter Value Exception) (coroutine : Handle) :
    TaskAwaiter Value Exception :=
  { awaiter with mCallerCoroutine := some coroutine }

/-- await_resume, with none for the value of an empty optional. -/
def awaitResume (awaiter : TaskAwaiter Value Exception) : Option (Outcome Value Exception) :=
  match awaiter.mException, awaiter.mResult with
  | some exception, _ => some (.threw exception)
  | none, some (.value value) => some (.yielded value)
  | none, some (.result result) => some (.returned result)
  | none, none => none

def returnValue (result : Expected Value) (awaiter : TaskAwaiter Value Exception) :
    TaskAwaiter Value Exception :=
  { awaiter with mResult := some (.result result) }

def yieldValue (value : Value) (awaiter : TaskAwaiter Value Exception) :
    TaskAwaiter Value Exception :=
  { awaiter with mResult := some (.value value) }

def unhandledException (exception : Exception) (awaiter : TaskAwaiter Value Exception) :
    TaskAwaiter Value Exception :=
  { awaiter with mException := some exception }

def holds (awaiter : TaskAwaiter Value Exception) : List (Option Handle) :=
  if awaiter.owned then [some awaiter.mCalleeCoroutine] else []

end TaskAwaiter

inductive Point (Value Exception Operation Answer Memory : Type) where
  /-- It goes on with this: it runs, or it stands at its initial_suspend or a co_yield. -/
  | code (body : Body Value Exception Operation Answer Memory)
  | awaiting (checked : Bool)
      (next : Outcome Value Exception → Body Value Exception Operation Answer Memory)
  | operating (next : Answer → Body Value Exception Operation Answer Memory)
  /-- At a co_await of an error, which has returned it to the caller. -/
  | returned
  | final

structure Frame (Value Exception Operation Answer Memory : Type) where
  /-- The promise is an IgnoreReturnPromise<AutoDestroyFinalAwaiter>. -/
  spawned : Bool
  /-- The frame with the awaiter that `promise().mAwaiter` points to. -/
  mAwaiter : Option Handle
  point : Point Value Exception Operation Answer Memory
  awaiter : Option (TaskAwaiter Value Exception)
  /-- `mCoroutine` of its Task variables, the latest first. -/
  tasks : List (Option Handle)

namespace Frame

/-- The frame of a coroutine that has been called, at its initial_suspend. -/
def initial (body : Body Value Exception Operation Answer Memory) :
    Frame Value Exception Operation Answer Memory :=
  { spawned := false, mAwaiter := none, point := .code body, awaiter := none, tasks := [] }

/-- What its temporary and its variables destroy. -/
def holds (frame : Frame Value Exception Operation Answer Memory) : List (Option Handle) :=
  match frame.awaiter with
  | none => frame.tasks
  | some awaiter => awaiter.holds ++ frame.tasks

end Frame

inductive Fault where
  | destroyedFrame
  | nullAwaiter
  | danglingAwaiter
  | nullCoroutine
  | nullTask
  | emptyResult
  /-- A frame is resumed where it does not wait to be. -/
  | notSuspended
  | endlessDestruction
  deriving DecidableEq, Repr

abbrev Frames (Value Exception Operation Answer Memory : Type) :=
  Handle → Option (Frame Value Exception Operation Answer Memory)

/-- `destroy()` of the coroutines; their own temporaries and variables go with them. -/
def destroy : Nat → Frames Value Exception Operation Answer Memory → List Handle →
    Except Fault (Frames Value Exception Operation Answer Memory)
  | _, frames, [] => .ok frames
  | 0, _, _ :: _ => .error .endlessDestruction
  | fuel + 1, frames, coroutine :: rest =>
      match frames coroutine with
      | none => .error .destroyedFrame
      | some frame =>
          destroy fuel (Function.update frames coroutine none)
            (frame.holds.filterMap id ++ rest)

/-! ### The run time -/

structure Runtime (Value Exception Operation Answer Memory : Type) where
  memory : Memory
  frames : Frames Value Exception Operation Answer Memory
  /-- The handles below this one have been used. -/
  allocated : Handle
  /-- The coroutines whose resume() has not returned, the running one first. -/
  active : List Handle
  /-- The coroutines that wait for an answer, with their operations. -/
  pending : List (Operation × Handle)
  log : List (Resumptions.Event (Outcome Value Exception) Operation)

namespace Runtime

def frame (runtime : Runtime Value Exception Operation Answer Memory) (coroutine : Handle) :
    Except Fault (Frame Value Exception Operation Answer Memory) :=
  match runtime.frames coroutine with
  | none => .error .destroyedFrame
  | some frame => .ok frame

def write (runtime : Runtime Value Exception Operation Answer Memory) (coroutine : Handle)
    (frame : Frame Value Exception Operation Answer Memory) :
    Runtime Value Exception Operation Answer Memory :=
  { runtime with frames := Function.update runtime.frames coroutine (some frame) }

/-- A new frame, whose handle is the `allocated` of before. -/
def allocate (runtime : Runtime Value Exception Operation Answer Memory)
    (frame : Frame Value Exception Operation Answer Memory) :
    Runtime Value Exception Operation Answer Memory :=
  { runtime.write runtime.allocated frame with allocated := runtime.allocated + 1 }

def destroyAll (runtime : Runtime Value Exception Operation Answer Memory)
    (coroutines : List (Option Handle)) :
    Except Fault (Runtime Value Exception Operation Answer Memory) := do
  let frames ← destroy runtime.allocated runtime.frames (coroutines.filterMap id)
  .ok { runtime with frames }

/-- The frame at `promise().mAwaiter`, and the awaiter in it. That object is the one
constructed for this coroutine, or it is there no more. -/
def awaiterOf (runtime : Runtime Value Exception Operation Answer Memory) (coroutine : Handle)
    (frame : Frame Value Exception Operation Answer Memory) :
    Except Fault (Handle × Frame Value Exception Operation Answer Memory ×
      TaskAwaiter Value Exception) :=
  match frame.mAwaiter with
  | none => .error .nullAwaiter
  | some caller =>
      match runtime.frames caller with
      | none => .error .danglingAwaiter
      | some callerFrame =>
          match callerFrame.awaiter with
          | none => .error .danglingAwaiter
          | some awaiter =>
              if awaiter.mCalleeCoroutine = coroutine then
                .ok (caller, callerFrame, awaiter)
              else .error .danglingAwaiter

/-- `mAwaiter->returnValue(..)` and its like. -/
def reply (runtime : Runtime Value Exception Operation Answer Memory) (coroutine : Handle)
    (set : TaskAwaiter Value Exception → TaskAwaiter Value Exception) :
    Except Fault (Runtime Value Exception Operation Answer Memory) := do
  let frame ← runtime.frame coroutine
  let (caller, callerFrame, awaiter) ← runtime.awaiterOf coroutine frame
  .ok (runtime.write caller { callerFrame with awaiter := some (set awaiter) })

def standAt (runtime : Runtime Value Exception Operation Answer Memory) (coroutine : Handle)
    (point : Point Value Exception Operation Answer Memory) :
    Except Fault (Runtime Value Exception Operation Answer Memory) := do
  let frame ← runtime.frame coroutine
  .ok (runtime.write coroutine { frame with point })

/-- An await_suspend that returns `mAwaiter->callerCoroutine()`. -/
def transferToCaller (runtime : Runtime Value Exception Operation Answer Memory)
    (coroutine : Handle) (callers : List Handle) :
    Except Fault (Runtime Value Exception Operation Answer Memory) := do
  let frame ← runtime.frame coroutine
  let (_, _, awaiter) ← runtime.awaiterOf coroutine frame
  match awaiter.mCallerCoroutine with
  | none => .error .nullCoroutine
  | some caller => .ok { runtime with active := caller :: callers }

def destroyTasks (runtime : Runtime Value Exception Operation Answer Memory)
    (coroutine : Handle) : Except Fault (Runtime Value Exception Operation Answer Memory) := do
  let frame ← runtime.frame coroutine
  (runtime.write coroutine { frame with tasks := [] }).destroyAll frame.tasks

/-- final_suspend: AutoDestroyFinalAwaiter or TaskFinalAwaiter. -/
def finalSuspend (runtime : Runtime Value Exception Operation Answer Memory)
    (coroutine : Handle) (callers : List Handle) (outcome : Outcome Value Exception) :
    Except Fault (Runtime Value Exception Operation Answer Memory) := do
  let frame ← runtime.frame coroutine
  let runtime ← runtime.standAt coroutine .final
  if frame.spawned then
    let runtime ← runtime.destroyAll [some coroutine]
    .ok { runtime with active := callers, log := runtime.log ++ [.ended outcome] }
  else runtime.transferToCaller coroutine callers

/-- An IgnoreReturnPromise drops the value. -/
def coReturn (runtime : Runtime Value Exception Operation Answer Memory) (coroutine : Handle)
    (callers : List Handle) (result : Expected Value) :
    Except Fault (Runtime Value Exception Operation Answer Memory) := do
  let frame ← runtime.frame coroutine
  let runtime ← if frame.spawned then .ok runtime
    else runtime.reply coroutine (TaskAwaiter.returnValue result)
  let runtime ← runtime.destroyTasks coroutine
  runtime.finalSuspend coroutine callers (.returned result)

/-- The stack is unwound before `unhandled_exception()`, which for an
IgnoreReturnPromise prints a message. -/
def throw (runtime : Runtime Value Exception Operation Answer Memory) (coroutine : Handle)
    (callers : List Handle) (exception : Exception) :
    Except Fault (Runtime Value Exception Operation Answer Memory) := do
  let frame ← runtime.frame coroutine
  let runtime ← runtime.destroyTasks coroutine
  let runtime ← if frame.spawned then .ok runtime
    else runtime.reply coroutine (TaskAwaiter.unhandledException exception)
  runtime.finalSuspend coroutine callers (.threw exception)

/-- TaskYieldAwaiter -/
def coYield (runtime : Runtime Value Exception Operation Answer Memory) (coroutine : Handle)
    (callers : List Handle) (value : Value)
    (next : Body Value Exception Operation Answer Memory) :
    Except Fault (Runtime Value Exception Operation Answer Memory) := do
  let runtime ← runtime.reply coroutine (TaskAwaiter.yieldValue value)
  let runtime ← runtime.standAt coroutine (.code next)
  runtime.transferToCaller coroutine callers

/-- A ValueOrReturnAwaiter with an error: `await_transform` has made it the result. -/
def returnError (runtime : Runtime Value Exception Operation Answer Memory)
    (coroutine : Handle) (callers : List Handle) (code : ErrorCode) :
    Except Fault (Runtime Value Exception Operation Answer Memory) := do
  let runtime ← runtime.reply coroutine (TaskAwaiter.returnValue (.error code))
  let runtime ← runtime.standAt coroutine .returned
  runtime.transferToCaller coroutine callers

def coAwaitExpected (runtime : Runtime Value Exception Operation Answer Memory)
    (coroutine : Handle) (callers : List Handle) (expected : Expected Value)
    (next : Value → Body Value Exception Operation Answer Memory) :
    Except Fault (Runtime Value Exception Operation Answer Memory) :=
  match expected with
  | .error code => runtime.returnError coroutine callers code
  | .ok value => runtime.standAt coroutine (.code (next value))

/-- `operator co_await` of a task: the awaiter is constructed, and the callee knows it. -/
def coAwaitHandle (runtime : Runtime Value Exception Operation Answer Memory)
    (coroutine : Handle) (callers : List Handle) (callee : Handle) (owned checked : Bool)
    (next : Outcome Value Exception → Body Value Exception Operation Answer Memory) :
    Except Fault (Runtime Value Exception Operation Answer Memory) := do
  let calleeFrame ← runtime.frame callee
  let runtime := runtime.write callee { calleeFrame with mAwaiter := some coroutine }
  let frame ← runtime.frame coroutine
  let frame := { frame with point := .awaiting checked next }
  let awaiter : TaskAwaiter Value Exception := { mCalleeCoroutine := callee, owned }
  if awaiter.awaitReady then
    .ok (runtime.write coroutine { frame with awaiter := some awaiter })
  else
    let runtime :=
      runtime.write coroutine { frame with awaiter := some (awaiter.awaitSuspend coroutine) }
    .ok { runtime with active := callee :: callers }

/-- The end of the full expression with the co_await. -/
def endAwait (runtime : Runtime Value Exception Operation Answer Memory) (coroutine : Handle)
    (awaiter : TaskAwaiter Value Exception) :
    Except Fault (Runtime Value Exception Operation Answer Memory) := do
  let frame ← runtime.frame coroutine
  (runtime.write coroutine { frame with awaiter := none }).destroyAll awaiter.holds

/-- The coroutine is resumed at its co_await of a task. -/
def resumeAwait (runtime : Runtime Value Exception Operation Answer Memory)
    (coroutine : Handle) (callers : List Handle) (awaiter : TaskAwaiter Value Exception)
    (checked : Bool)
    (next : Outcome Value Exception → Body Value Exception Operation Answer Memory) :
    Except Fault (Runtime Value Exception Operation Answer Memory) :=
  match awaiter.awaitResume with
  | none => .error .emptyResult
  | some outcome =>
      match checked, outcome with
      | true, .returned (.error code) => runtime.returnError coroutine callers code
      | _, _ => do
          let runtime ← runtime.endAwait coroutine awaiter
          runtime.standAt coroutine (.code (next outcome))

def answer (runtime : Runtime Value Exception Operation Answer Memory) (coroutine : Handle)
    (answer : Answer) : Except Fault (Runtime Value Exception Operation Answer Memory) := do
  let frame ← runtime.frame coroutine
  match frame.point with
  | .operating next => runtime.standAt coroutine (.code (next answer))
  | _ => .error .notSuspended

end Runtime

/-- coSpawnStarter, which has the task as its parameter; the value is not looked at. -/
def coSpawnStarter : Body Value Exception Operation Answer Memory :=
  .coAwaitTask false 0 true fun
    | .threw exception => .throw exception
    | .returned result => .coReturn result
    | .yielded value => .coReturn (.ok value)

namespace Runtime

/-- `co_spawn(task())`: the starter's `resume()` is called. -/
def spawn (runtime : Runtime Value Exception Operation Answer Memory)
    (task : Body Value Exception Operation Answer Memory) :
    Runtime Value Exception Operation Answer Memory :=
  let starter := { Frame.initial coSpawnStarter with
    spawned := true, tasks := [some runtime.allocated] }
  let called := (runtime.allocate (Frame.initial task)).allocate starter
  { called with active := (runtime.allocated + 1) :: runtime.active }

def execute (runtime : Runtime Value Exception Operation Answer Memory) (coroutine : Handle)
    (callers : List Handle) (frame : Frame Value Exception Operation Answer Memory) :
    Body Value Exception Operation Answer Memory →
      Except Fault (Runtime Value Exception Operation Answer Memory)
  | .coReturn result => runtime.coReturn coroutine callers result
  | .throw exception => runtime.throw coroutine callers exception
  | .coYield value next => runtime.coYield coroutine callers value next
  | .coAwaitExpected expected next => runtime.coAwaitExpected coroutine callers expected next
  | .coAwaitOperation operation next => do
      let runtime ← runtime.standAt coroutine (.operating next)
      .ok { runtime with
        active := callers
        pending := runtime.pending ++ [(operation, coroutine)]
        log := runtime.log ++ [.began operation] }
  | .access change next => do
      let runtime' ← runtime.standAt coroutine (.code (next (change runtime.memory).2))
      .ok { runtime' with memory := (change runtime.memory).1 }
  | .coSpawn task next => do
      let runtime ← runtime.standAt coroutine (.code next)
      .ok (runtime.spawn task)
  | .resume pick next => do
      let runtime ← runtime.standAt coroutine (.code next)
      match pick runtime.memory (runtime.pending.map Prod.fst) with
      | none => .ok runtime
      | some (index, answer) =>
          match runtime.pending[index]? with
          | none => .ok runtime
          | some (_, woken) => do
              let runtime ← runtime.answer woken answer
              .ok { runtime with
                active := woken :: coroutine :: callers
                pending := runtime.pending.eraseIdx index }
  | .coAwait checked callee next =>
      (runtime.allocate (Frame.initial callee)).coAwaitHandle coroutine callers
        runtime.allocated true checked next
  | .bindTask callee next =>
      let called := runtime.allocate (Frame.initial callee)
      .ok (called.write coroutine
        { frame with point := .code next, tasks := some runtime.allocated :: frame.tasks })
  | .coAwaitTask checked index moved next =>
      match frame.tasks[index]? with
      | some (some task) =>
          let tasks := if moved then frame.tasks.set index none else frame.tasks
          (runtime.write coroutine { frame with tasks }).coAwaitHandle coroutine callers task
            moved checked next
      | _ => .error .nullTask
  | .endScope next => do
      let runtime := runtime.write coroutine
        { frame with point := .code next, tasks := frame.tasks.tail }
      runtime.destroyAll (frame.tasks.take 1)

/-- One step of whatever runs; a coroutine gets here by a resume() or by a transfer. -/
def proceed (runtime : Runtime Value Exception Operation Answer Memory) :
    Except Fault (Runtime Value Exception Operation Answer Memory) :=
  match runtime.active with
  | [] => .ok runtime
  | coroutine :: callers => do
      let frame ← runtime.frame coroutine
      match frame.point, frame.awaiter with
      | .code body, _ => runtime.execute coroutine callers frame body
      | .awaiting checked next, some awaiter =>
          runtime.resumeAwait coroutine callers awaiter checked next
      | _, _ => .error .notSuspended

/-- Once nothing runs, the event loop resumes a coroutine with the answer of its operation. -/
def complete (runtime : Runtime Value Exception Operation Answer Memory) (index : Nat)
    (answer : Answer) : Except Fault (Runtime Value Exception Operation Answer Memory) :=
  match runtime.active, runtime.pending[index]? with
  | [], some (_, coroutine) => do
      let runtime' ← runtime.answer coroutine answer
      .ok { runtime' with
        active := [coroutine], pending := runtime.pending.eraseIdx index }
  | _, _ => .ok runtime

def act (runtime : Runtime Value Exception Operation Answer Memory) :
    Resumptions.Action Answer → Except Fault (Runtime Value Exception Operation Answer Memory)
  | .proceed => runtime.proceed
  | .complete index answer => runtime.complete index answer

def acts (runtime : Runtime Value Exception Operation Answer Memory)
    (actions : List (Resumptions.Action Answer)) :
    Except Fault (Runtime Value Exception Operation Answer Memory) :=
  actions.foldlM act runtime

/-- co_main, after its co_spawn has called `resume()`. -/
def coMain (memory : Memory) (main : Body Value Exception Operation Answer Memory) :
    Runtime Value Exception Operation Answer Memory :=
  { memory, frames := fun _ => none, allocated := 0, active := [], pending := [],
    log := [] : Runtime Value Exception Operation Answer Memory }.spawn main

end Runtime

/-! ### What a body means

The same computation without frames: a co_await is a call. -/

abbrev Tree (Value Exception Operation Answer Memory : Type) :=
  Resumption (Outcome Value Exception) Operation Answer Memory

def goOn (checked : Bool)
    (next : Outcome Value Exception → Tree Value Exception Operation Answer Memory) :
    Outcome Value Exception → Tree Value Exception Operation Answer Memory
  | .returned (.error code) =>
      if checked then .finish (.returned (.error code)) else next (.returned (.error code))
  | .returned (.ok value) => next (.returned (.ok value))
  | .yielded value => next (.yielded value)
  | .threw exception => next (.threw exception)

def Outcome.ended : Outcome Value Exception → Outcome Value Exception
  | .yielded value => .returned (.ok value)
  | .returned result => .returned result
  | .threw exception => .threw exception

/-- The computation of a body whose Task variables hold these computations. -/
def Body.tree : Body Value Exception Operation Answer Memory →
    List (Tree Value Exception Operation Answer Memory) →
    Tree Value Exception Operation Answer Memory
  | .coReturn result, _ => .finish (.returned result)
  | .throw exception, _ => .finish (.threw exception)
  | .coYield value next, tasks => .pause (.yielded value) (next.tree tasks)
  | .coAwaitExpected expected next, tasks =>
      match expected with
      | .error code => .finish (.returned (.error code))
      | .ok value => (next value).tree tasks
  | .coAwaitOperation operation next, tasks =>
      .operate operation fun answer => (next answer).tree tasks
  | .access change next, tasks => .access change fun answer => (next answer).tree tasks
  | .coSpawn task next, tasks =>
      .spawn ((task.tree []).follow fun outcome _ => .finish outcome.ended) (next.tree tasks)
  | .resume pick next, tasks => .wake pick (next.tree tasks)
  | .coAwait checked callee next, tasks =>
      (callee.tree []).follow fun outcome _ =>
        goOn checked (fun outcome => (next outcome).tree tasks) outcome
  | .bindTask callee next, tasks => next.tree (callee.tree [] :: tasks)
  | .coAwaitTask checked index moved next, tasks =>
      (tasks.getD index .undefined).follow fun outcome rest =>
        let rest := if moved then .undefined else rest
        goOn checked (fun outcome => (next outcome).tree (tasks.set index rest)) outcome
  | .endScope next, tasks => next.tree tasks.tail

/-- The computation that co_spawn starts. -/
def Body.thread (task : Body Value Exception Operation Answer Memory) :
    Tree Value Exception Operation Answer Memory :=
  (task.tree []).follow fun outcome _ => .finish outcome.ended

end MCoro.Tasks
