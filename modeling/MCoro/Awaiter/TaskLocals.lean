/-
How a task hands its cancel token to the tasks below it: await_transform of
co_async/awaiter/task.hpp, whenAllHelper of co_async/awaiter/when_all.hpp, when_any
of co_async/generic/when_any.hpp and co_cancel of co_async/generic/cancel.hpp.

Only `mLocals` of a promise is modelled, and of a coroutine only what it awaits. A
token does not depend on the order of events, so a run lists each event once. The
form of when_any that takes a vector resumes empty tasks and is left out.
-/

import MCoro.Generic.Cancel

namespace MCoro.TaskLocals

/-- The value category of a Task expression after co_await. -/
inductive ValueCategory where
  | rvalue
  | constRvalue
  | lvalue
  | constLvalue
  deriving DecidableEq, Repr

/-- The way from a task down to one that it runs; the index tells siblings apart. -/
inductive Link where
  | coAwait (category : ValueCategory) (index : Nat)
  | coBind
  | whenAll (index : Nat)
  | whenAny (index : Nat)
  deriving DecidableEq, Repr

/-- Where a task stands below the bound one, the last link first. -/
abbrev Position := List Link

/-- The CancelSource of the bound token, one that a when_any below constructs, or any
other that is not registered under the bound one. -/
inductive CancelSource where
  | bound
  | whenAny (position : Position)
  | outside (number : Nat)
  deriving DecidableEq, Repr

/-- The pointer to a source, or null. -/
abbrev CancelToken := Option CancelSource

structure TaskPromiseLocal where
  mCancelToken : CancelToken := none
  deriving DecidableEq, Repr

/-- What makes a Task: a coroutine that awaits tasks, or one of the combinators. -/
inductive Task where
  | coroutine (count : Nat) (category : Fin count → ValueCategory) (child : Fin count → Task)
  | coBind (inner : Task)
  | whenAll (count : Nat) (child : Fin count → Task)
  | whenAny (count : Nat) (child : Fin count → Task)

inductive Canceller where
  | callback (position : Position)
  | source (source : CancelSource)
  deriving DecidableEq, Repr

inductive Event where
  /-- co_await co_cancel; the token goes into the CancelCallback of a co_sleep or a
  cancelGuard. -/
  | asked (position : Position) (token : CancelToken)
  /-- `CancelSource cancel(co_await co_cancel)` of a when_any. -/
  | constructed (position : Position) (token : CancelToken)
  deriving DecidableEq, Repr

/-! ### Handing the token down -/

/-- TaskPromiseTransforms::await_transform: `mLocals` of the awaited task. Overload
resolution takes `Task<U> &&` for an rvalue and `const Task<U> &` for a const lvalue;
the generic `U &&` is the better match for the other two and copies nothing. -/
def awaitTransform (self : TaskPromiseLocal) (category : ValueCategory)
    (awaited : TaskPromiseLocal) : TaskPromiseLocal :=
  match category with
  | .rvalue => self
  | .constLvalue => self
  | .lvalue => awaited
  | .constRvalue => awaited

/-- ReturnPreviousPromise has no await_transform. -/
def whenAllHelper (awaited : TaskPromiseLocal) : TaskPromiseLocal :=
  awaited

/-- GetThisCancel::bind -/
def bind (cancel : CancelToken) (task : TaskPromiseLocal) : TaskPromiseLocal :=
  { task with mCancelToken := cancel }

/-- The events of a task that stands at `here` and runs with the locals `self`. -/
def Task.run : Task → Position → TaskPromiseLocal → List Event
  | .coroutine count category child, here, self =>
      .asked here self.mCancelToken :: (List.finRange count).flatMap fun i =>
        (child i).run (.coAwait (category i) i :: here) (awaitTransform self (category i) {})
  | .coBind inner, here, self =>
      inner.run (.coBind :: here) (awaitTransform self .rvalue {})
  | .whenAll count child, here, _ =>
      (List.finRange count).flatMap fun i =>
        (child i).run (.whenAll i :: here) (whenAllHelper {})
  | .whenAny count child, here, self =>
      let race := awaitTransform self .rvalue {}
      .constructed here race.mCancelToken :: (List.finRange count).flatMap fun i =>
        -- The co_bind task is bound to the new source, awaits the lambda, and that the child.
        let racer := whenAllHelper (bind (some (.whenAny here)) {})
        let lambda := awaitTransform racer .rvalue {}
        (child i).run (.whenAny i :: here) (awaitTransform lambda .rvalue {})

inductive Launch where
  /-- By whenAllHelper or by co_spawn, whose promise has no await_transform either. -/
  | resumed
  | awaited (category : ValueCategory) (caller : TaskPromiseLocal)
      (above : ∀ position, caller.mCancelToken ≠ some (.whenAny position))

def Launch.locals (task : TaskPromiseLocal) : Launch → TaskPromiseLocal
  | .resumed => whenAllHelper task
  | .awaited category caller _ => awaitTransform caller category task

/-- The events of a task that was bound to a token with co_cancel.bind. -/
def Task.runBound (task : Task) (launch : Launch) : List Event :=
  task.run [] (launch.locals (bind (some .bound) {}))

/-! ### Cancelling -/

namespace Event

def position : Event → Position
  | .asked position _ => position
  | .constructed position _ => position

def token : Event → CancelToken
  | .asked _ token => token
  | .constructed _ token => token

def canceller : Event → Canceller
  | .asked position _ => .callback position
  | .constructed position _ => .source (.whenAny position)

/-- The constructors of CancelCallback and CancelSource. -/
def register (source : CancelSource) (impl : CancelSourceImpl Canceller) (event : Event) :
    CancelSourceImpl Canceller :=
  if event.token = some source then impl.doRegister event.canceller else impl

end Event

def cancelSourceImpl (events : List Event) (source : CancelSource) :
    CancelSourceImpl Canceller :=
  events.foldl (Event.register source) .initial

/-- The callbacks that cancelling a source invokes, through the sources under it. -/
def doCancel (events : List Event) : Nat → CancelSource → List Position
  | 0, _ => []
  | fuel + 1, source =>
      match (cancelSourceImpl events source).doCancel with
      | none => []
      | some (_, tasks) => tasks.flatMap fun canceller =>
          match canceller with
          | .callback position => [position]
          | .source nested => doCancel events fuel nested

end MCoro.TaskLocals
