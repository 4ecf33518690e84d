/-
What currentAllocator is while a coroutine runs, with CO_ASYNC_ALLOC: TaskAwaiter of
co_async/awaiter/task.hpp, WhenAllAwaiter of when_all.hpp, and the suspensions on a
UringOp or a timer.

There is one currentAllocator for all coroutines of a thread. A TaskAwaiter keeps its
value over the await and sets it again; a UringOp, a timer and a when_all leave it as it
is, and whoever resumes the next coroutine does not set it either. Tasks that end with
an exception, generators and co_spawn from inside a coroutine are left out.
-/

import MCoro.Generic.Allocator

namespace MCoro

namespace AllocatorScopes

inductive Phase where
  /-- Made for a when_all, which has not resumed it yet. -/
  | fresh
  | running
  | suspended
  /-- In a TaskAwaiter, with its mAllocState. -/
  | task (callee : Nat) (mLastAllocator : Resource)
  /-- In a WhenAllAwaiter; mCount is the number of those pending. -/
  | whenAll (pending : List Nat)
  deriving DecidableEq, Repr

/-- A coroutine, the ReplaceAllocator objects of its frame and who awaits it. `opened` and
`context` are for the proofs: the resources of its own scopes and those of its callers,
which stay as they are until it has ended. -/
structure Coroutine where
  caller : Option Nat
  scopes : List ReplaceAllocator
  phase : Phase
  opened : List Resource
  context : List Resource
  deriving DecidableEq, Repr

namespace Coroutine

/-- What the scopes around the coroutine, its own and those of its callers, make the allocator. -/
def enclosing (coroutine : Coroutine) : Resource :=
  innermost (coroutine.opened ++ coroutine.context)

def child (coroutine : Coroutine) (id : Nat) (phase : Phase) : Coroutine :=
  { caller := some id
    scopes := []
    phase := phase
    opened := []
    context := coroutine.opened ++ coroutine.context }

def Awaits (coroutine : Coroutine) (id : Nat) : Prop :=
  match coroutine.phase with
  | .task callee _ => callee = id
  | .whenAll pending => id ∈ pending
  | _ => False

end Coroutine

/-- `control` is the coroutine that runs, if one does. `starting` has, for each await_suspend
of a when_all that is under way, the innermost first, the tasks that it has still to resume.
`handedBack` is for the proofs: the allocator that the scopes around the coroutine which was
the last to give up the control make. -/
structure State where
  currentAllocator : Resource
  coroutines : Nat → Option Coroutine
  control : Option Nat
  starting : List (List Nat)
  handedBack : Resource

namespace State

def set (state : State) (id : Nat) (coroutine : Option Coroutine) : State :=
  { state with coroutines := Function.update state.coroutines id coroutine }

def resume (state : State) (id : Nat) (coroutine : Coroutine) : State :=
  { state.set id (some { coroutine with phase := .running }) with control := some id }

/-- Behind the coroutine the loop, or an await_suspend that it was started by, goes on. -/
def handBack (state : State) (coroutine : Coroutine) : State :=
  { state with
    control := none
    handedBack := coroutine.enclosing }

end State

inductive Action where
  /-- The loop starts a coroutine that nothing awaits. -/
  | spawn (id : Nat)
  /-- `ReplaceAllocator(allocator)`, in the coroutine that runs. -/
  | construct (allocator : Resource)
  /-- `~ReplaceAllocator` of its innermost scope. -/
  | destroy
  | call (callee : Nat)
  | suspend
  | whenAll (tasks : List Nat)
  /-- The await_suspend of a when_all resumes the next of its tasks. -/
  | startNext
  /-- waitEventsFor or runDuration resumes a coroutine. -/
  | resume (id : Nat)
  | finish
  deriving DecidableEq, Repr

def State.step (state : State) (act : Nat → Coroutine → State) : State :=
  match state.control with
  | none => state
  | some id =>
      match state.coroutines id with
      | none => state
      | some coroutine => act id coroutine

def construct (state : State) (allocator : Resource) (id : Nat) (coroutine : Coroutine) : State :=
  { state.set id (some { coroutine with
      scopes := { lastAllocator := state.currentAllocator } :: coroutine.scopes
      opened := allocator :: coroutine.opened }) with
    currentAllocator := allocator }

def destroy (state : State) (id : Nat) (coroutine : Coroutine) : State :=
  match coroutine.scopes with
  | [] => state
  | scope :: scopes =>
      { state.set id (some { coroutine with
          scopes := scopes
          opened := coroutine.opened.tail }) with
        currentAllocator := scope.lastAllocator }

/-- `TaskAwaiter::await_suspend`: push, and the callee is resumed. -/
def call (state : State) (callee id : Nat) (coroutine : Coroutine) : State :=
  (state.set id (some { coroutine with phase := .task callee state.currentAllocator })).resume
    callee (coroutine.child id .fresh)

def suspend (state : State) (id : Nat) (coroutine : Coroutine) : State :=
  (state.set id (some { coroutine with phase := .suspended })).handBack coroutine

def whenAll (state : State) (tasks : List Nat) (id : Nat) (coroutine : Coroutine) : State :=
  { (tasks.foldl (fun state task => state.set task (some (coroutine.child id .fresh)))
      (state.set id (some { coroutine with phase := .whenAll tasks }))).handBack coroutine with
    starting := tasks :: state.starting }

/-- The last of the tasks is resumed in place of the awaiting coroutine. -/
def startNext (state : State) : State :=
  match state.starting with
  | (task :: tasks) :: outer =>
      match state.coroutines task with
      | some coroutine =>
          { state.resume task coroutine with
            starting := if tasks = [] then outer else tasks :: outer }
      | none => state
  | _ => state

/-- The final awaiters: TaskAwaiter pops behind a Task; whenAllHelper returns to the coroutine
that awaits the when_all behind the last of its tasks. -/
def finish (state : State) (id : Nat) (coroutine : Coroutine) : State :=
  match coroutine.caller with
  | none => (state.set id none).handBack coroutine
  | some caller =>
      match state.coroutines caller with
      | none => state
      | some awaiting =>
          match awaiting.phase with
          | .task _ mLastAllocator =>
              { (state.set id none).resume caller awaiting with currentAllocator := mLastAllocator }
          | .whenAll pending =>
              if pending.erase id = [] then (state.set id none).resume caller awaiting
              else
                ((state.set id none).set caller
                  (some { awaiting with phase := .whenAll (pending.erase id) })).handBack coroutine
          | _ => state

def next (state : State) : Action → State
  | .spawn id =>
      state.resume id
        { caller := none
          scopes := []
          phase := .fresh
          opened := []
          context := [] }
  | .construct allocator => state.step (construct state allocator)
  | .destroy => state.step (destroy state)
  | .call callee => state.step (call state callee)
  | .suspend => state.step (suspend state)
  | .whenAll tasks => state.step (whenAll state tasks)
  | .startNext => startNext state
  | .resume id =>
      match state.coroutines id with
      | none => state
      | some coroutine => state.resume id coroutine
  | .finish => state.step (finish state)

/-- The scopes of the coroutine that runs, if one does. -/
def State.runningScopes (state : State) : Option (List ReplaceAllocator) :=
  state.control.bind fun id => (state.coroutines id).map Coroutine.scopes

/-- New coroutines have frames of their own; the loop goes on when no await_suspend is under
way; all scopes of a coroutine are closed at its end. -/
def Enabled (state : State) : Action → Prop
  | .spawn id => state.control = none ∧ state.starting = [] ∧ state.coroutines id = none
  | .construct _ => state.control.isSome
  | .destroy => state.control.isSome
  | .call callee => state.control.isSome ∧ state.coroutines callee = none
  | .suspend => state.control.isSome
  | .whenAll tasks =>
      state.control.isSome ∧ tasks ≠ [] ∧ tasks.Nodup ∧
        ∀ task ∈ tasks, state.coroutines task = none
  | .startNext =>
      state.control = none ∧
        match state.starting with
        | (task :: _) :: _ => (state.coroutines task).map Coroutine.phase = some .fresh
        | _ => False
  | .resume id =>
      state.control = none ∧ state.starting = [] ∧
        (state.coroutines id).map Coroutine.phase = some .suspended
  | .finish => state.runningScopes = some []

def machine : Machine State Action where
  initial :=
    { currentAllocator := .newDelete
      coroutines := fun _ => none
      control := none
      starting := []
      handedBack := .newDelete }
  Enabled := Enabled
  next := next

/-- The coroutine that runs observes the allocator of the scopes around it. -/
def Observes (state : State) : Prop :=
  ∀ id coroutine, state.control = some id → state.coroutines id = some coroutine →
    state.currentAllocator = coroutine.enclosing

/-- Whoever is resumed has the same allocator around it as the one that gave up the control. -/
def Undisturbed (state : State) : Action → Prop
  | .spawn _ => state.handedBack = innermost []
  | .startNext =>
      ∀ task tasks outer coroutine, state.starting = (task :: tasks) :: outer →
        state.coroutines task = some coroutine → state.handedBack = coroutine.enclosing
  | .resume id =>
      ∀ coroutine, state.coroutines id = some coroutine → state.handedBack = coroutine.enclosing
  | _ => True

end AllocatorScopes

end MCoro
