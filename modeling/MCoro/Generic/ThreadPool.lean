/-
ThreadPool of co_async/generic/thread_pool.cpp: submitJob against the loops of the
threads, under any interleaving, as long as the pool is not destroyed.

A step is one critical section. Those that startMain enters while it holds mMutex are
steps of their own, which another party can come between; where none does, they are the
one section under mMutex. A job stands for the call of submitJob that brings it. It is
not null: both callers pass a lambda.
-/

import MCoro.Library.Machine

namespace MCoro.ThreadPool

variable {Job : Type}

/-- Where a thread is in the loop of startMain. `task` is its local variable, kept as far
as a result about the thread names it. -/
inductive Place (Job : Type) where
  /-- In `mCV.wait`, or on the way to it. -/
  | waiting
  | running (task : Job)
  /-- `task()` has returned, and mMutex is to be locked again. -/
  | ended (task : Job)
  | reset (task : Job)
  /-- The thread is off mWorkingThreads. -/
  | removed
  /-- The thread is on mFreeThreads, at the end of the loop's body. -/
  | freed
  deriving DecidableEq, Repr

structure Thread (Job : Type) where
  mTask : Option Job
  place : Place Job
  deriving DecidableEq, Repr

namespace Thread

/-- What the constructor leaves, with startMain entered. -/
def fresh : Thread Job :=
  { mTask := none
    place := .waiting }

def Locked (thread : Thread Job) : Prop :=
  match thread.place with
  | .reset _ | .removed | .freed => True
  | .waiting | .running _ | .ended _ => False

instance (thread : Thread Job) : Decidable thread.Locked :=
  match thread with
  | ⟨_, .reset _⟩ | ⟨_, .removed⟩ | ⟨_, .freed⟩ => isTrue trivial
  | ⟨_, .waiting⟩ | ⟨_, .running _⟩ | ⟨_, .ended _⟩ => isFalse id

end Thread

inductive Call where
  | outside
  /-- mFreeThreads was empty. -/
  | emplacing
  /-- About to call workOn. -/
  | assigning (thread : Nat)
  /-- About to push the thread onto mWorkingThreads. -/
  | registering (thread : Nat)
  | returned (thread : Nat)
  deriving DecidableEq, Repr

/-- Threads are numbered as they stand in mThreads. -/
structure State (Job : Type) where
  /-- `mThreads.size()`. -/
  mThreads : Nat
  mFreeThreads : List Nat
  mWorkingThreads : List Nat
  thread : Nat → Thread Job
  call : Job → Call
  /-- The jobs in the order in which `task()` was called. -/
  executions : List Job

inductive Action (Job : Type) where
  /-- submitJob under mFreeMutex. -/
  | submit (job : Job)
  | emplace (job : Job)
  | workOn (job : Job) (thread : Nat)
  | register (job : Job) (thread : Nat)
  /-- startMain leaves the wait, takes mTask and calls it. -/
  | take (thread : Nat) (task : Job)
  | finish (thread : Nat) (task : Job)
  | reset (thread : Nat) (task : Job)
  | remove (thread : Nat) (task : Job)
  | free (thread : Nat)
  | unlock (thread : Nat)
  deriving DecidableEq, Repr

namespace State

def initial : State Job :=
  { mThreads := 0
    mFreeThreads := []
    mWorkingThreads := []
    thread := fun _ => .fresh
    call := fun _ => .outside
    executions := [] }

def workingThreadsCount (state : State Job) : Nat :=
  state.mWorkingThreads.length

def setThread (state : State Job) (thread : Nat) (value : Thread Job) : State Job :=
  { state with thread := Function.update state.thread thread value }

def move (state : State Job) (thread : Nat) (place : Place Job) : State Job :=
  state.setThread thread { state.thread thread with place := place }

variable [DecidableEq Job]

def setCall (state : State Job) (job : Job) (call : Call) : State Job :=
  { state with call := Function.update state.call job call }

def submit (state : State Job) (job : Job) : State Job :=
  match state.mFreeThreads with
  | [] => state.setCall job .emplacing
  | freeThread :: rest => { state with mFreeThreads := rest }.setCall job (.assigning freeThread)

def emplace (state : State Job) (job : Job) : State Job :=
  ({ state with mThreads := state.mThreads + 1 }.setThread state.mThreads .fresh).setCall job
    (.assigning state.mThreads)

def workOn (state : State Job) (job : Job) (thread : Nat) : State Job :=
  (state.setThread thread { state.thread thread with mTask := some job }).setCall job
    (.registering thread)

def register (state : State Job) (job : Job) (thread : Nat) : State Job :=
  { state with mWorkingThreads := state.mWorkingThreads ++ [thread] }.setCall job
    (.returned thread)

omit [DecidableEq Job]

def take (state : State Job) (thread : Nat) (task : Job) : State Job :=
  { state with executions := state.executions ++ [task] }.setThread thread
    { mTask := none
      place := .running task }

def reset (state : State Job) (thread : Nat) (task : Job) : State Job :=
  state.setThread thread
    { mTask := none
      place := .reset task }

/-- `std::list::remove` takes out every entry of the thread. -/
def remove (state : State Job) (thread : Nat) : State Job :=
  { state with mWorkingThreads := state.mWorkingThreads.filter (· ≠ thread) }.move thread .removed

def free (state : State Job) (thread : Nat) : State Job :=
  { state with mFreeThreads := state.mFreeThreads ++ [thread] }.move thread .freed

end State

def Enabled (state : State Job) : Action Job → Prop
  | .submit job => state.call job = .outside
  | .emplace job => state.call job = .emplacing
  | .workOn job thread => state.call job = .assigning thread ∧ ¬(state.thread thread).Locked
  | .register job thread => state.call job = .registering thread
  | .take thread task =>
      (state.thread thread).place = .waiting ∧ (state.thread thread).mTask = some task
  | .finish thread task => (state.thread thread).place = .running task
  | .reset thread task => (state.thread thread).place = .ended task
  | .remove thread task => (state.thread thread).place = .reset task
  | .free thread => (state.thread thread).place = .removed
  | .unlock thread => (state.thread thread).place = .freed

variable [DecidableEq Job]

instance (state : State Job) (action : Action Job) : Decidable (Enabled state action) :=
  match action with
  | .submit job => inferInstanceAs (Decidable (state.call job = .outside))
  | .emplace job => inferInstanceAs (Decidable (state.call job = .emplacing))
  | .workOn job thread =>
      inferInstanceAs (Decidable (state.call job = .assigning thread ∧
        ¬(state.thread thread).Locked))
  | .register job thread => inferInstanceAs (Decidable (state.call job = .registering thread))
  | .take thread task =>
      inferInstanceAs (Decidable ((state.thread thread).place = .waiting ∧
        (state.thread thread).mTask = some task))
  | .finish thread task =>
      inferInstanceAs (Decidable ((state.thread thread).place = .running task))
  | .reset thread task => inferInstanceAs (Decidable ((state.thread thread).place = .ended task))
  | .remove thread task => inferInstanceAs (Decidable ((state.thread thread).place = .reset task))
  | .free thread => inferInstanceAs (Decidable ((state.thread thread).place = .removed))
  | .unlock thread => inferInstanceAs (Decidable ((state.thread thread).place = .freed))

def next (state : State Job) : Action Job → State Job
  | .submit job => state.submit job
  | .emplace job => state.emplace job
  | .workOn job thread => state.workOn job thread
  | .register job thread => state.register job thread
  | .take thread task => state.take thread task
  | .finish thread task => state.move thread (.ended task)
  | .reset thread task => state.reset thread task
  | .remove thread _ => state.remove thread
  | .free thread => state.free thread
  | .unlock thread => state.move thread .waiting

def machine (Job : Type) [DecidableEq Job] : Machine (State Job) (Action Job) :=
  { initial := .initial
    Enabled := Enabled
    next := next }

instance (state : State Job) (action : Action Job) :
    Decidable ((machine Job).Enabled state action) :=
  inferInstanceAs (Decidable (Enabled state action))

end MCoro.ThreadPool
