/-
The event loop of co_async/platform/platform_io.hpp, platform_io.cpp and
generic/io_context.cpp.

An operation is one awaiting expression, with one UringOp or the two of link_ops.
The kernel completes the entries at any time and in any order, and waitEventsFor
takes what is there in batches. A coroutine runs up to its next suspension in the
steps that follow its resumption; the UringOps of an operation are temporaries of
its expression, which the coroutine leaves as soon as it is resumed.
-/

import MCoro.Generic.GenericIO
import MCoro.Library.Machine
import MCoro.Library.Population

namespace MCoro

inductive Awaited where
  /-- One entry, which has one completion. -/
  | single
  /-- IORING_OP_SEND_ZC: the result with IORING_CQE_F_MORE, and later a notification. -/
  | sendZc
  /-- link_ops with a prep_link_timeout. -/
  | linked
  deriving DecidableEq, Repr

inductive Role where
  | lhs
  | rhs
  deriving DecidableEq, Repr

/-- The UringOp that user_data points to. -/
structure OpName where
  operation : Nat
  role : Role
  deriving DecidableEq, Repr

/-- `std::coroutine_handle<>`. -/
inductive Handle where
  | null
  | noop
  /-- The coroutine that awaits the operation. -/
  | awaiting (operation : Nat)
  /-- Read from a UringOp that is no more. -/
  | stale
  deriving DecidableEq, Repr

structure UringOp where
  mPrevious : Handle
  /-- `none` while the union holds mSqe. -/
  mRes : Option Int32
  deriving DecidableEq, Repr

/-- io_uring_cqe. The user_data `none` is LIBURING_UDATA_TIMEOUT. -/
structure Completion where
  userData : Option OpName
  res : Int32
  deriving DecidableEq, Repr

structure PlatformIOContext where
  mNumSqesPending : UInt64

namespace PlatformIOContext

/-- The number is all that getSqe leaves in the context. -/
def getSqe (context : PlatformIOContext) : PlatformIOContext :=
  { mNumSqesPending := context.mNumSqesPending + 1 }

def hasPendingEvents (context : PlatformIOContext) : Bool :=
  context.mNumSqesPending ≠ 0

/-- What the first loop of waitEventsFor works on. -/
structure Gathered where
  memory : OpName → Option UringOp
  tasks : List Handle
  numGot : UInt32

/-- One completion in that loop. -/
def Gathered.take (gathered : Gathered) (cqe : Completion) : Gathered :=
  match cqe.userData with
  | none => { gathered with numGot := gathered.numGot + 1 }
  | some name =>
      match gathered.memory name with
      | some op =>
          { memory := Function.update gathered.memory name (some { op with mRes := some cqe.res })
            tasks := gathered.tasks ++ [op.mPrevious]
            numGot := gathered.numGot + 1 }
      | none =>
          { gathered with
            tasks := gathered.tasks ++ [.stale]
            numGot := gathered.numGot + 1 }

end PlatformIOContext

namespace IOContext

inductive Control where
  /-- A coroutine runs, or run goes on where none does. -/
  | running
  /-- In io_uring_submit_and_wait_timeout. -/
  | waiting (timeout : Duration)
  | returned
  deriving DecidableEq, Repr

def Control.waits : Control → Bool
  | .waiting _ => true
  | .running | .returned => false

structure State (Ptr : Type) where
  mGenericIO : GenericIOContext Ptr
  mPlatformIO : PlatformIOContext
  mMaxSleep : Duration
  control : Control
  /-- What waitEventsFor has still to resume. -/
  tasks : List Handle
  /-- The UringOps that exist. -/
  memory : OpName → Option UringOp
  awaited : Nat → Option Awaited
  /-- The entries obtained from getSqe, and the completions of each still to be consumed. -/
  entries : List OpName
  due : OpName → Nat
  /-- What await_resume has read each time the coroutine of the operation was resumed. -/
  resumed : Nat → List (Option Int32)

variable {Ptr : Type}

def State.initial (mMaxSleep : Duration) : State Ptr :=
  { mGenericIO := .initial
    mPlatformIO := { mNumSqesPending := 0 }
    mMaxSleep := mMaxSleep
    control := .running
    tasks := []
    memory := fun _ => none
    awaited := fun _ => none
    entries := []
    due := fun _ => 0
    resumed := fun _ => [] }

/-- The entries whose last completion has not been consumed. -/
def State.outstanding (state : State Ptr) : Nat :=
  Population.total (fun due => min 1 due) state.entries state.due

/-- The UringOps that the completions of a batch are about. -/
def named (batch : List Completion) : List OpName :=
  batch.filterMap Completion.userData

namespace State

/-! ### Coroutines -/

/-- `UringOp::UringOp`. -/
def construct (state : State Ptr) (name : OpName) (completions : Nat) : State Ptr :=
  { state with
    mPlatformIO := state.mPlatformIO.getSqe
    memory := Function.update state.memory name
      (some
        { mPrevious := .null
          mRes := none })
    entries := name :: state.entries
    due := Function.update state.due name completions }

def modify (state : State Ptr) (name : OpName) (change : UringOp → UringOp) : State Ptr :=
  { state with memory := Function.update state.memory name ((state.memory name).map change) }

/-- `UringOp::link_ops`. -/
def linkOps (state : State Ptr) (rhs : OpName) : State Ptr :=
  state.modify rhs fun op => { op with mPrevious := .noop }

def enosys : Int32 := 38

/-- `UringOp::Awaiter::await_suspend`. -/
def awaitSuspend (state : State Ptr) (operation : Nat) : State Ptr :=
  state.modify ⟨operation, .lhs⟩ fun op =>
    { op with
      mPrevious := .awaiting operation
      mRes := some (-enosys) }

def start (state : State Ptr) (operation : Nat) (what : Awaited) : State Ptr :=
  let known := { state with awaited := Function.update state.awaited operation (some what) }
  match what with
  | .single => (known.construct ⟨operation, .lhs⟩ 1).awaitSuspend operation
  | .sendZc => (known.construct ⟨operation, .lhs⟩ 2).awaitSuspend operation
  | .linked =>
      (((known.construct ⟨operation, .lhs⟩ 1).construct ⟨operation, .rhs⟩ 1).linkOps
        ⟨operation, .rhs⟩).awaitSuspend operation

/-! ### The loop -/

/-- runOnce, from the end of runDuration to the wait in waitEventsFor. -/
def runOnce (state : State Ptr) (duration : Option Duration) : State Ptr :=
  if duration = none ∧ ¬state.mPlatformIO.hasPendingEvents then
    { state with control := .returned }
  else
    let timeout := duration.elim state.mMaxSleep fun remaining =>
      if state.mMaxSleep < remaining then state.mMaxSleep else remaining
    { state with control := .waiting timeout }

/-- One iteration of the loop in runDuration. -/
def turn [DecidableEq Ptr] (fuel : Nat) (state : State Ptr) (now : TimePoint) : State Ptr :=
  match state.mGenericIO.runDurationTurn fuel now with
  | .ok (context, .resumed _) => { state with mGenericIO := context }
  | .ok (context, .returned remaining) => { state with mGenericIO := context }.runOnce remaining
  | .error _ => state

/-- waitEventsFor, up to the loop over its tasks. -/
def waitEventsFor (state : State Ptr) (batch : List Completion) : State Ptr :=
  let gathered := batch.foldl PlatformIOContext.Gathered.take
    { memory := state.memory
      tasks := []
      numGot := 0 }
  { state with
    mPlatformIO :=
      { mNumSqesPending := state.mPlatformIO.mNumSqesPending - gathered.numGot.toUInt64 }
    control := .running
    tasks := gathered.tasks
    memory := gathered.memory
    due := fun name => state.due name - (named batch).count name }

/-- The temporaries of the awaiting expression are destroyed. -/
def leave (state : State Ptr) (operation : Nat) : State Ptr :=
  { state with
    memory := fun name => if name.operation = operation then none else state.memory name }

/-- The next of the tasks. A coroutine reads its result and leaves the expression. -/
def resume (state : State Ptr) : State Ptr :=
  match state.tasks with
  | [] => state
  | .awaiting operation :: rest =>
      { state.leave operation with
        tasks := rest
        resumed := Function.update state.resumed operation
          (state.resumed operation ++ [(state.memory ⟨operation, .lhs⟩).bind UringOp.mRes]) }
  | .null :: rest | .noop :: rest | .stale :: rest => { state with tasks := rest }

end State

inductive Action (Ptr : Type) where
  | start (operation : Nat) (what : Awaited)
  /-- What the running coroutine does to the timers. -/
  | setTimers (context : GenericIOContext Ptr)
  | turn (now : TimePoint)
  /-- The wait ends with ETIME or EINTR. -/
  | timedOut
  | complete (batch : List Completion)
  | resume

variable [DecidableEq Ptr]

/-- The UringOps of outstanding entries are objects of a 64-bit address space, and the
completion ring counts in 32 bits. -/
def Enabled (fuel : Nat) (state : State Ptr) : Action Ptr → Prop
  | .start operation _ =>
      state.control = .running ∧ state.awaited operation = none ∧
        state.outstanding + 2 < 2 ^ 64
  | .setTimers _ => state.control = .running
  | .turn now =>
      state.control = .running ∧ state.tasks = [] ∧
        (state.mGenericIO.runDurationTurn fuel now).isOk = true
  | .timedOut => state.control.waits = true
  | .complete batch =>
      state.control.waits = true ∧ batch.length < 2 ^ 32 ∧
        ∀ name ∈ named batch, (named batch).count name ≤ state.due name
  | .resume => state.tasks ≠ []

instance (fuel : Nat) (state : State Ptr) (action : Action Ptr) :
    Decidable (Enabled fuel state action) :=
  match action with
  | .start operation _ =>
      inferInstanceAs (Decidable (_ ∧ state.awaited operation = none ∧ _))
  | .setTimers _ => inferInstanceAs (Decidable (state.control = .running))
  | .turn _ => inferInstanceAs (Decidable (_ ∧ _ ∧ _))
  | .timedOut => inferInstanceAs (Decidable (state.control.waits = true))
  | .complete batch =>
      inferInstanceAs (Decidable (_ ∧ _ ∧ ∀ name ∈ named batch, _))
  | .resume => inferInstanceAs (Decidable (state.tasks ≠ []))

def next (fuel : Nat) (state : State Ptr) : Action Ptr → State Ptr
  | .start operation what => state.start operation what
  | .setTimers context => { state with mGenericIO := context }
  | .turn now => state.turn fuel now
  | .timedOut => { state with control := .running }
  | .complete batch => state.waitEventsFor batch
  | .resume => state.resume

def machine (Ptr : Type) [DecidableEq Ptr] (fuel : Nat) (mMaxSleep : Duration) :
    Machine (State Ptr) (Action Ptr) :=
  { initial := .initial mMaxSleep
    Enabled := Enabled fuel
    next := next fuel }

instance (fuel : Nat) (mMaxSleep : Duration) (state : State Ptr) (action : Action Ptr) :
    Decidable ((machine Ptr fuel mMaxSleep).Enabled state action) :=
  inferInstanceAs (Decidable (Enabled fuel state action))

end IOContext

end MCoro
