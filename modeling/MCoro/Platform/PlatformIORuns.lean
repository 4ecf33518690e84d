/-
The number of pending entries, and who is resumed, over whole runs.

Each batch lowers the number by its completions, so it is that of the outstanding
entries as long as every completion is the only one of its entry. A SEND_ZC entry
has two, and the timeout that liburing submits for itself has no entry.
-/

import MCoro.Library.Faults
import MCoro.Platform.UringLifetimes

namespace MCoro.IOContext

variable {Ptr : Type}

/-- No completion is that of a SEND_ZC entry or of liburing's own timeout, and none is that
of a linked timeout whose operation has completed in an earlier batch. -/
def Plain (state : State Ptr) : Action Ptr → Prop
  | .complete batch =>
      (∀ cqe ∈ batch, cqe.userData.isSome = true) ∧
        ∀ name ∈ named batch, state.awaited name.operation ≠ some .sendZc ∧
          (name.role = .rhs → state.due ⟨name.operation, .lhs⟩ ≠ 0)
  | .start _ _ | .setTimers _ | .turn _ | .timedOut | .resume => True

instance (state : State Ptr) (action : Action Ptr) : Decidable (Plain state action) :=
  match action with
  | .complete _ => inferInstanceAs (Decidable (_ ∧ _))
  | .start _ _ | .setTimers _ | .turn _ | .timedOut | .resume => isTrue trivial

/-! ### The invariant -/

/-- No completion of a SEND_ZC entry has been consumed yet, and all others were the only
ones of their entries. -/
structure Accounts (state : State Ptr) : Prop where
  lifetimes : Lifetimes state
  counter : state.mPlatformIO.mNumSqesPending.toNat = state.outstanding
  single : ∀ name, state.awaited name.operation ≠ some .sendZc → state.due name ≤ 1
  double : ∀ operation, state.awaited operation = some .sendZc →
    state.due ⟨operation, .lhs⟩ = 2
  once : ∀ operation, (state.resumed operation).length + state.tasks.count (.awaiting operation) +
    min 1 (state.due ⟨operation, .lhs⟩) = if (state.awaited operation).isSome then 1 else 0
  living : .stale ∉ state.tasks

theorem Accounts.initial (mMaxSleep : Duration) :
    Accounts (State.initial mMaxSleep : State Ptr) :=
  { lifetimes := Lifetimes.initial mMaxSleep
    counter := rfl
    single := fun _ _ => Nat.zero_le _
    double := by
      intro operation known
      cases known
    once := fun _ => rfl
    living := List.not_mem_nil }

theorem State.Started.outstanding {before after : State Ptr} {operation : Nat} {what : Awaited}
    (started : Started before after operation what)
    (apart : ∀ name ∈ before.entries, name ∉ what.names operation) :
    after.outstanding = (what.names operation).length + before.outstanding := by
  unfold State.outstanding
  rw [started.entries, Population.total_append]
  congr 1
  · apply Population.total_eq_length
    intro name new
    rw [started.due name new]
    have some_ := what.completions_ne_zero
    omega
  · apply Population.total_congr
    intro name old
    rw [started.due_other name (apart name old)]

theorem Accounts.start {state : State Ptr} (accounts : Accounts state) {operation : Nat}
    (running : state.control = .running) (fresh : state.awaited operation = none)
    (room : state.outstanding + 2 < 2 ^ 64) (what : Awaited) :
    Accounts (state.start operation what) := by
  have lifetimes := accounts.lifetimes
  have started := state.started operation what
  have unnamed : ∀ name : OpName, name.operation ≠ operation → name ∉ what.names operation :=
    fun name different member => different (Awaited.operation_of_mem_names member)
  have apart : ∀ name ∈ state.entries, name ∉ what.names operation := by
    intro name old new
    rcases (lifetimes.listed name).1 old with ⟨other, known, _⟩
    rw [Awaited.operation_of_mem_names new, fresh] at known
    cases known
  have first := what.lhs_mem_names operation
  constructor
  case lifetimes => exact lifetimes.start running fresh what
  case counter =>
    have few := what.length_names_le operation
    rw [started.pending, started.outstanding apart, UInt64.toNat_add, UInt64.toNat_ofNat',
      accounts.counter, Nat.mod_eq_of_lt (by omega : (what.names operation).length < 2 ^ 64),
      Nat.mod_eq_of_lt (by omega)]
    exact Nat.add_comm ..
  case single =>
    intro name plain
    rw [started.awaited] at plain
    by_cases new : name ∈ what.names operation
    · rw [Awaited.operation_of_mem_names new, Function.update_self] at plain
      rw [started.due name new, Awaited.completions_of_ne (fun same => plain (congrArg some same))]
    · rw [started.due_other name new]
      apply accounts.single name
      by_cases same : name.operation = operation
      · rw [same, fresh]
        nofun
      · rw [Function.update_of_ne same] at plain
        exact plain
  case double =>
    intro probe known
    rw [started.awaited] at known
    by_cases same : probe = operation
    · subst same
      rw [Function.update_self] at known
      cases known
      exact started.due _ first
    · rw [Function.update_of_ne same] at known
      rw [started.due_other _ (unnamed _ same)]
      exact accounts.double probe known
  case once =>
    intro probe
    have before := accounts.once probe
    rw [started.resumed, started.tasks, started.awaited]
    by_cases same : probe = operation
    · subst same
      have some_ := what.completions_ne_zero
      rw [fresh] at before
      change _ = 0 at before
      rw [Function.update_self, started.due _ first]
      change _ = 1
      omega
    · rw [Function.update_of_ne same, started.due_other _ (unnamed _ same)]
      exact before
  case living =>
    rw [started.tasks]
    exact accounts.living

/-! ### The other steps -/

theorem Accounts.relocate {state : State Ptr} (accounts : Accounts state)
    (context : GenericIOContext Ptr) {control : Control}
    (idle : control.waits = true → state.tasks = []) :
    Accounts { state with mGenericIO := context, control := control } :=
  { lifetimes := accounts.lifetimes.relocate context idle
    counter := accounts.counter
    single := accounts.single
    double := accounts.double
    once := accounts.once
    living := accounts.living }

theorem Accounts.left {before after : State Ptr} (accounts : Accounts before) {operation : Nat}
    {rest : List Handle} (tasks : before.tasks = .awaiting operation :: rest)
    (left : before.Left after operation rest) : Accounts after := by
  constructor
  case lifetimes => exact accounts.lifetimes.left tasks left
  case counter =>
    unfold State.outstanding
    rw [left.pending, left.entries, left.due]
    exact accounts.counter
  case single =>
    rw [left.awaited, left.due]
    exact accounts.single
  case double =>
    rw [left.awaited, left.due]
    exact accounts.double
  case once =>
    intro probe
    have sum := accounts.once probe
    rw [tasks] at sum
    rw [left.resumed, left.tasks, left.due, left.awaited]
    by_cases same : probe = operation
    · subst same
      rw [List.count_cons_self] at sum
      rw [Function.update_self, List.length_append, List.length_singleton]
      omega
    · rw [List.count_cons_of_ne (Handle.awaiting_ne same).symm] at sum
      rw [Function.update_of_ne same]
      exact sum
  case living =>
    intro stale
    apply accounts.living
    rw [left.tasks] at stale
    rw [tasks]
    exact List.mem_cons_of_mem _ stale

theorem Accounts.skip {state : State Ptr} (accounts : Accounts state) {task : Handle}
    {rest : List Handle} (tasks : state.tasks = task :: rest)
    (other : ∀ operation, task ≠ .awaiting operation) :
    Accounts { state with tasks := rest } := by
  constructor
  case lifetimes => exact accounts.lifetimes.skip tasks other
  case counter => exact accounts.counter
  case single => exact accounts.single
  case double => exact accounts.double
  case once =>
    intro probe
    have sum := accounts.once probe
    rw [tasks, List.count_cons_of_ne (other probe)] at sum
    exact sum
  case living =>
    intro stale
    apply accounts.living
    rw [tasks]
    exact List.mem_cons_of_mem _ stale

theorem Accounts.resume {state : State Ptr} (accounts : Accounts state)
    (busy : state.tasks ≠ []) : Accounts state.resume := by
  rcases List.exists_cons_of_ne_nil busy with ⟨task, rest, tasks⟩
  rcases State.resume_cases tasks with ⟨operation, same, left⟩ | ⟨other, resumed⟩
  · subst same
    exact accounts.left tasks left
  · rw [resumed]
    exact accounts.skip tasks other

/-! ### Batches -/

theorem Lifetimes.count_named {state : State Ptr} (lifetimes : Lifetimes state)
    {batch : List Completion}
    (posted : ∀ name ∈ named batch, (named batch).count name ≤ state.due name) :
    Population.total id state.entries (fun name => (named batch).count name) =
      (named batch).length := by
  apply Population.total_count lifetimes.distinct
  intro name member
  exact lifetimes.due_listed name (owed_of_posted posted member)

theorem State.due_waitEventsFor (state : State Ptr) (batch : List Completion) (name : OpName) :
    (state.waitEventsFor batch).due name = state.due name - (named batch).count name :=
  rfl

theorem Lifetimes.outstanding_le {state : State Ptr} (lifetimes : Lifetimes state)
    {batch : List Completion}
    (posted : ∀ name ∈ named batch, (named batch).count name ≤ state.due name) :
    state.outstanding ≤ (state.waitEventsFor batch).outstanding + (named batch).length := by
  rw [← lifetimes.count_named posted]
  apply Population.total_le_add
  intro name _
  rw [State.due_waitEventsFor]
  omega

theorem Lifetimes.outstanding_lt {state : State Ptr} (lifetimes : Lifetimes state)
    {batch : List Completion}
    (posted : ∀ name ∈ named batch, (named batch).count name ≤ state.due name)
    {name : OpName} (member : name ∈ named batch) (double : state.due name = 2) :
    state.outstanding < (state.waitEventsFor batch).outstanding + (named batch).length := by
  rw [← lifetimes.count_named posted]
  apply Population.total_lt_add _ (lifetimes.due_listed name (owed_of_posted posted member))
  · have some_ := List.count_pos_iff.2 member
    have bound := posted name member
    rw [State.due_waitEventsFor]
    omega
  · intro name _
    rw [State.due_waitEventsFor]
    omega

theorem Lifetimes.outstanding_eq {state : State Ptr} (lifetimes : Lifetimes state)
    {batch : List Completion}
    (posted : ∀ name ∈ named batch, (named batch).count name ≤ state.due name)
    (single : ∀ name ∈ named batch, state.due name ≤ 1) :
    state.outstanding = (state.waitEventsFor batch).outstanding + (named batch).length := by
  rw [← lifetimes.count_named posted]
  apply Population.total_eq_add
  intro name _
  rw [State.due_waitEventsFor]
  by_cases member : name ∈ named batch
  · have bound := posted name member
    have one := single name member
    omega
  · rw [List.count_eq_zero_of_not_mem member]
    rfl

/-- In a batch, a UringOp with one completion exists as long as the first UringOp of its
operation is still to complete. -/
theorem Lifetimes.task_cases {state : State Ptr} (lifetimes : Lifetimes state)
    (waits : state.control.waits = true) {name : OpName} (owed : state.due name ≠ 0)
    (plain : state.awaited name.operation ≠ some .sendZc) :
    state.due ⟨name.operation, .lhs⟩ ≠ 0 ∧ state.task name = name.handle ∨
      state.due ⟨name.operation, .lhs⟩ = 0 ∧ state.task name = .stale := by
  rcases (lifetimes.listed name).1 (lifetimes.due_listed name owed) with ⟨what, known, listed⟩
  have different : what ≠ .sendZc := by
    intro same
    rw [same] at known
    exact plain known
  have living := lifetimes.living name what known different listed
  rw [lifetimes.idle waits, or_iff_left List.not_mem_nil] at living
  unfold State.task
  cases found : state.handle name with
  | none =>
      rw [found] at living
      right
      refine ⟨?_, rfl⟩
      by_contra owed
      cases living.2 owed
  | some handle =>
      rw [found] at living
      left
      refine ⟨living.1 rfl, ?_⟩
      exact (lifetimes.handles name handle found).2

theorem State.pending_waitEventsFor {state : State Ptr} {batch : List Completion}
    (short : batch.length < 2 ^ 32)
    (within : batch.length ≤ state.mPlatformIO.mNumSqesPending.toNat) :
    (State.mPlatformIO (state.waitEventsFor batch)).mNumSqesPending.toNat =
      state.mPlatformIO.mNumSqesPending.toNat - batch.length := by
  have numGot := (PlatformIOContext.Gathered.foldl_take
    { memory := state.memory
      tasks := []
      numGot := 0 } batch).2.2
  unfold waitEventsFor
  simp only
  rw [numGot, UInt32.zero_add]
  have size : (UInt32.ofNat batch.length).toUInt64.toNat = batch.length := by
    rw [UInt32.toNat_toUInt64, UInt32.toNat_ofNat', Nat.mod_eq_of_lt short]
  rw [UInt64.toNat_sub_of_le, size]
  rw [UInt64.le_iff_toNat_le, size]
  exact within

theorem Accounts.complete {state : State Ptr} (accounts : Accounts state)
    (waits : state.control.waits = true) {batch : List Completion}
    (short : batch.length < 2 ^ 32)
    (posted : ∀ name ∈ named batch, (named batch).count name ≤ state.due name)
    (plain : Plain state (.complete batch)) :
    batch.length ≤ state.mPlatformIO.mNumSqesPending.toNat ∧
      Accounts (state.waitEventsFor batch) := by
  have lifetimes := accounts.lifetimes
  have idle := lifetimes.idle waits
  rcases plain with ⟨whole, plain⟩
  have owed : ∀ name ∈ named batch, state.due name ≠ 0 :=
    fun name member => owed_of_posted posted member
  have single : ∀ name ∈ named batch, state.due name ≤ 1 :=
    fun name member => accounts.single name (plain name member).1
  have all : (named batch).length = batch.length := List.filterMap_length_eq_length.2 whole
  have ended := lifetimes.outstanding_eq posted single
  have within : batch.length ≤ state.mPlatformIO.mNumSqesPending.toNat := by
    rw [accounts.counter]
    omega
  have tasks : (state.waitEventsFor batch).tasks = (named batch).map OpName.handle := by
    rw [State.tasks_waitEventsFor]
    apply List.map_congr_left
    intro name member
    rcases lifetimes.task_cases waits (owed name member) (plain name member).1 with
      ⟨_, task⟩ | ⟨late, _⟩
    · exact task
    · cases role : name.role with
      | lhs =>
          rw [← role] at late
          exact absurd late (owed name member)
      | rhs => exact absurd late ((plain name member).2 role)
  refine ⟨within, ?_⟩
  constructor
  case lifetimes => exact lifetimes.complete waits posted
  case counter =>
    rw [State.pending_waitEventsFor short within, accounts.counter]
    omega
  case single =>
    intro name plain
    have before := accounts.single name plain
    rw [State.due_waitEventsFor]
    omega
  case double =>
    intro operation known
    have untouched : ⟨operation, .lhs⟩ ∉ named batch :=
      fun member => (plain _ member).1 known
    rw [State.due_waitEventsFor, List.count_eq_zero_of_not_mem untouched]
    exact accounts.double operation known
  case once =>
    intro operation
    have before := accounts.once operation
    have read : ((named batch).map OpName.handle).count (.awaiting operation) =
        (named batch).count ⟨operation, .lhs⟩ := OpName.count_handle operation (named batch)
    rw [idle, List.count_nil] at before
    rw [tasks, read, State.due_waitEventsFor]
    change (state.resumed operation).length + _ + _ =
      if (state.awaited operation).isSome then 1 else 0
    by_cases taken : ⟨operation, .lhs⟩ ∈ named batch
    · have one := single _ taken
      have bound := posted _ taken
      omega
    · rw [List.count_eq_zero_of_not_mem taken]
      exact before
  case living =>
    rw [tasks]
    intro member
    rcases List.mem_map.1 member with ⟨name, _, stale⟩
    unfold OpName.handle at stale
    cases role : name.role with
    | lhs | rhs =>
        rw [role] at stale
        cases stale

/-! ### The end of run -/

theorem State.runOnce_returned {state : State Ptr} (duration : Option Duration) :
    (state.runOnce duration).control = .returned ↔
      duration = none ∧ state.mPlatformIO.hasPendingEvents = false := by
  unfold runOnce
  by_cases done : duration = none ∧ ¬state.mPlatformIO.hasPendingEvents
  · rw [if_pos done]
    exact ⟨fun _ => ⟨done.1, Bool.eq_false_iff.2 done.2⟩, fun _ => rfl⟩
  · rw [if_neg done]
    constructor
    · intro returned
      cases returned
    · intro both
      exact absurd ⟨both.1, Bool.eq_false_iff.1 both.2⟩ done

theorem hasPendingEvents_eq_false_iff (context : PlatformIOContext) :
    context.hasPendingEvents = false ↔ context.mNumSqesPending.toNat = 0 := by
  unfold PlatformIOContext.hasPendingEvents
  rw [decide_eq_false_iff_not, not_not, ← UInt64.toNat_inj]
  rfl

/-! ### Settled states and exact steps -/

variable [DecidableEq Ptr]

/-- The number is right, every operation is outstanding, about to be resumed or has been
resumed once, every coroutine about to be resumed was read from a UringOp that existed,
and run is about to return if and only if nothing is left to wait for. -/
structure Settled (fuel : Nat) (state : State Ptr) : Prop where
  counter : state.mPlatformIO.mNumSqesPending.toNat = state.outstanding
  once : ∀ operation, (state.resumed operation).length + state.tasks.count (.awaiting operation) +
    min 1 (state.due ⟨operation, .lhs⟩) = if (state.awaited operation).isSome then 1 else 0
  living : .stale ∉ state.tasks
  returns : ∀ now, Enabled fuel state (.turn now) →
    ((state.turn fuel now).control = .returned ↔
      state.mGenericIO.mTimers.isEmpty = true ∧ state.outstanding = 0)

/-- A step after which all is settled and which has not lowered the number below zero. -/
def Exact (fuel : Nat) (state : State Ptr) (action : Action Ptr) : Prop :=
  Settled fuel (next fuel state action) ∧
    ∀ batch, action = .complete batch → batch.length ≤ state.mPlatformIO.mNumSqesPending.toNat

theorem isEmpty_of_runDurationTurn {context after : GenericIOContext Ptr} {fuel : Nat}
    {now : TimePoint} (idle : context.runDurationTurn fuel now = .ok (after, .returned none)) :
    context.mTimers.isEmpty = true := by
  by_contra some_
  unfold GenericIOContext.runDurationTurn at idle
  rw [if_neg some_] at idle
  obtain ⟨promise, _, turned⟩ := Faults.exists_of_bind idle
  by_cases due : context.mExpires promise ≤ now
  · rw [if_pos due] at turned
    obtain ⟨left, _, made⟩ := Faults.exists_of_bind turned
    cases made
  · rw [if_neg due] at turned
    cases turned

theorem State.turn_returned {state : State Ptr} (running : state.control = .running) (fuel : Nat)
    (now : TimePoint) :
    (state.turn fuel now).control = .returned ↔
      state.mGenericIO.mTimers.isEmpty = true ∧
        state.mPlatformIO.hasPendingEvents = false := by
  have empty : state.mGenericIO.mTimers.isEmpty = true →
      state.mGenericIO.runDurationTurn fuel now = .ok (state.mGenericIO, .returned none) :=
    fun none_ => GenericIOContext.runDurationTurn_idle none_ fuel now
  unfold turn
  cases result : state.mGenericIO.runDurationTurn fuel now with
  | error fault =>
      simp only
      rw [running]
      constructor
      · intro returned
        cases returned
      · intro both
        rw [empty both.1] at result
        cases result
  | ok pair =>
      rcases pair with ⟨context, turn⟩
      cases turn with
      | resumed promise =>
          simp only
          rw [running]
          constructor
          · intro returned
            cases returned
          · intro both
            rw [empty both.1] at result
            cases result
      | returned remaining =>
          simp only
          rw [runOnce_returned]
          constructor
          · rintro ⟨none_, idle⟩
            subst none_
            exact ⟨isEmpty_of_runDurationTurn result, idle⟩
          · rintro ⟨none_, idle⟩
            rw [empty none_] at result
            cases result
            exact ⟨rfl, idle⟩

theorem Accounts.settled {state : State Ptr} (accounts : Accounts state) (fuel : Nat) :
    Settled fuel state :=
  { counter := accounts.counter
    once := accounts.once
    living := accounts.living
    returns := by
      intro now enabled
      rw [State.turn_returned enabled.1, hasPendingEvents_eq_false_iff, accounts.counter] }

/-! ### Runs -/

theorem Accounts.step {fuel : Nat} {state : State Ptr} {action : Action Ptr}
    (accounts : Accounts state) (enabled : Enabled fuel state action)
    (plain : Plain state action) : Accounts (next fuel state action) := by
  cases action with
  | start operation what => exact accounts.start enabled.1 enabled.2.1 enabled.2.2 what
  | setTimers context => exact accounts.relocate context accounts.lifetimes.idle
  | turn now =>
      rcases State.turn_eq fuel state now with ⟨context, control, same⟩
      change Accounts (state.turn fuel now)
      rw [same]
      exact accounts.relocate context fun _ => enabled.2.1
  | timedOut =>
      apply accounts.relocate state.mGenericIO
      intro waits
      cases waits
  | complete batch => exact (accounts.complete enabled.1 enabled.2.1 enabled.2.2 plain).2
  | resume => exact accounts.resume enabled

/-- Where all is settled after a batch, each of its completions was the only one of its
entry, and each UringOp was there. -/
theorem Accounts.plain_of_exact {fuel : Nat} {state : State Ptr} {batch : List Completion}
    (accounts : Accounts state) (enabled : Enabled fuel state (.complete batch))
    (exact_ : Exact fuel state (.complete batch)) : Plain state (.complete batch) := by
  rcases enabled with ⟨waits, short, posted⟩
  have lifetimes := accounts.lifetimes
  have within := exact_.2 batch rfl
  have counter : (State.mPlatformIO (state.waitEventsFor batch)).mNumSqesPending.toNat =
      (state.waitEventsFor batch).outstanding := exact_.1.counter
  rw [State.pending_waitEventsFor short within, accounts.counter] at counter
  rw [accounts.counter] at within
  have most := lifetimes.outstanding_le posted
  have fewer : (named batch).length ≤ batch.length := List.length_filterMap_le ..
  constructor
  · apply List.filterMap_length_eq_length.1
    change (named batch).length = batch.length
    omega
  · intro name member
    have owed := owed_of_posted posted member
    have plain : state.awaited name.operation ≠ some .sendZc := by
      intro known
      have listed := lifetimes.due_listed name owed
      rcases (lifetimes.listed name).1 listed with ⟨what, same, new⟩
      rw [known] at same
      cases same
      have double := accounts.double name.operation known
      rw [← List.mem_singleton.1 new] at double
      have less := lifetimes.outstanding_lt posted member double
      omega
    refine ⟨plain, ?_⟩
    intro _ late
    rcases lifetimes.task_cases waits owed plain with ⟨first, _⟩ | ⟨_, stale⟩
    · exact first late
    · apply exact_.1.living
      change .stale ∈ (state.waitEventsFor batch).tasks
      rw [State.tasks_waitEventsFor]
      exact List.mem_map.2 ⟨name, member, stale⟩

theorem Accounts.exact_iff {fuel : Nat} {state : State Ptr} {action : Action Ptr}
    (accounts : Accounts state) (enabled : Enabled fuel state action) :
    Exact fuel state action ↔ Plain state action := by
  cases action with
  | complete batch =>
      constructor
      · exact accounts.plain_of_exact enabled
      · intro plain
        rcases accounts.complete enabled.1 enabled.2.1 enabled.2.2 plain with ⟨within, after⟩
        refine ⟨after.settled fuel, ?_⟩
        intro other same
        cases same
        exact within
  | start _ _ | setTimers _ | turn _ | timedOut | resume =>
      constructor
      · exact fun _ => trivial
      · intro plain
        refine ⟨(accounts.step enabled plain).settled fuel, ?_⟩
        intro batch same
        cases same

/-- Any operations, any batching of their completions: the number of pending entries is
right after every step, with all that follows from it, exactly in the runs that take no
completion of a SEND_ZC entry or of liburing's own timeout, and none of a linked timeout
after the batch of its operation. -/
theorem exact_iff_plain (Ptr : Type) [DecidableEq Ptr] (fuel : Nat) (mMaxSleep : Duration)
    (actions : List (Action Ptr))
    (runs : (machine Ptr fuel mMaxSleep).Runs (.initial mMaxSleep) actions) :
    (machine Ptr fuel mMaxSleep).Along (Exact fuel) (.initial mMaxSleep) actions ↔
      (machine Ptr fuel mMaxSleep).Along Plain (.initial mMaxSleep) actions := by
  apply Machine.along_iff_of_invariant Accounts ?_ ?_ (Accounts.initial mMaxSleep) runs
  · intro state action accounts enabled plain
    exact accounts.step enabled plain
  · intro state action accounts enabled
    exact accounts.exact_iff enabled

/-- A linked operation and another one complete in two batches. -/
theorem exact_iff_plain_two_batches :
    (machine Nat 1 200).Along (Exact 1) (.initial 200)
        [.start 0 .linked, .start 1 .single, .turn 0,
          .complete [⟨some ⟨0, .lhs⟩, 5⟩, ⟨some ⟨0, .rhs⟩, -125⟩], .resume, .resume, .turn 1,
          .complete [⟨some ⟨1, .lhs⟩, 0⟩], .resume, .turn 2] :=
  (exact_iff_plain Nat 1 200 _ (by decide +kernel)).2 (by decide +kernel)

/-- The result of a SEND_ZC entry lowers the number to zero, although its notification is
still to come. -/
theorem result_of_send_zc_counts_as_last :
    ¬∀ (actions : List (Action Nat)), (machine Nat 1 200).Runs (.initial 200) actions →
      (machine Nat 1 200).Along (Exact 1) (.initial 200) actions := by
  intro claimed
  have exact_ := claimed [.start 0 .sendZc, .turn 0, .complete [⟨some ⟨0, .lhs⟩, 5⟩]]
    (by decide +kernel)
  have counter := exact_.2.2.1.1.counter
  exact absurd counter (by decide +kernel)

end MCoro.IOContext
