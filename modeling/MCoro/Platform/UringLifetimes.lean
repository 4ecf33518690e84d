/-
Which UringOps exist while completions for them come in.

The UringOps of an operation exist from its start until its coroutine is resumed,
which happens in the batch that has the completion of the first one. A second one
whose completion is in a later batch is no more.
-/

import MCoro.Platform.PlatformIO

namespace MCoro

open IOContext (named)

/-! ### The loop over a batch -/

namespace PlatformIOContext.Gathered

/-- Every UringOp of link_ops that the loop writes to and reads from exists when it
comes to it. -/
def OnlyLiving (awaited : Nat → Option Awaited) (gathered : Gathered) : List Completion → Prop
  | [] => True
  | cqe :: rest =>
      (∀ name ∈ cqe.userData, awaited name.operation = some .linked →
          (gathered.memory name).isSome = true) ∧
        OnlyLiving awaited (gathered.take cqe) rest

def handle (gathered : Gathered) (name : OpName) : Option Handle :=
  (gathered.memory name).map UringOp.mPrevious

theorem take_handle (gathered : Gathered) (cqe : Completion) :
    (gathered.take cqe).handle = gathered.handle := by
  funext probe
  unfold take
  cases cqe.userData with
  | none => rfl
  | some name =>
      cases found : gathered.memory name with
      | none => simp only [found]; rfl
      | some op =>
          simp only [found]
          unfold handle
          simp only
          by_cases same : probe = name
          · subst same
            rw [Function.update_self, found]
            rfl
          · rw [Function.update_of_ne same]

theorem take_tasks (gathered : Gathered) (cqe : Completion) :
    (gathered.take cqe).tasks =
      gathered.tasks ++ (named [cqe]).map fun name => (gathered.handle name).getD .stale := by
  unfold take named
  cases userData : cqe.userData with
  | none =>
      rw [List.filterMap_cons_none userData, List.filterMap_nil, List.map_nil, List.append_nil]
  | some name =>
      rw [List.filterMap_cons_some userData, List.filterMap_nil]
      unfold handle
      cases found : gathered.memory name with
      | none =>
          simp only [found]
          rw [List.map_singleton, found]
          rfl
      | some op =>
          simp only [found]
          rw [List.map_singleton, found]
          rfl

theorem take_numGot (gathered : Gathered) (cqe : Completion) :
    (gathered.take cqe).numGot = gathered.numGot + 1 := by
  unfold take
  cases cqe.userData with
  | none => rfl
  | some name =>
      cases found : gathered.memory name with
      | none => simp only [found]
      | some op => simp only [found]

theorem foldl_take (gathered : Gathered) (batch : List Completion) :
    (batch.foldl take gathered).handle = gathered.handle ∧
      (batch.foldl take gathered).tasks =
        gathered.tasks ++ (named batch).map (fun name => (gathered.handle name).getD .stale) ∧
      (batch.foldl take gathered).numGot = gathered.numGot + UInt32.ofNat batch.length := by
  induction batch generalizing gathered with
  | nil =>
      refine ⟨rfl, ?_, ?_⟩
      · exact (List.append_nil _).symm
      · exact (UInt32.add_zero _).symm
  | cons cqe rest ih =>
      rcases ih (gathered.take cqe) with ⟨handles, tasks, numGot⟩
      rw [take_handle] at handles tasks
      rw [List.foldl_cons]
      refine ⟨handles, ?_, ?_⟩
      · rw [tasks, take_tasks, List.append_assoc, ← List.map_append]
        have split : named (cqe :: rest) = named [cqe] ++ named rest :=
          List.filterMap_append (l := [cqe])
        rw [split]
      · rw [numGot, take_numGot, List.length_cons, UInt32.ofNat_add, UInt32.add_assoc,
          UInt32.add_comm 1]
        rfl

theorem handle_isSome (gathered : Gathered) (name : OpName) :
    (gathered.handle name).isSome = (gathered.memory name).isSome :=
  Option.isSome_map

theorem onlyLiving_iff (awaited : Nat → Option Awaited) (gathered : Gathered)
    (batch : List Completion) :
    OnlyLiving awaited gathered batch ↔
      ∀ name ∈ named batch, awaited name.operation = some .linked →
        (gathered.memory name).isSome = true := by
  induction batch generalizing gathered with
  | nil => exact ⟨fun _ _ member => (List.not_mem_nil member).elim, fun _ => trivial⟩
  | cons cqe rest ih =>
      have same : ∀ name, ((gathered.take cqe).memory name).isSome =
          (gathered.memory name).isSome := by
        intro name
        rw [← handle_isSome, take_handle, handle_isSome]
      unfold OnlyLiving
      rw [ih]
      simp only [same]
      unfold named
      cases userData : cqe.userData with
      | none =>
          rw [List.filterMap_cons_none userData]
          exact ⟨fun both => both.2, fun all => ⟨nofun, all⟩⟩
      | some name =>
          rw [List.filterMap_cons_some userData, List.forall_mem_cons]
          constructor
          · intro both
            exact ⟨both.1 name rfl, both.2⟩
          · intro both
            refine ⟨?_, both.2⟩
            intro other equal
            cases equal
            exact both.1

end PlatformIOContext.Gathered

/-! ### What a start does -/

/-- What await_suspend and link_ops leave in mPrevious. -/
def OpName.handle (name : OpName) : Handle :=
  match name.role with
  | .lhs => .awaiting name.operation
  | .rhs => .noop

theorem OpName.handle_eq_awaiting_iff {name : OpName} {operation : Nat} :
    name.handle = .awaiting operation ↔ name = ⟨operation, .lhs⟩ := by
  cases name with
  | mk probe role =>
      cases role with
      | lhs =>
          change Handle.awaiting probe = .awaiting operation ↔ _
          rw [Handle.awaiting.injEq, OpName.mk.injEq]
          exact (and_iff_left rfl).symm
      | rhs =>
          constructor
          · intro same
            cases same
          · intro same
            cases same

theorem OpName.count_handle (operation : Nat) (names : List OpName) :
    (names.map OpName.handle).count (.awaiting operation) = names.count ⟨operation, .lhs⟩ := by
  unfold List.count
  rw [List.countP_map]
  apply List.countP_congr
  intro name _
  change (name.handle == _) = true ↔ _
  rw [beq_iff_eq, beq_iff_eq]
  exact handle_eq_awaiting_iff

namespace Awaited

def names (operation : Nat) : Awaited → List OpName
  | single | sendZc => [⟨operation, .lhs⟩]
  | linked => [⟨operation, .rhs⟩, ⟨operation, .lhs⟩]

def completions : Awaited → Nat
  | single | linked => 1
  | sendZc => 2

theorem lhs_mem_names (operation : Nat) (what : Awaited) :
    ⟨operation, .lhs⟩ ∈ what.names operation := by
  cases what with
  | single | sendZc => exact List.mem_singleton_self _
  | linked => exact List.mem_cons_of_mem _ (List.mem_singleton_self _)

theorem operation_of_mem_names {name : OpName} {operation : Nat} {what : Awaited}
    (member : name ∈ what.names operation) : name.operation = operation := by
  cases what with
  | single | sendZc => rw [List.mem_singleton.1 member]
  | linked =>
      rcases List.mem_cons.1 member with same | rest
      · rw [same]
      · rw [List.mem_singleton.1 rest]

theorem nodup_names (operation : Nat) (what : Awaited) : (what.names operation).Nodup := by
  cases what with
  | single | sendZc => exact List.nodup_singleton _
  | linked =>
      rw [names, List.nodup_cons, List.mem_singleton]
      refine ⟨?_, List.nodup_singleton _⟩
      intro same
      cases same

theorem length_names_le (operation : Nat) (what : Awaited) :
    (what.names operation).length ≤ 2 := by
  cases what with
  | single | sendZc => exact Nat.le_succ 1
  | linked => exact Nat.le_refl 2

theorem completions_ne_zero (what : Awaited) : what.completions ≠ 0 := by
  cases what <;> decide

theorem completions_of_ne {what : Awaited} (plain : what ≠ .sendZc) : what.completions = 1 := by
  cases what with
  | single | linked => rfl
  | sendZc => exact absurd rfl plain

end Awaited

namespace IOContext

variable {Ptr : Type}

namespace State

def handle (state : State Ptr) (name : OpName) : Option Handle :=
  (state.memory name).map UringOp.mPrevious

theorem handle_construct (state : State Ptr) (name : OpName) (completions : Nat) :
    (state.construct name completions).handle =
      Function.update state.handle name (some .null) :=
  Function.comp_update ..

theorem handle_modify (state : State Ptr) (name : OpName) {change : UringOp → UringOp}
    {handle : Handle} (sets : ∀ op, (change op).mPrevious = handle) :
    (state.modify name change).handle =
      Function.update state.handle name ((state.handle name).map fun _ => handle) := by
  have changed : ((state.memory name).map change).map UringOp.mPrevious =
      (state.handle name).map fun _ => handle := by
    unfold State.handle
    cases state.memory name with
    | none => rfl
    | some op => exact congrArg some (sets op)
  rw [← changed]
  exact Function.comp_update ..

theorem handle_linkOps (state : State Ptr) (rhs : OpName) :
    (state.linkOps rhs).handle =
      Function.update state.handle rhs ((state.handle rhs).map fun _ => .noop) :=
  handle_modify state rhs fun _ => rfl

theorem handle_awaitSuspend (state : State Ptr) (operation : Nat) :
    (state.awaitSuspend operation).handle =
      Function.update state.handle ⟨operation, .lhs⟩
        ((state.handle ⟨operation, .lhs⟩).map fun _ => .awaiting operation) :=
  handle_modify state _ fun _ => rfl

/-- The UringOps of the new operation are there with their handles. -/
structure Started (before after : State Ptr) (operation : Nat) (what : Awaited) : Prop where
  pending : after.mPlatformIO.mNumSqesPending =
    before.mPlatformIO.mNumSqesPending + UInt64.ofNat (what.names operation).length
  control : after.control = before.control
  tasks : after.tasks = before.tasks
  resumed : after.resumed = before.resumed
  awaited : after.awaited = Function.update before.awaited operation (some what)
  entries : after.entries = what.names operation ++ before.entries
  due : ∀ name ∈ what.names operation, after.due name = what.completions
  due_other : ∀ name ∉ what.names operation, after.due name = before.due name
  handle : ∀ name ∈ what.names operation, after.handle name = some name.handle
  handle_other : ∀ name ∉ what.names operation, after.handle name = before.handle name

theorem started_one (state : State Ptr) (operation : Nat) {what : Awaited}
    (one : what.names operation = [⟨operation, .lhs⟩]) :
    Started state
      (({ state with
        awaited := Function.update state.awaited operation (some what) }.construct
          ⟨operation, .lhs⟩ what.completions).awaitSuspend operation) operation what := by
  have handles : (({ state with
        awaited := Function.update state.awaited operation (some what) }.construct
          ⟨operation, .lhs⟩ what.completions).awaitSuspend operation).handle =
      Function.update state.handle ⟨operation, .lhs⟩ (some (.awaiting operation)) := by
    rw [handle_awaitSuspend, handle_construct, Function.update_self, Function.update_idem]
    rfl
  constructor
  case pending =>
    rw [one]
    rfl
  case control => rfl
  case tasks => rfl
  case resumed => rfl
  case awaited => rfl
  case entries =>
    rw [one]
    rfl
  case due =>
    intro name member
    rw [one, List.mem_singleton] at member
    subst member
    exact Function.update_self ..
  case due_other =>
    intro name other
    rw [one, List.mem_singleton] at other
    exact Function.update_of_ne other ..
  case handle =>
    intro name member
    rw [one, List.mem_singleton] at member
    subst member
    rw [handles, Function.update_self]
    rfl
  case handle_other =>
    intro name other
    rw [one, List.mem_singleton] at other
    rw [handles, Function.update_of_ne other]

theorem started (state : State Ptr) (operation : Nat) (what : Awaited) :
    Started state (state.start operation what) operation what := by
  cases what with
  | single => exact started_one state operation rfl
  | sendZc => exact started_one state operation rfl
  | linked =>
      have apart : (⟨operation, .rhs⟩ : OpName) ≠ ⟨operation, .lhs⟩ := by
        intro same
        cases same
      have handles : (state.start operation .linked).handle =
          Function.update (Function.update state.handle ⟨operation, .rhs⟩ (some .noop))
            ⟨operation, .lhs⟩ (some (.awaiting operation)) := by
        unfold start
        simp only
        rw [handle_awaitSuspend, handle_linkOps, handle_construct, handle_construct,
          Function.update_self, Function.update_idem, Function.update_of_ne apart.symm,
          Function.update_self, Function.update_comm apart, Function.update_idem,
          Function.update_comm apart.symm]
        rfl
      constructor
      case pending => exact UInt64.add_assoc ..
      case control => rfl
      case tasks => rfl
      case resumed => rfl
      case awaited => rfl
      case entries => rfl
      case due =>
        intro name member
        rcases List.mem_cons.1 member with same | rest
        · subst same
          exact Function.update_self ..
        · cases List.mem_singleton.1 rest
          exact (Function.update_of_ne apart.symm ..).trans (Function.update_self ..)
      case due_other =>
        intro name other
        have different := List.ne_and_not_mem_of_not_mem_cons other
        have first := List.ne_of_not_mem_cons different.2
        exact (Function.update_of_ne different.1 ..).trans (Function.update_of_ne first ..)
      case handle =>
        intro name member
        rw [handles]
        rcases List.mem_cons.1 member with same | rest
        · subst same
          rw [Function.update_of_ne apart, Function.update_self]
          rfl
        · cases List.mem_singleton.1 rest
          rw [Function.update_self]
          rfl
      case handle_other =>
        intro name other
        have different := List.ne_and_not_mem_of_not_mem_cons other
        have first := List.ne_of_not_mem_cons different.2
        rw [handles, Function.update_of_ne first, Function.update_of_ne different.1]

/-! ### What a batch does -/

/-- The handle that a task has been read as. -/
def task (state : State Ptr) (name : OpName) : Handle :=
  (state.handle name).getD .stale

theorem handle_waitEventsFor (state : State Ptr) (batch : List Completion) :
    (state.waitEventsFor batch).handle = state.handle :=
  (PlatformIOContext.Gathered.foldl_take _ batch).1

theorem tasks_waitEventsFor (state : State Ptr) (batch : List Completion) :
    (state.waitEventsFor batch).tasks = (named batch).map state.task :=
  (PlatformIOContext.Gathered.foldl_take _ batch).2.1

theorem handle_isSome (state : State Ptr) (name : OpName) :
    (state.handle name).isSome = (state.memory name).isSome :=
  Option.isSome_map

end State

/-! ### The invariant -/

/-- The UringOps of an operation whose entries have one completion each exist from its
start to the resumption of its coroutine. -/
structure Lifetimes (state : State Ptr) : Prop where
  idle : state.control.waits = true → state.tasks = []
  distinct : state.entries.Nodup
  listed : ∀ name, name ∈ state.entries ↔
    ∃ what, state.awaited name.operation = some what ∧ name ∈ what.names name.operation
  due_listed : ∀ name, state.due name ≠ 0 → name ∈ state.entries
  handles : ∀ name handle, state.handle name = some handle →
    name ∈ state.entries ∧ handle = name.handle
  tasks_known : ∀ operation, .awaiting operation ∈ state.tasks →
    state.awaited operation ≠ none
  once : ∀ operation what, state.awaited operation = some what → what ≠ .sendZc →
    state.tasks.count (.awaiting operation) + state.due ⟨operation, .lhs⟩ ≤ 1
  living : ∀ name what, state.awaited name.operation = some what → what ≠ .sendZc →
    name ∈ what.names name.operation →
    ((state.handle name).isSome = true ↔
      state.due ⟨name.operation, .lhs⟩ ≠ 0 ∨ .awaiting name.operation ∈ state.tasks)

theorem Lifetimes.initial (mMaxSleep : Duration) :
    Lifetimes (State.initial mMaxSleep : State Ptr) := by
  constructor
  case idle => exact fun _ => rfl
  case distinct => exact List.nodup_nil
  case listed =>
    intro name
    constructor
    · intro member
      cases member
    · rintro ⟨what, known, _⟩
      cases known
  case due_listed => exact fun _ due => absurd rfl due
  case handles =>
    intro name handle found
    cases found
  case tasks_known =>
    intro operation member
    cases member
  case once =>
    intro operation what known
    cases known
  case living =>
    intro name what known
    cases known

theorem Lifetimes.start {state : State Ptr} (lifetimes : Lifetimes state) {operation : Nat}
    (running : state.control = .running) (fresh : state.awaited operation = none)
    (what : Awaited) : Lifetimes (state.start operation what) := by
  have started := state.started operation what
  have unlisted : ∀ name : OpName, name.operation = operation → name ∉ state.entries := by
    intro name same member
    rcases (lifetimes.listed name).1 member with ⟨other, known, _⟩
    rw [same, fresh] at known
    cases known
  have unnamed : ∀ name : OpName, name.operation ≠ operation → name ∉ what.names operation :=
    fun name different member => different (Awaited.operation_of_mem_names member)
  have untouched : .awaiting operation ∉ state.tasks :=
    fun member => lifetimes.tasks_known operation member fresh
  have first := what.lhs_mem_names operation
  constructor
  case idle =>
    intro waits
    rw [started.control, running] at waits
    cases waits
  case distinct =>
    rw [started.entries]
    apply List.nodup_append'.2 ⟨what.nodup_names operation, lifetimes.distinct, ?_⟩
    intro name new
    exact unlisted name (Awaited.operation_of_mem_names new)
  case listed =>
    intro name
    rw [started.entries, started.awaited, List.mem_append]
    by_cases same : name.operation = operation
    · rw [same, Function.update_self]
      constructor
      · rintro (new | old)
        · exact ⟨what, rfl, new⟩
        · exact absurd old (unlisted name same)
      · rintro ⟨other, known, new⟩
        cases known
        exact .inl new
    · rw [Function.update_of_ne same, ← lifetimes.listed]
      exact or_iff_right (unnamed name same)
  case due_listed =>
    intro name due
    rw [started.entries, List.mem_append]
    by_cases new : name ∈ what.names operation
    · exact .inl new
    · rw [started.due_other name new] at due
      exact .inr (lifetimes.due_listed name due)
  case handles =>
    intro name handle found
    rw [started.entries, List.mem_append]
    by_cases new : name ∈ what.names operation
    · rw [started.handle name new] at found
      cases found
      exact ⟨.inl new, rfl⟩
    · rw [started.handle_other name new] at found
      rcases lifetimes.handles name handle found with ⟨old, same⟩
      exact ⟨.inr old, same⟩
  case tasks_known =>
    intro other member
    rw [started.tasks] at member
    rw [started.awaited]
    by_cases same : other = operation
    · rw [same] at member
      exact absurd member untouched
    · rw [Function.update_of_ne same]
      exact lifetimes.tasks_known other member
  case once =>
    intro other probe known plain
    rw [started.awaited] at known
    rw [started.tasks]
    by_cases same : other = operation
    · subst same
      rw [Function.update_self] at known
      cases known
      rw [started.due _ first, Awaited.completions_of_ne plain, List.count_eq_zero_of_not_mem untouched]
    · rw [Function.update_of_ne same] at known
      rw [started.due_other _ (unnamed _ same)]
      exact lifetimes.once other probe known plain
  case living =>
    intro name probe known plain member
    rw [started.awaited] at known
    rw [started.tasks]
    by_cases same : name.operation = operation
    · rw [same, Function.update_self] at known
      cases known
      rw [same] at member ⊢
      rw [started.handle name member, started.due _ first]
      exact ⟨fun _ => .inl what.completions_ne_zero, fun _ => rfl⟩
    · rw [Function.update_of_ne same] at known
      have apart := unnamed ⟨name.operation, .lhs⟩ same
      rw [started.handle_other _ (unnamed _ same), started.due_other _ apart]
      exact lifetimes.living name probe known plain member

/-! ### Batches -/

theorem Lifetimes.task_eq_awaiting {state : State Ptr} (lifetimes : Lifetimes state)
    {name : OpName} {operation : Nat} (task : state.task name = .awaiting operation) :
    name = ⟨operation, .lhs⟩ ∧ (state.handle name).isSome = true := by
  unfold State.task at task
  cases found : state.handle name with
  | none =>
      rw [found] at task
      cases task
  | some handle =>
      rw [found, Option.getD_some, (lifetimes.handles name handle found).2] at task
      exact ⟨OpName.handle_eq_awaiting_iff.1 task, rfl⟩

theorem count_le_of_posted {due : OpName → Nat} {batch : List Completion}
    (posted : ∀ name ∈ named batch, (named batch).count name ≤ due name) (name : OpName) :
    (named batch).count name ≤ due name := by
  by_cases member : name ∈ named batch
  · exact posted name member
  · rw [List.count_eq_zero_of_not_mem member]
    exact Nat.zero_le _

theorem owed_of_posted {due : OpName → Nat} {batch : List Completion}
    (posted : ∀ name ∈ named batch, (named batch).count name ≤ due name) {name : OpName}
    (member : name ∈ named batch) : due name ≠ 0 :=
  Nat.ne_of_gt (Nat.lt_of_lt_of_le (List.count_pos_iff.2 member) (posted name member))

theorem Lifetimes.count_tasks_le {state : State Ptr} (lifetimes : Lifetimes state)
    (operation : Nat) (names : List OpName) :
    (names.map state.task).count (.awaiting operation) ≤ names.count ⟨operation, .lhs⟩ := by
  unfold List.count
  rw [List.countP_map]
  apply List.countP_mono_left
  intro name _ read
  have task : state.task name = .awaiting operation := eq_of_beq read
  exact beq_iff_eq.2 (lifetimes.task_eq_awaiting task).1

theorem Lifetimes.complete {state : State Ptr} (lifetimes : Lifetimes state)
    (waits : state.control.waits = true) {batch : List Completion}
    (posted : ∀ name ∈ named batch, (named batch).count name ≤ state.due name) :
    Lifetimes (state.waitEventsFor batch) := by
  have nothing := lifetimes.idle waits
  have due : ∀ name, (state.waitEventsFor batch).due name =
      state.due name - (named batch).count name := fun _ => rfl
  constructor
  case idle =>
    intro waits
    cases waits
  case distinct => exact lifetimes.distinct
  case listed => exact lifetimes.listed
  case due_listed =>
    intro name owed
    rw [due] at owed
    apply lifetimes.due_listed name
    omega
  case handles =>
    rw [State.handle_waitEventsFor]
    exact lifetimes.handles
  case tasks_known =>
    intro operation member
    rw [State.tasks_waitEventsFor] at member
    rcases List.mem_map.1 member with ⟨name, _, task⟩
    rcases lifetimes.task_eq_awaiting task with ⟨same, living⟩
    rcases Option.isSome_iff_exists.1 living with ⟨handle, found⟩
    rcases (lifetimes.listed name).1 (lifetimes.handles name handle found).1 with ⟨what, known, _⟩
    rw [same] at known
    change state.awaited operation ≠ none
    rw [known]
    nofun
  case once =>
    intro operation what known plain
    have before := lifetimes.once operation what known plain
    have read : ((named batch).map state.task).count (.awaiting operation) ≤
        (named batch).count ⟨operation, .lhs⟩ :=
      lifetimes.count_tasks_le operation (named batch)
    have bound := count_le_of_posted posted ⟨operation, .lhs⟩
    rw [State.tasks_waitEventsFor, due]
    omega
  case living =>
    intro name what known plain member
    have before := lifetimes.living name what known plain member
    have own := lifetimes.living ⟨name.operation, .lhs⟩ what known plain (what.lhs_mem_names _)
    rw [nothing] at before own
    rw [State.handle_waitEventsFor, State.tasks_waitEventsFor, due, before]
    constructor
    · rintro (owed | read)
      · by_cases taken : ⟨name.operation, .lhs⟩ ∈ named batch
        · -- The completion of the first UringOp is in the batch.
          right
          apply List.mem_map.2 ⟨_, taken, ?_⟩
          rcases Option.isSome_iff_exists.1 (own.2 (.inl owed)) with ⟨handle, found⟩
          unfold State.task
          rw [found, Option.getD_some, (lifetimes.handles _ handle found).2]
          rfl
        · rw [List.count_eq_zero_of_not_mem taken]
          exact .inl owed
      · cases read
    · rintro (owed | read)
      · left
        omega
      · rcases List.mem_map.1 read with ⟨probe, taken, task⟩
        rw [(lifetimes.task_eq_awaiting task).1] at taken
        exact .inl (owed_of_posted posted taken)

/-! ### The other steps -/

theorem Lifetimes.relocate {state : State Ptr} (lifetimes : Lifetimes state)
    (context : GenericIOContext Ptr) {control : Control}
    (idle : control.waits = true → state.tasks = []) :
    Lifetimes { state with mGenericIO := context, control := control } :=
  { idle := idle
    distinct := lifetimes.distinct
    listed := lifetimes.listed
    due_listed := lifetimes.due_listed
    handles := lifetimes.handles
    tasks_known := lifetimes.tasks_known
    once := lifetimes.once
    living := lifetimes.living }

theorem State.runOnce_eq (state : State Ptr) (duration : Option Duration) :
    ∃ control, state.runOnce duration = { state with control := control } := by
  unfold runOnce
  split
  · exact ⟨_, rfl⟩
  · exact ⟨_, rfl⟩

theorem State.turn_eq [DecidableEq Ptr] (fuel : Nat) (state : State Ptr) (now : TimePoint) :
    ∃ context control,
      state.turn fuel now = { state with mGenericIO := context, control := control } := by
  unfold turn
  split
  · exact ⟨_, state.control, rfl⟩
  · rename_i context remaining _
    rcases { state with mGenericIO := context }.runOnce_eq remaining with ⟨control, same⟩
    exact ⟨context, control, same⟩
  · exact ⟨state.mGenericIO, state.control, rfl⟩

theorem State.handle_leave (state : State Ptr) (operation : Nat) (name : OpName) :
    (state.leave operation).handle name =
      if name.operation = operation then none else state.handle name :=
  apply_ite (Option.map UringOp.mPrevious) ..

/-- The coroutine of the operation has been resumed and has left its expression. -/
structure State.Left (before after : State Ptr) (operation : Nat) (rest : List Handle) : Prop where
  pending : after.mPlatformIO = before.mPlatformIO
  control : after.control = before.control
  tasks : after.tasks = rest
  awaited : after.awaited = before.awaited
  entries : after.entries = before.entries
  due : after.due = before.due
  handle : ∀ name, after.handle name =
    if name.operation = operation then none else before.handle name
  resumed : after.resumed = Function.update before.resumed operation
    (before.resumed operation ++ [(before.memory ⟨operation, .lhs⟩).bind UringOp.mRes])

/-- A task is the coroutine of an operation, or nothing that the operations know of. -/
theorem State.resume_cases {state : State Ptr} {task : Handle} {rest : List Handle}
    (tasks : state.tasks = task :: rest) :
    (∃ operation, task = .awaiting operation ∧ Left state state.resume operation rest) ∨
      (∀ operation, task ≠ .awaiting operation) ∧ state.resume = { state with tasks := rest } := by
  unfold resume
  rw [tasks]
  cases task with
  | awaiting operation =>
      left
      refine ⟨operation, rfl, ?_⟩
      constructor
      case handle => exact state.handle_leave operation
      all_goals rfl
  | null | noop | stale => exact .inr ⟨nofun, rfl⟩

theorem Handle.awaiting_ne {probe operation : Nat} (different : probe ≠ operation) :
    Handle.awaiting probe ≠ .awaiting operation := by
  intro same
  cases same
  exact different rfl

theorem Lifetimes.left {before after : State Ptr} (lifetimes : Lifetimes before)
    {operation : Nat} {rest : List Handle} (tasks : before.tasks = .awaiting operation :: rest)
    (left : before.Left after operation rest) : Lifetimes after := by
  have busy : before.tasks ≠ [] := by
    rw [tasks]
    exact List.cons_ne_nil _ _
  constructor
  case idle =>
    rw [left.control]
    exact fun waits => absurd (lifetimes.idle waits) busy
  case distinct =>
    rw [left.entries]
    exact lifetimes.distinct
  case listed =>
    rw [left.entries, left.awaited]
    exact lifetimes.listed
  case due_listed =>
    rw [left.due, left.entries]
    exact lifetimes.due_listed
  case handles =>
    intro name handle found
    rw [left.entries]
    rw [left.handle] at found
    by_cases same : name.operation = operation
    · rw [if_pos same] at found
      cases found
    · rw [if_neg same] at found
      exact lifetimes.handles name handle found
  case tasks_known =>
    intro probe member
    rw [left.tasks] at member
    rw [left.awaited]
    apply lifetimes.tasks_known probe
    rw [tasks]
    exact List.mem_cons_of_mem _ member
  case once =>
    intro probe what known plain
    rw [left.awaited] at known
    have sum := lifetimes.once probe what known plain
    have fewer := List.count_le_count_cons (a := .awaiting probe) (b := .awaiting operation)
      (l := rest)
    rw [tasks] at sum
    rw [left.tasks, left.due]
    omega
  case living =>
    intro name what known plain member
    rw [left.awaited] at known
    have exist := lifetimes.living name what known plain member
    rw [left.tasks, left.due, left.handle]
    by_cases same : name.operation = operation
    · -- It was its only completion, so nothing is left of the operation.
      have once := lifetimes.once name.operation what known plain
      rw [tasks, ← same, List.count_cons_self] at once
      rw [if_pos same]
      constructor
      · intro living
        cases living
      · rintro (owed | later)
        · omega
        · have some_ := List.count_pos_iff.2 later
          omega
    · rw [tasks, List.mem_cons, or_iff_right (Handle.awaiting_ne same)] at exist
      rw [if_neg same]
      exact exist

theorem Lifetimes.skip {state : State Ptr} (lifetimes : Lifetimes state) {task : Handle}
    {rest : List Handle} (tasks : state.tasks = task :: rest)
    (other : ∀ operation, task ≠ .awaiting operation) :
    Lifetimes { state with tasks := rest } := by
  have busy : state.tasks ≠ [] := by
    rw [tasks]
    exact List.cons_ne_nil _ _
  constructor
  case idle => exact fun waits => absurd (lifetimes.idle waits) busy
  case distinct => exact lifetimes.distinct
  case listed => exact lifetimes.listed
  case due_listed => exact lifetimes.due_listed
  case handles => exact lifetimes.handles
  case tasks_known =>
    intro probe member
    apply lifetimes.tasks_known probe
    rw [tasks]
    exact List.mem_cons_of_mem _ member
  case once =>
    intro probe what known plain
    have before := lifetimes.once probe what known plain
    rw [tasks, List.count_cons_of_ne (other probe)] at before
    exact before
  case living =>
    intro name what known plain member
    have before := lifetimes.living name what known plain member
    have apart := (other name.operation).symm
    rw [tasks, List.mem_cons, or_iff_right apart] at before
    exact before

theorem Lifetimes.resume {state : State Ptr} (lifetimes : Lifetimes state)
    (busy : state.tasks ≠ []) : Lifetimes state.resume := by
  rcases List.exists_cons_of_ne_nil busy with ⟨task, rest, tasks⟩
  rcases State.resume_cases tasks with ⟨operation, same, left⟩ | ⟨other, resumed⟩
  · subst same
    exact lifetimes.left tasks left
  · rw [resumed]
    exact lifetimes.skip tasks other

/-! ### Runs -/

variable [DecidableEq Ptr]

theorem Lifetimes.step {fuel : Nat} {state : State Ptr} {action : Action Ptr}
    (lifetimes : Lifetimes state) (enabled : Enabled fuel state action) :
    Lifetimes (next fuel state action) := by
  cases action with
  | start operation what => exact lifetimes.start enabled.1 enabled.2.1 what
  | setTimers context => exact lifetimes.relocate context lifetimes.idle
  | turn now =>
      rcases State.turn_eq fuel state now with ⟨context, control, same⟩
      change Lifetimes (state.turn fuel now)
      rw [same]
      exact lifetimes.relocate context fun _ => enabled.2.1
  | timedOut =>
      apply lifetimes.relocate state.mGenericIO
      intro waits
      cases waits
  | complete batch => exact lifetimes.complete enabled.1 enabled.2.2
  | resume => exact lifetimes.resume enabled

/-- Every UringOp of link_ops that the loop of waitEventsFor writes to and reads from
exists when it comes to it. -/
def NoDangling (state : State Ptr) : Action Ptr → Prop
  | .complete batch =>
      PlatformIOContext.Gathered.OnlyLiving state.awaited
        { memory := state.memory
          tasks := []
          numGot := 0 } batch
  | .start _ _ | .setTimers _ | .turn _ | .timedOut | .resume => True

/-- No completion of a linked timeout comes in a later batch than that of the operation
it is linked to. -/
def InTime (state : State Ptr) : Action Ptr → Prop
  | .complete batch =>
      ∀ name ∈ named batch, name.role = .rhs → state.due ⟨name.operation, .lhs⟩ ≠ 0
  | .start _ _ | .setTimers _ | .turn _ | .timedOut | .resume => True

instance (state : State Ptr) (action : Action Ptr) : Decidable (InTime state action) :=
  match action with
  | .complete batch => inferInstanceAs (Decidable (∀ name ∈ named batch, _))
  | .start _ _ | .setTimers _ | .turn _ | .timedOut | .resume => isTrue trivial

/-- In a batch, the first UringOp of an operation exists, and the second one as long as
the first is still to complete. -/
theorem Lifetimes.noDangling_iff {fuel : Nat} {state : State Ptr} {action : Action Ptr}
    (lifetimes : Lifetimes state) (enabled : Enabled fuel state action) :
    NoDangling state action ↔ InTime state action := by
  cases action with
  | start _ _ | setTimers _ | turn _ | timedOut | resume => exact Iff.rfl
  | complete batch =>
      rcases enabled with ⟨waits, _, posted⟩
      have owed : ∀ name ∈ named batch, state.due name ≠ 0 :=
        fun name member => owed_of_posted posted member
      have living : ∀ name ∈ named batch, state.awaited name.operation = some .linked →
          ((state.memory name).isSome = true ↔ state.due ⟨name.operation, .lhs⟩ ≠ 0) := by
        intro name member known
        rcases (lifetimes.listed name).1 (lifetimes.due_listed name (owed name member)) with
          ⟨what, also_, listed⟩
        have same := known.symm.trans also_
        cases same
        have living := lifetimes.living name .linked known nofun listed
        rw [lifetimes.idle waits, State.handle_isSome] at living
        rw [living]
        exact or_iff_left (List.not_mem_nil)
      change PlatformIOContext.Gathered.OnlyLiving _ _ _ ↔
        ∀ name ∈ named batch, name.role = .rhs → _
      rw [PlatformIOContext.Gathered.onlyLiving_iff]
      constructor
      · intro exist name member second
        rcases (lifetimes.listed name).1 (lifetimes.due_listed name (owed name member)) with
          ⟨what, known, listed⟩
        cases what with
        | single | sendZc =>
            rw [List.mem_singleton.1 listed] at second
            cases second
        | linked => exact (living name member known).1 (exist name member known)
      · intro inTime name member known
        apply (living name member known).2
        cases role : name.role with
        | lhs =>
            rw [← role]
            exact owed name member
        | rhs => exact inTime name member role

/-- Any operations in any order and batching of their completions: waitEventsFor keeps
to UringOps that exist exactly in the runs in which no linked timeout completes in a
later batch than its operation. -/
theorem no_dangling_iff_in_time (Ptr : Type) [DecidableEq Ptr] (fuel : Nat)
    (mMaxSleep : Duration) (actions : List (Action Ptr))
    (runs : (machine Ptr fuel mMaxSleep).Runs (.initial mMaxSleep) actions) :
    (machine Ptr fuel mMaxSleep).Along NoDangling (.initial mMaxSleep) actions ↔
      (machine Ptr fuel mMaxSleep).Along InTime (.initial mMaxSleep) actions := by
  apply Machine.along_iff_of_invariant Lifetimes ?_ ?_ (Lifetimes.initial mMaxSleep) runs
  · intro state action lifetimes enabled _
    exact lifetimes.step enabled
  · intro state action lifetimes enabled
    exact lifetimes.noDangling_iff enabled

/-- Both completions are in one batch, that of the timeout first. -/
theorem no_dangling_iff_in_time_together :
    (machine Nat 1 200).Along NoDangling (.initial 200)
        [.start 0 .linked, .turn 0,
          .complete [⟨some ⟨0, .rhs⟩, -125⟩, ⟨some ⟨0, .lhs⟩, 5⟩], .resume, .resume] :=
  (no_dangling_iff_in_time Nat 1 200 _ (by decide +kernel)).2 (by decide +kernel)

/-- The operation completes in a batch of its own, and its coroutine goes on; then the
timeout completes. -/
theorem late_timeout_dangles :
    ¬∀ (actions : List (Action Nat)), (machine Nat 1 200).Runs (.initial 200) actions →
      (machine Nat 1 200).Along NoDangling (.initial 200) actions := by
  intro claimed
  have safe := claimed [.start 0 .linked, .turn 0, .complete [⟨some ⟨0, .lhs⟩, 5⟩], .resume,
    .turn 0, .complete [⟨some ⟨0, .rhs⟩, -125⟩]] (by decide +kernel)
  have exists_ := safe.2.2.2.2.2.1.1 ⟨0, .rhs⟩ rfl rfl
  exact absurd exists_ (by decide +kernel)

end IOContext

end MCoro
