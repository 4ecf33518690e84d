/-
Runs of a thread pool: where a job is on its way to its execution, and which threads
are on the lists.

A thread has one owner at a time: the free list, a call that took it from there, or
itself from the moment its mTask is set until it is back on the free list. Nothing of
the kind ties mWorkingThreads to the threads: the call enters its thread there when the
thread may already have left.
-/

import MCoro.Generic.ThreadPool

namespace MCoro.ThreadPool

variable {Job : Type}

/-- The job has been put into the mTask of a thread. -/
def Call.Handed : Call → Prop
  | .registering _ | .returned _ => True
  | .outside | .emplacing | .assigning _ => False

/-- The thread waits for a task, or has only its mMutex to release before. -/
def Thread.Idle (thread : Thread Job) : Prop :=
  thread.mTask = none ∧ (thread.place = .waiting ∨ thread.place = .freed)

structure Inv (state : State Job) : Prop where
  unborn : ∀ thread, state.mThreads ≤ thread → state.thread thread = .fresh ∧
    thread ∉ state.mFreeThreads ∧ ∀ job, state.call job ≠ .assigning thread
  free_nodup : state.mFreeThreads.Nodup
  free : ∀ thread ∈ state.mFreeThreads, (state.thread thread).Idle
  assigned : ∀ job thread, state.call job = .assigning thread →
    (state.thread thread).Idle ∧ thread ∉ state.mFreeThreads
  alone : ∀ job other thread, state.call job = .assigning thread →
    state.call other = .assigning thread → job = other
  waits : ∀ thread job, (state.thread thread).mTask = some job →
    (state.thread thread).place = .waiting
  single : ∀ thread other job, (state.thread thread).mTask = some job →
    (state.thread other).mTask = some job → thread = other
  pending : ∀ thread job, (state.thread thread).mTask = some job → job ∉ state.executions
  placed : ∀ job, (state.call job).Handed ↔
    job ∈ state.executions ∨ ∃ thread, (state.thread thread).mTask = some job
  once : state.executions.Nodup

theorem Inv.initial : Inv (State.initial : State Job) := by
  constructor
  case unborn =>
    intro thread _late
    exact ⟨rfl, List.not_mem_nil, nofun⟩
  case free_nodup => exact List.nodup_nil
  case free => nofun
  case assigned => nofun
  case alone => nofun
  case waits => nofun
  case single => nofun
  case pending => nofun
  case placed =>
    intro job
    constructor
    · intro handed
      cases handed
    · rintro (executed | ⟨thread, task⟩)
      · cases executed
      · cases task
  case once => exact List.nodup_nil

/-! ### One thread moves -/

theorem Inv.task_none {state : State Job} (inv : Inv state) {thread : Nat}
    (busy : (state.thread thread).place ≠ .waiting) : (state.thread thread).mTask = none := by
  cases task : (state.thread thread).mTask with
  | none => rfl
  | some job => exact absurd (inv.waits thread job task) busy

theorem Inv.born {state : State Job} (inv : Inv state) {thread : Nat}
    (used : state.thread thread ≠ .fresh) : thread < state.mThreads := by
  by_contra late
  exact used (inv.unborn thread (Nat.le_of_not_lt late)).1

theorem Inv.fresh_update {state : State Job} (inv : Inv state) {thread other : Nat}
    (born : thread < state.mThreads) (late : state.mThreads ≤ other) (value : Thread Job) :
    Function.update state.thread thread value other = .fresh := by
  have different : other ≠ thread := by omega
  exact (Function.update_of_ne different ..).trans (inv.unborn other late).1

theorem idle_update {state : State Job} {thread other : Nat} (different : other ≠ thread)
    (idle : (state.thread other).Idle) (value : Thread Job) :
    (Function.update state.thread thread value other).Idle := by
  rw [Function.update_of_ne different]
  exact idle

theorem Inv.unowned {state : State Job} (inv : Inv state) {thread : Nat}
    (busy : ¬(state.thread thread).Idle) :
    thread ∉ state.mFreeThreads ∧ ∀ job, state.call job ≠ .assigning thread :=
  ⟨fun listed => busy (inv.free thread listed),
    fun job assigned => busy (inv.assigned job thread assigned).1⟩

theorem Inv.setThread {state : State Job} (inv : Inv state) {thread : Nat} {value : Thread Job}
    (before : (state.thread thread).mTask = none) (after : value.mTask = none)
    (used : state.thread thread ≠ .fresh)
    (idle : (state.thread thread).Idle → value.Idle) : Inv (state.setThread thread value) := by
  have tasks : ∀ other, ((state.setThread thread value).thread other).mTask =
      (state.thread other).mTask := by
    intro other
    change (Function.update state.thread thread value other).mTask = _
    by_cases same : other = thread
    · rw [same, Function.update_self, before, after]
    · rw [Function.update_of_ne same]
  have stays : ∀ other, (state.thread other).Idle →
      ((state.setThread thread value).thread other).Idle := by
    intro other idles
    change (Function.update state.thread thread value other).Idle
    by_cases same : other = thread
    · subst same
      rw [Function.update_self]
      exact idle idles
    · exact idle_update same idles value
  constructor
  case unborn =>
    intro other late
    exact ⟨inv.fresh_update (inv.born used) late value, (inv.unborn other late).2⟩
  case free_nodup => exact inv.free_nodup
  case free =>
    intro other listed
    exact stays other (inv.free other listed)
  case assigned =>
    intro job other assigned
    have old := inv.assigned job other assigned
    exact ⟨stays other old.1, old.2⟩
  case alone => exact inv.alone
  case waits =>
    intro other job task
    have different : other ≠ thread := by
      rintro rfl
      rw [tasks, before] at task
      cases task
    change (Function.update state.thread thread value other).place = .waiting
    rw [Function.update_of_ne different]
    rw [tasks] at task
    exact inv.waits other job task
  case single =>
    intro first second job firstTask secondTask
    rw [tasks] at firstTask secondTask
    exact inv.single first second job firstTask secondTask
  case pending =>
    intro other job task
    rw [tasks] at task
    exact inv.pending other job task
  case placed =>
    intro job
    simp only [tasks]
    exact inv.placed job
  case once => exact inv.once

theorem Inv.setWorking {state : State Job} (inv : Inv state) (working : List Nat) :
    Inv { state with mWorkingThreads := working } :=
  { unborn := inv.unborn
    free_nodup := inv.free_nodup
    free := inv.free
    assigned := inv.assigned
    alone := inv.alone
    waits := inv.waits
    single := inv.single
    pending := inv.pending
    placed := inv.placed
    once := inv.once }

theorem Inv.move {state : State Job} (inv : Inv state) {thread : Nat} {place : Place Job}
    (busy : (state.thread thread).place ≠ .waiting)
    (idle : (state.thread thread).place = .freed → place = .waiting) :
    Inv (state.move thread place) := by
  have empty := inv.task_none busy
  have used : state.thread thread ≠ .fresh := by
    intro fresh
    rw [fresh] at busy
    exact busy rfl
  refine inv.setThread empty empty used ?_
  rintro ⟨_, waiting | freed⟩
  · exact absurd waiting busy
  · exact ⟨empty, .inl (idle freed)⟩

theorem Inv.reset {state : State Job} (inv : Inv state) {thread : Nat} {task : Job}
    (ended : (state.thread thread).place = .ended task) : Inv (state.reset thread task) := by
  have busy : (state.thread thread).place ≠ .waiting := by
    rw [ended]
    nofun
  have same : state.reset thread task = state.move thread (.reset task) := by
    unfold State.reset State.move
    dsimp only
    rw [inv.task_none busy]
  rw [same]
  exact inv.move busy (by rw [ended]; nofun)

theorem State.take_task (state : State Job) (thread : Nat) (task : Job) (other : Nat) (job : Job) :
    ((state.take thread task).thread other).mTask = some job ↔
      other ≠ thread ∧ (state.thread other).mTask = some job := by
  change (Function.update state.thread thread _ other).mTask = some job ↔ _
  by_cases same : other = thread
  · subst same
    rw [Function.update_self]
    simp
  · rw [Function.update_of_ne same]
    simp [same]

theorem Inv.take {state : State Job} (inv : Inv state) {thread : Nat} {task : Job}
    (held : (state.thread thread).mTask = some task) : Inv (state.take thread task) := by
  have busy : ¬(state.thread thread).Idle := by
    rintro ⟨empty, _⟩
    rw [held] at empty
    cases empty
  have others := state.take_task thread task
  have stays : ∀ other, (state.thread other).Idle →
      ((state.take thread task).thread other).Idle := by
    intro other idle
    have different : other ≠ thread := fun same => busy (same ▸ idle)
    exact idle_update different idle _
  have used : state.thread thread ≠ .fresh := by
    intro fresh
    rw [fresh] at held
    cases held
  constructor
  case unborn =>
    intro other late
    exact ⟨inv.fresh_update (inv.born used) late _, (inv.unborn other late).2⟩
  case free_nodup => exact inv.free_nodup
  case free =>
    intro other listed
    exact stays other (inv.free other listed)
  case assigned =>
    intro job other assigned
    have old := inv.assigned job other assigned
    exact ⟨stays other old.1, old.2⟩
  case alone => exact inv.alone
  case waits =>
    intro other job still
    rw [others] at still
    change (Function.update state.thread thread _ other).place = .waiting
    rw [Function.update_of_ne still.1]
    exact inv.waits other job still.2
  case single =>
    intro first second job firstTask secondTask
    rw [others] at firstTask secondTask
    exact inv.single first second job firstTask.2 secondTask.2
  case pending =>
    intro other job still executed
    rw [others] at still
    rcases List.mem_append.1 executed with before | now
    · exact inv.pending other job still.2 before
    · rw [List.mem_singleton] at now
      subst now
      exact still.1 (inv.single other thread job still.2 held)
  case placed =>
    intro job
    simp only [others]
    change (state.call job).Handed ↔ job ∈ state.executions ++ [task] ∨ _
    rw [inv.placed job, List.mem_append, List.mem_singleton, or_assoc]
    apply or_congr_right
    constructor
    · rintro ⟨other, pending⟩
      by_cases same : other = thread
      · subst same
        exact .inl (Option.some.inj (pending.symm.trans held))
      · exact .inr ⟨other, same, pending⟩
    · rintro (now | ⟨other, _, pending⟩)
      · exact ⟨thread, now ▸ held⟩
      · exact ⟨other, pending⟩
  case once =>
    change (state.executions ++ [task]).Nodup
    rw [List.nodup_append]
    refine ⟨inv.once, List.nodup_singleton task, ?_⟩
    intro earlier executed last now same
    rw [List.mem_singleton.1 now] at same
    exact inv.pending thread task held (same ▸ executed)

theorem Inv.free_step {state : State Job} (inv : Inv state) {thread : Nat}
    (removed : (state.thread thread).place = .removed) : Inv (state.free thread) := by
  have busy : (state.thread thread).place ≠ .waiting := by
    rw [removed]
    nofun
  have working : ¬(state.thread thread).Idle := by
    rintro ⟨_, waiting | freed⟩
    · exact busy waiting
    · rw [removed] at freed
      cases freed
  have moved : Inv (state.move thread .freed) := inv.move busy (by rw [removed]; nofun)
  have unowned := inv.unowned working
  constructor
  case unborn =>
    intro other late
    have old := moved.unborn other late
    refine ⟨old.1, ?_, old.2.2⟩
    intro listed
    rcases List.mem_append.1 listed with before | now
    · exact old.2.1 before
    · rw [List.mem_singleton.1 now] at late
      refine Nat.not_lt.2 late (inv.born ?_)
      intro fresh
      rw [fresh] at busy
      exact busy rfl
  case free_nodup =>
    change (state.mFreeThreads ++ [thread]).Nodup
    rw [List.nodup_append]
    refine ⟨inv.free_nodup, List.nodup_singleton thread, ?_⟩
    intro other listed last now same
    rw [List.mem_singleton.1 now] at same
    exact unowned.1 (same ▸ listed)
  case free =>
    intro other listed
    rcases List.mem_append.1 listed with before | now
    · exact moved.free other before
    · rw [List.mem_singleton.1 now]
      change (Function.update state.thread thread _ thread).Idle
      rw [Function.update_self]
      exact ⟨inv.task_none busy, .inr rfl⟩
  case assigned =>
    intro job other assigned
    have old := moved.assigned job other assigned
    refine ⟨old.1, ?_⟩
    intro listed
    rcases List.mem_append.1 listed with before | now
    · exact old.2 before
    · rw [List.mem_singleton.1 now] at assigned
      exact unowned.2 job assigned
  case alone => exact moved.alone
  case waits => exact moved.waits
  case single => exact moved.single
  case pending => exact moved.pending
  case placed => exact moved.placed
  case once => exact moved.once

/-! ### One call moves -/

section Steps

variable [DecidableEq Job]

theorem Inv.setCall {state : State Job} (inv : Inv state) {job : Job} {call : Call}
    (handed : call.Handed ↔ (state.call job).Handed) (free : ∀ thread, call ≠ .assigning thread) :
    Inv (state.setCall job call) := by
  have assigning : ∀ other thread, (state.setCall job call).call other = .assigning thread →
      state.call other = .assigning thread := by
    intro other thread assigned
    change Function.update state.call job call other = _ at assigned
    by_cases same : other = job
    · subst same
      rw [Function.update_self] at assigned
      exact absurd assigned (free thread)
    · rw [Function.update_of_ne same] at assigned
      exact assigned
  constructor
  case unborn =>
    intro thread late
    have old := inv.unborn thread late
    exact ⟨old.1, old.2.1, fun other assigned => old.2.2 other (assigning other thread assigned)⟩
  case free_nodup => exact inv.free_nodup
  case free => exact inv.free
  case assigned =>
    intro other thread assigned
    exact inv.assigned other thread (assigning other thread assigned)
  case alone =>
    intro first second thread firstAssigned secondAssigned
    exact inv.alone first second thread (assigning first thread firstAssigned)
      (assigning second thread secondAssigned)
  case waits => exact inv.waits
  case single => exact inv.single
  case pending => exact inv.pending
  case placed =>
    intro other
    change (Function.update state.call job call other).Handed ↔ _
    by_cases same : other = job
    · subst same
      rw [Function.update_self, handed]
      exact inv.placed other
    · rw [Function.update_of_ne same]
      exact inv.placed other
  case once => exact inv.once

theorem Inv.assign {state : State Job} (inv : Inv state) {job : Job} {thread : Nat}
    (early : ¬(state.call job).Handed) (born : thread < state.mThreads)
    (idle : (state.thread thread).Idle) (unlisted : thread ∉ state.mFreeThreads)
    (unassigned : ∀ other, state.call other ≠ .assigning thread) :
    Inv (state.setCall job (.assigning thread)) := by
  have assigning : ∀ other owned,
      (state.setCall job (.assigning thread)).call other = .assigning owned →
        other = job ∧ owned = thread ∨ other ≠ job ∧ state.call other = .assigning owned := by
    intro other owned assigned
    change Function.update state.call job _ other = _ at assigned
    by_cases same : other = job
    · subst same
      rw [Function.update_self] at assigned
      cases assigned
      exact .inl ⟨rfl, rfl⟩
    · rw [Function.update_of_ne same] at assigned
      exact .inr ⟨same, assigned⟩
  constructor
  case unborn =>
    intro owned late
    have old := inv.unborn owned late
    refine ⟨old.1, old.2.1, ?_⟩
    intro other assigned
    rcases assigning other owned assigned with ⟨_, rfl⟩ | ⟨_, before⟩
    · exact Nat.not_lt.2 late born
    · exact old.2.2 other before
  case free_nodup => exact inv.free_nodup
  case free => exact inv.free
  case assigned =>
    intro other owned assigned
    rcases assigning other owned assigned with ⟨_, rfl⟩ | ⟨_, before⟩
    · exact ⟨idle, unlisted⟩
    · exact inv.assigned other owned before
  case alone =>
    intro first second owned firstAssigned secondAssigned
    rcases assigning first owned firstAssigned with ⟨rfl, rfl⟩ | ⟨_, firstBefore⟩ <;>
      rcases assigning second owned secondAssigned with ⟨rfl, same⟩ | ⟨_, secondBefore⟩
    · rfl
    · exact absurd secondBefore (unassigned second)
    · exact absurd (same ▸ firstBefore) (unassigned first)
    · exact inv.alone first second owned firstBefore secondBefore
  case waits => exact inv.waits
  case single => exact inv.single
  case pending => exact inv.pending
  case placed =>
    intro other
    change (Function.update state.call job _ other).Handed ↔ _
    by_cases same : other = job
    · subst same
      rw [Function.update_self]
      exact ⟨False.elim, fun placed => absurd ((inv.placed other).2 placed) early⟩
    · rw [Function.update_of_ne same]
      exact inv.placed other
  case once => exact inv.once

theorem Inv.submit {state : State Job} (inv : Inv state) {job : Job}
    (outside : state.call job = .outside) : Inv (state.submit job) := by
  have early : ¬(state.call job).Handed := by
    rw [outside]
    exact id
  unfold State.submit
  split
  · exact inv.setCall ⟨False.elim, fun handed => absurd handed early⟩ nofun
  · rename_i freeThread rest listed
    have member : freeThread ∈ state.mFreeThreads := by
      rw [listed]
      exact List.mem_cons_self
    have nodup := inv.free_nodup
    rw [listed, List.nodup_cons] at nodup
    have fewer : ∀ thread ∈ rest, thread ∈ state.mFreeThreads := by
      intro thread later
      rw [listed]
      exact List.mem_cons_of_mem freeThread later
    have popped : Inv { state with mFreeThreads := rest } :=
      { unborn := fun thread late =>
          have old := inv.unborn thread late
          ⟨old.1, fun later => old.2.1 (fewer thread later), old.2.2⟩
        free_nodup := nodup.2
        free := fun thread later => inv.free thread (fewer thread later)
        assigned := fun other thread assigned =>
          have old := inv.assigned other thread assigned
          ⟨old.1, fun later => old.2 (fewer thread later)⟩
        alone := inv.alone
        waits := inv.waits
        single := inv.single
        pending := inv.pending
        placed := inv.placed
        once := inv.once }
    have born : freeThread < state.mThreads := by
      by_contra late
      exact (inv.unborn freeThread (Nat.le_of_not_lt late)).2.1 member
    have unassigned : ∀ other, state.call other ≠ .assigning freeThread :=
      fun other assigned => (inv.assigned other freeThread assigned).2 member
    exact popped.assign early born (inv.free freeThread member) nodup.1 unassigned

theorem Inv.emplace {state : State Job} (inv : Inv state) {job : Job}
    (emplacing : state.call job = .emplacing) : Inv (state.emplace job) := by
  have early : ¬(state.call job).Handed := by
    rw [emplacing]
    exact id
  have last := inv.unborn state.mThreads (Nat.le_refl state.mThreads)
  have grown : Inv { state with mThreads := state.mThreads + 1 } :=
    { unborn := fun thread late => inv.unborn thread (Nat.le_of_succ_le late)
      free_nodup := inv.free_nodup
      free := inv.free
      assigned := inv.assigned
      alone := inv.alone
      waits := inv.waits
      single := inv.single
      pending := inv.pending
      placed := inv.placed
      once := inv.once }
  have same : Function.update state.thread state.mThreads .fresh = state.thread := by
    rw [← last.1, Function.update_eq_self]
  unfold State.emplace State.setThread
  simp only [same]
  refine grown.assign early (Nat.lt_succ_self state.mThreads) ?_ last.2.1 last.2.2
  change (state.thread state.mThreads).Idle
  rw [last.1]
  exact ⟨rfl, .inl rfl⟩

omit [DecidableEq Job] in
theorem Inv.assigned_waiting {state : State Job} (inv : Inv state) {job : Job} {thread : Nat}
    (assigned : state.call job = .assigning thread) (unlocked : ¬(state.thread thread).Locked) :
    (state.thread thread).mTask = none ∧ (state.thread thread).place = .waiting := by
  obtain ⟨⟨empty, waiting | freed⟩, _⟩ := inv.assigned job thread assigned
  · exact ⟨empty, waiting⟩
  · unfold Thread.Locked at unlocked
    rw [freed] at unlocked
    exact absurd trivial unlocked

theorem State.workOn_task (state : State Job) (job : Job) {thread : Nat}
    (empty : (state.thread thread).mTask = none) (other : Nat) (task : Job) :
    ((state.workOn job thread).thread other).mTask = some task ↔
      other = thread ∧ task = job ∨ (state.thread other).mTask = some task := by
  change (Function.update state.thread thread _ other).mTask = _ ↔ _
  by_cases same : other = thread
  · subst same
    rw [Function.update_self, empty]
    simp [eq_comm]
  · rw [Function.update_of_ne same]
    simp [same]

theorem Inv.workOn_call {state : State Job} (inv : Inv state) {job : Job} {thread : Nat}
    (assigned : state.call job = .assigning thread) (other : Job) (owned : Nat)
    (owns : (state.workOn job thread).call other = .assigning owned) :
    state.call other = .assigning owned ∧ owned ≠ thread := by
  change Function.update state.call job _ other = _ at owns
  by_cases same : other = job
  · subst same
    rw [Function.update_self] at owns
    cases owns
  · rw [Function.update_of_ne same] at owns
    refine ⟨owns, ?_⟩
    intro equal
    rw [equal] at owns
    exact same (inv.alone other job thread owns assigned)

theorem Inv.workOn {state : State Job} (inv : Inv state) {job : Job} {thread : Nat}
    (assigned : state.call job = .assigning thread) (unlocked : ¬(state.thread thread).Locked) :
    Inv (state.workOn job thread) := by
  obtain ⟨empty, waiting⟩ := inv.assigned_waiting assigned unlocked
  have unlisted := (inv.assigned job thread assigned).2
  have early : ¬(state.call job).Handed := by
    rw [assigned]
    exact id
  have nowhere : ¬(job ∈ state.executions ∨ ∃ other, (state.thread other).mTask = some job) :=
    fun placed => early ((inv.placed job).2 placed)
  rw [not_or, not_exists] at nowhere
  have tasks := state.workOn_task job empty
  have calls := inv.workOn_call assigned
  have born : thread < state.mThreads := by
    by_contra late
    exact (inv.unborn thread (Nat.le_of_not_lt late)).2.2 job assigned
  constructor
  case unborn =>
    intro other late
    have old := (inv.unborn other late).2
    exact ⟨inv.fresh_update born late _, old.1,
      fun holder owns => old.2 holder (calls holder other owns).1⟩
  case free_nodup => exact inv.free_nodup
  case free =>
    intro other listed
    have different : other ≠ thread := fun same => unlisted (same ▸ listed)
    exact idle_update different (inv.free other listed) _
  case assigned =>
    intro other owned owns
    have before := calls other owned owns
    have old := inv.assigned other owned before.1
    exact ⟨idle_update before.2 old.1 _, old.2⟩
  case alone =>
    intro first second owned firstOwns secondOwns
    exact inv.alone first second owned (calls first owned firstOwns).1
      (calls second owned secondOwns).1
  case waits =>
    intro other task held
    change (Function.update state.thread thread _ other).place = .waiting
    by_cases same : other = thread
    · subst same
      rw [Function.update_self]
      exact waiting
    · rw [Function.update_of_ne same]
      rcases (tasks other task).1 held with ⟨equal, _⟩ | before
      · exact absurd equal same
      · exact inv.waits other task before
  case single =>
    intro first second task firstHeld secondHeld
    rcases (tasks first task).1 firstHeld with ⟨rfl, rfl⟩ | firstBefore <;>
      rcases (tasks second task).1 secondHeld with ⟨rfl, same⟩ | secondBefore
    · rfl
    · exact absurd secondBefore (nowhere.2 second)
    · exact absurd (same ▸ firstBefore) (nowhere.2 first)
    · exact inv.single first second task firstBefore secondBefore
  case pending =>
    intro other task held
    rcases (tasks other task).1 held with ⟨_, rfl⟩ | before
    · exact nowhere.1
    · exact inv.pending other task before
  case placed =>
    intro task
    change (Function.update state.call job _ task).Handed ↔ _
    by_cases same : task = job
    · subst same
      rw [Function.update_self]
      exact ⟨fun _ => .inr ⟨thread, (tasks thread task).2 (.inl ⟨rfl, rfl⟩)⟩, fun _ => trivial⟩
    · rw [Function.update_of_ne same, inv.placed task]
      apply or_congr_right
      apply exists_congr
      intro other
      rw [tasks other task]
      simp [same]
  case once => exact inv.once

/-! ### Every step -/

theorem Inv.next {state : State Job} (inv : Inv state) {action : Action Job}
    (enabled : Enabled state action) : Inv (next state action) := by
  cases action with
  | submit job => exact inv.submit enabled
  | emplace job => exact inv.emplace enabled
  | workOn job thread => exact inv.workOn enabled.1 enabled.2
  | register job thread =>
      refine (inv.setWorking (state.mWorkingThreads ++ [thread])).setCall ?_ nofun
      change True ↔ (state.call job).Handed
      rw [show state.call job = .registering thread from enabled]
      exact Iff.rfl
  | take thread task => exact inv.take enabled.2
  | finish thread task =>
      have running : (state.thread thread).place = .running task := enabled
      exact inv.move (by rw [running]; nofun) (by rw [running]; nofun)
  | reset thread task => exact inv.reset enabled
  | remove thread task =>
      have reset : (state.thread thread).place = .reset task := enabled
      exact (inv.setWorking _).move (by rw [reset]; nofun) (by rw [reset]; nofun)
  | free thread => exact inv.free_step enabled
  | unlock thread =>
      have freed : (state.thread thread).place = .freed := enabled
      exact inv.move (by rw [freed]; nofun) (fun _ => rfl)

theorem inv_run {actions : List (Action Job)} (runs : (machine Job).Runs .initial actions) :
    Inv ((machine Job).after .initial actions) :=
  Machine.invariant Inv (fun _ _ inv enabled => inv.next enabled) .initial runs

end Steps

/-! ### The way of a job -/

/-- What a step that writes an mTask finds there. -/
def Spares (state : State Job) : Action Job → Prop
  | .workOn _ thread =>
      (state.thread thread).mTask = none ∧ (state.thread thread).place = .waiting
  | .reset thread _ => (state.thread thread).mTask = none
  | _ => True

theorem Inv.spares {state : State Job} (inv : Inv state) {action : Action Job}
    (enabled : Enabled state action) : Spares state action := by
  cases action with
  | workOn job thread => exact inv.assigned_waiting enabled.1 enabled.2
  | reset thread task =>
      have ended : (state.thread thread).place = .ended task := enabled
      exact inv.task_none (by rw [ended]; nofun)
  | submit _ | emplace _ | register _ _ | take _ _ | finish _ _ | remove _ _ | free _
  | unlock _ => trivial

/-- The job is with its call, then pending in one thread, then executed. -/
structure Placed (state : State Job) (job : Job) : Prop where
  early : ¬(state.call job).Handed →
    job ∉ state.executions ∧ ∀ thread, (state.thread thread).mTask ≠ some job
  pending : (state.call job).Handed → job ∉ state.executions →
    ∃! thread, (state.thread thread).mTask = some job
  executed : job ∈ state.executions → ∀ thread, (state.thread thread).mTask ≠ some job

theorem Inv.job_placed {state : State Job} (inv : Inv state) (job : Job) : Placed state job := by
  constructor
  case early =>
    intro early
    rw [inv.placed job, not_or, not_exists] at early
    exact early
  case pending =>
    intro handed waiting
    obtain ⟨thread, held⟩ := ((inv.placed job).1 handed).resolve_left waiting
    exact ⟨thread, held, fun other otherHeld => inv.single other thread job otherHeld held⟩
  case executed =>
    intro executed thread held
    exact inv.pending thread job held executed

theorem jobs_handed_over_once [DecidableEq Job] (actions : List (Action Job))
    (runs : (machine Job).Runs .initial actions) :
    (machine Job).Along Spares .initial actions ∧
      ((machine Job).after .initial actions).mFreeThreads.Nodup ∧
      (∀ job, Placed ((machine Job).after .initial actions) job) ∧
      ((machine Job).after .initial actions).executions.Nodup := by
  have inv := inv_run runs
  refine ⟨?_, inv.free_nodup, inv.job_placed, inv.once⟩
  exact Machine.along_of_invariant Inv (fun _ _ inv enabled => inv.next enabled)
    (fun _ _ inv enabled => inv.spares enabled) .initial runs

/-- Two jobs on one thread, the second while the first one's thread goes back. -/
def twoJobs : List (Action (Fin 2)) :=
  [.submit 0, .emplace 0, .workOn 0 0, .take 0 0, .register 0 0, .finish 0 0, .reset 0 0,
    .remove 0 0, .free 0, .submit 1, .unlock 0, .workOn 1 0, .register 1 0, .take 0 1]

theorem jobs_handed_over_once_two :
    (machine (Fin 2)).Runs .initial twoJobs ∧
      ((machine (Fin 2)).after .initial twoJobs).executions.Nodup :=
  have runs : (machine (Fin 2)).Runs .initial twoJobs := by decide
  ⟨runs, (jobs_handed_over_once twoJobs runs).2.2.2⟩

/-! ### The list of the working threads -/

/-- The job that a thread has and has not signed off on mWorkingThreads. -/
def Thread.current (thread : Thread Job) : Option Job :=
  match thread.place with
  | .running task | .ended task | .reset task => some task
  | .waiting | .removed | .freed => thread.mTask

/-- A thread takes itself off mWorkingThreads after the call of its job has put it
there. -/
def InTime (state : State Job) : Action Job → Prop
  | .remove thread task => state.call task = .returned thread
  | _ => True

instance (state : State Job) (action : Action Job) : Decidable (InTime state action) :=
  match action with
  | .remove thread task => inferInstanceAs (Decidable (state.call task = .returned thread))
  | .submit _ | .emplace _ | .workOn _ _ | .register _ _ | .take _ _ | .finish _ _ | .reset _ _
  | .free _ | .unlock _ => isTrue trivial

/-- mWorkingThreads is exact. -/
structure Tracked (state : State Job) : Prop where
  registering : ∀ job thread, state.call job = .registering thread →
    (state.thread thread).current = some job
  working : ∀ thread, thread ∈ state.mWorkingThreads ↔
    ∃ job, state.call job = .returned thread ∧ (state.thread thread).current = some job
  nodup : state.mWorkingThreads.Nodup

theorem Tracked.initial : Tracked (State.initial : State Job) := by
  constructor
  case registering => nofun
  case working =>
    intro thread
    constructor
    · nofun
    · rintro ⟨job, returned, _⟩
      cases returned
  case nodup => exact List.nodup_nil

theorem Tracked.setThread {state : State Job} (tracked : Tracked state) {thread : Nat}
    {value : Thread Job} (same : value.current = (state.thread thread).current) :
    Tracked (state.setThread thread value) := by
  have current : ∀ other, ((state.setThread thread value).thread other).current =
      (state.thread other).current := by
    intro other
    change (Function.update state.thread thread value other).current = _
    by_cases equal : other = thread
    · subst equal
      rw [Function.update_self, same]
    · rw [Function.update_of_ne equal]
  constructor
  case registering =>
    intro job other registering
    rw [current]
    exact tracked.registering job other registering
  case working =>
    intro other
    simp only [current]
    exact tracked.working other
  case nodup => exact tracked.nodup

theorem Tracked.congr {state other : State Job} (tracked : Tracked state)
    (threads : other.thread = state.thread) (calls : other.call = state.call)
    (working : other.mWorkingThreads = state.mWorkingThreads) : Tracked other := by
  constructor
  case registering =>
    rw [threads, calls]
    exact tracked.registering
  case working =>
    rw [threads, calls, working]
    exact tracked.working
  case nodup =>
    rw [working]
    exact tracked.nodup

theorem Thread.current_busy {thread : Thread Job} (empty : thread.mTask = none)
    {place : Place Job} (other : place = .waiting ∨ place = .removed ∨ place = .freed) :
    ({ thread with place := place } : Thread Job).current = none := by
  rcases other with rfl | rfl | rfl <;> exact empty

theorem Thread.current_waiting {thread : Thread Job}
    (place : thread.place = .waiting ∨ thread.place = .removed ∨ thread.place = .freed) :
    thread.current = thread.mTask := by
  unfold Thread.current
  rcases place with waiting | removed | freed
  · rw [waiting]
  · rw [removed]
  · rw [freed]

theorem Thread.Idle.current {thread : Thread Job} (idle : thread.Idle) : thread.current = none := by
  rw [Thread.current_waiting, idle.1]
  rcases idle.2 with waiting | freed
  · exact .inl waiting
  · exact .inr (.inr freed)

theorem Tracked.remove {state : State Job} (tracked : Tracked state) {thread : Nat} {task : Job}
    (empty : (state.thread thread).mTask = none)
    (reset : (state.thread thread).place = .reset task)
    (returned : state.call task = .returned thread) : Tracked (state.remove thread) := by
  have others : ∀ other job, ((state.remove thread).thread other).current = some job ↔
      other ≠ thread ∧ (state.thread other).current = some job := by
    intro other job
    change (Function.update state.thread thread _ other).current = some job ↔ _
    by_cases same : other = thread
    · subst same
      rw [Function.update_self, Thread.current_busy empty (.inr (.inl rfl))]
      simp
    · rw [Function.update_of_ne same]
      simp [same]
  have held : (state.thread thread).current = some task := by
    unfold Thread.current
    rw [reset]
  constructor
  case registering =>
    intro job other registering
    have current := tracked.registering job other registering
    refine (others other job).2 ⟨?_, current⟩
    rintro rfl
    cases held.symm.trans current
    cases returned.symm.trans registering
  case working =>
    intro other
    change other ∈ state.mWorkingThreads.filter (· ≠ thread) ↔
      ∃ job, state.call job = .returned other ∧ _
    simp only [others]
    rw [List.mem_filter, tracked.working other, decide_eq_true_eq]
    constructor
    · rintro ⟨⟨job, back, current⟩, different⟩
      exact ⟨job, back, different, current⟩
    · rintro ⟨job, back, different, current⟩
      exact ⟨⟨job, back, current⟩, different⟩
  case nodup => exact tracked.nodup.filter _

variable [DecidableEq Job]

theorem Tracked.setCall {state : State Job} (tracked : Tracked state) {job : Job} {call : Call}
    (before : ¬(state.call job).Handed) (after : ¬call.Handed) :
    Tracked (state.setCall job call) := by
  have calls : ∀ other (wanted : Call), wanted.Handed →
      ((state.setCall job call).call other = wanted ↔ state.call other = wanted) := by
    intro other wanted handed
    change Function.update state.call job call other = wanted ↔ _
    by_cases same : other = job
    · subst same
      rw [Function.update_self]
      constructor
      · rintro rfl
        exact absurd handed after
      · rintro rfl
        exact absurd handed before
    · rw [Function.update_of_ne same]
  constructor
  case registering =>
    intro other thread registering
    exact tracked.registering other thread ((calls other (.registering thread) trivial).1 registering)
  case working =>
    intro thread
    rw [show (state.setCall job call).mWorkingThreads = state.mWorkingThreads from rfl,
      tracked.working thread]
    apply exists_congr
    intro other
    rw [calls other (.returned thread) trivial]
    exact Iff.rfl
  case nodup => exact tracked.nodup

theorem Tracked.workOn {state : State Job} (tracked : Tracked state) {job : Job} {thread : Nat}
    (early : ¬(state.call job).Handed) (idle : (state.thread thread).Idle)
    (waiting : (state.thread thread).place = .waiting) : Tracked (state.workOn job thread) := by
  have unoccupied := idle.current
  have own : ((state.workOn job thread).thread thread).current = some job := by
    change (Function.update state.thread thread _ thread).current = _
    rw [Function.update_self]
    exact Thread.current_waiting (.inl waiting)
  have others : ∀ other, other ≠ thread →
      (state.workOn job thread).thread other = state.thread other :=
    fun other different => Function.update_of_ne different ..
  constructor
  case registering =>
    intro other owned registering
    change Function.update state.call job _ other = _ at registering
    by_cases same : other = job
    · subst same
      rw [Function.update_self] at registering
      cases registering
      exact own
    · rw [Function.update_of_ne same] at registering
      have current := tracked.registering other owned registering
      have different : owned ≠ thread := by
        rintro rfl
        cases unoccupied.symm.trans current
      rw [others owned different]
      exact current
  case working =>
    intro owned
    change owned ∈ state.mWorkingThreads ↔
      ∃ task, Function.update state.call job _ task = _ ∧ _
    rw [tracked.working owned]
    apply exists_congr
    intro task
    by_cases same : task = job
    · subst same
      rw [Function.update_self]
      constructor
      · rintro ⟨returned, _⟩
        rw [returned] at early
        exact absurd trivial early
      · rintro ⟨returned, _⟩
        cases returned
    · rw [Function.update_of_ne same]
      apply and_congr_right
      intro returned
      by_cases equal : owned = thread
      · subst equal
        rw [own, unoccupied]
        simp [Ne.symm same]
      · rw [others owned equal]
  case nodup => exact tracked.nodup

theorem Tracked.register {state : State Job} (tracked : Tracked state) {job : Job} {thread : Nat}
    (registering : state.call job = .registering thread) :
    Tracked (state.register job thread) := by
  have current := tracked.registering job thread registering
  constructor
  case registering =>
    intro other owned owns
    change Function.update state.call job _ other = _ at owns
    by_cases same : other = job
    · subst same
      rw [Function.update_self] at owns
      cases owns
    · rw [Function.update_of_ne same] at owns
      exact tracked.registering other owned owns
  case working =>
    intro owned
    change owned ∈ state.mWorkingThreads ++ [thread] ↔
      ∃ task, Function.update state.call job _ task = _ ∧ (state.thread owned).current = _
    rw [List.mem_append, List.mem_singleton, tracked.working owned]
    constructor
    · rintro (⟨task, returned, held⟩ | rfl)
      · have different : task ≠ job := by
          rintro rfl
          cases registering.symm.trans returned
        exact ⟨task, (Function.update_of_ne different ..).trans returned, held⟩
      · exact ⟨job, Function.update_self .., current⟩
    · rintro ⟨task, returned, held⟩
      by_cases same : task = job
      · subst same
        rw [Function.update_self] at returned
        cases returned
        exact .inr rfl
      · rw [Function.update_of_ne same] at returned
        exact .inl ⟨task, returned, held⟩
  case nodup =>
    change (state.mWorkingThreads ++ [thread]).Nodup
    rw [List.nodup_append]
    refine ⟨tracked.nodup, List.nodup_singleton thread, ?_⟩
    intro other listed last now same
    rw [List.mem_singleton.1 now] at same
    subst same
    obtain ⟨task, returned, held⟩ := (tracked.working other).1 listed
    cases held.symm.trans current
    cases registering.symm.trans returned

theorem Tracked.submit {state : State Job} (tracked : Tracked state) {job : Job}
    (outside : state.call job = .outside) : Tracked (state.submit job) := by
  have early : ¬(state.call job).Handed := by
    rw [outside]
    exact id
  unfold State.submit
  split
  · exact tracked.setCall early id
  · rename_i freeThread rest _listed
    have popped : Tracked { state with mFreeThreads := rest } := tracked.congr rfl rfl rfl
    exact popped.setCall early id

theorem Tracked.emplace {state : State Job} (tracked : Tracked state) (inv : Inv state) {job : Job}
    (emplacing : state.call job = .emplacing) : Tracked (state.emplace job) := by
  have early : ¬(state.call job).Handed := by
    rw [emplacing]
    exact id
  have unborn := (inv.unborn state.mThreads (Nat.le_refl _)).1
  have grown : Tracked { state with mThreads := state.mThreads + 1 } := tracked.congr rfl rfl rfl
  have constructed : Tracked
      ({ state with mThreads := state.mThreads + 1 }.setThread state.mThreads .fresh) :=
    grown.setThread (congrArg Thread.current unborn.symm)
  exact constructed.setCall early id

omit [DecidableEq Job] in
theorem Tracked.move {state : State Job} (tracked : Tracked state) {thread : Nat}
    {place : Place Job}
    (same : ({ state.thread thread with place := place } : Thread Job).current =
      (state.thread thread).current) : Tracked (state.move thread place) :=
  tracked.setThread same

theorem Tracked.next {state : State Job} (tracked : Tracked state) (inv : Inv state)
    {action : Action Job} (enabled : Enabled state action) (inTime : InTime state action) :
    Tracked (next state action) := by
  cases action with
  | submit job => exact tracked.submit enabled
  | emplace job => exact tracked.emplace inv enabled
  | workOn job thread =>
      have idle := (inv.assigned job thread enabled.1).1
      have early : ¬(state.call job).Handed := by
        rw [enabled.1]
        exact id
      exact tracked.workOn early idle (inv.assigned_waiting enabled.1 enabled.2).2
  | register job thread => exact tracked.register enabled
  | take thread task =>
      have started : Tracked { state with executions := state.executions ++ [task] } :=
        tracked.congr rfl rfl rfl
      refine started.setThread (Eq.trans ?_ (Thread.current_waiting (.inl enabled.1)).symm)
      exact enabled.2.symm
  | finish thread task =>
      have running : (state.thread thread).place = .running task := enabled
      apply tracked.move
      unfold Thread.current
      rw [running]
  | reset thread task =>
      have ended : (state.thread thread).place = .ended task := enabled
      apply tracked.setThread
      unfold Thread.current
      rw [ended]
  | remove thread task =>
      have reset : (state.thread thread).place = .reset task := enabled
      exact tracked.remove (inv.task_none (by rw [reset]; nofun)) reset inTime
  | free thread =>
      have removed : (state.thread thread).place = .removed := enabled
      have listed : Tracked { state with mFreeThreads := state.mFreeThreads ++ [thread] } :=
        tracked.congr rfl rfl rfl
      apply listed.move
      exact (Thread.current_waiting (.inr (.inl removed))).symm
  | unlock thread =>
      have freed : (state.thread thread).place = .freed := enabled
      apply tracked.move
      exact (Thread.current_waiting (.inr (.inr freed))).symm

theorem tracked_run {actions : List (Action Job)} (runs : (machine Job).Runs .initial actions)
    (inTime : (machine Job).Along InTime .initial actions) :
    Tracked ((machine Job).after .initial actions) := by
  have both := Machine.invariant_along (fun state => Inv state ∧ Tracked state)
    (fun _ _ holds enabled inTime =>
      ⟨holds.1.next enabled, holds.2.next holds.1 enabled inTime⟩)
    ⟨Inv.initial, Tracked.initial⟩ runs inTime
  exact both.2

/-- All submitted jobs have finished, all calls of submitJob have returned, and every
thread is back in its wait. -/
structure Quiet (state : State Job) : Prop where
  finished : ∀ job, state.call job ≠ .outside → job ∈ state.executions
  returned : ∀ job, state.call job = .outside ∨ ∃ thread, state.call job = .returned thread
  waiting : ∀ thread < state.mThreads, (state.thread thread).place = .waiting

omit [DecidableEq Job] in
theorem Quiet.current {state : State Job} (quiet : Quiet state) (inv : Inv state) (thread : Nat) :
    (state.thread thread).current = none := by
  by_cases born : thread < state.mThreads
  · rw [Thread.current_waiting (.inl (quiet.waiting thread born))]
    cases held : (state.thread thread).mTask with
    | none => rfl
    | some job =>
        have handed := (inv.placed job).2 (.inr ⟨thread, held⟩)
        have submitted : state.call job ≠ .outside := by
          intro outside
          rw [outside] at handed
          exact handed
        exact absurd (quiet.finished job submitted) (inv.pending thread job held)
  · rw [(inv.unborn thread (Nat.le_of_not_lt born)).1]
    rfl

omit [DecidableEq Job] in
theorem Tracked.quiet {state : State Job} (tracked : Tracked state) (inv : Inv state)
    (quiet : Quiet state) : state.mWorkingThreads = [] := by
  apply List.eq_nil_iff_forall_not_mem.2
  intro thread listed
  obtain ⟨job, _, current⟩ := (tracked.working thread).1 listed
  cases (quiet.current inv thread).symm.trans current

theorem working_threads_tracked (actions : List (Action Job))
    (runs : (machine Job).Runs .initial actions)
    (inTime : (machine Job).Along InTime .initial actions) :
    ((machine Job).after .initial actions).mWorkingThreads.Nodup ∧
      (Quiet ((machine Job).after .initial actions) →
        ((machine Job).after .initial actions).mWorkingThreads = [] ∧
          ((machine Job).after .initial actions).workingThreadsCount = 0) := by
  have inv := inv_run runs
  have tracked := tracked_run runs inTime
  refine ⟨tracked.nodup, ?_⟩
  intro quiet
  have empty := tracked.quiet inv quiet
  exact ⟨empty, congrArg List.length empty⟩

/-- A job that ends after its call has entered the thread. -/
def longJob : List (Action (Fin 2)) :=
  [.submit 0, .emplace 0, .workOn 0 0, .take 0 0, .register 0 0, .finish 0 0, .reset 0 0,
    .remove 0 0, .free 0, .unlock 0]

theorem working_threads_tracked_longJob :
    (machine (Fin 2)).Runs .initial longJob ∧ (machine (Fin 2)).Along InTime .initial longJob ∧
      ((machine (Fin 2)).after .initial longJob).mWorkingThreads.Nodup ∧
      Quiet ((machine (Fin 2)).after .initial longJob) ∧
      ((machine (Fin 2)).after .initial longJob).mWorkingThreads = [] ∧
      ((machine (Fin 2)).after .initial longJob).workingThreadsCount = 0 := by
  have runs : (machine (Fin 2)).Runs .initial longJob := by decide
  have inTime : (machine (Fin 2)).Along InTime .initial longJob := by decide
  have quiet : Quiet ((machine (Fin 2)).after .initial longJob) := by
    refine ⟨by decide, ?_, by decide⟩
    intro job
    match job with
    | 0 => exact .inr ⟨0, by decide⟩
    | 1 => exact .inl (by decide)
  obtain ⟨nodup, idle⟩ := working_threads_tracked longJob runs inTime
  exact ⟨runs, inTime, nodup, quiet, idle quiet⟩

/-- A job that ends before its call has entered the thread. -/
def shortJob : List (Action (Fin 2)) :=
  [.submit 0, .emplace 0, .workOn 0 0, .take 0 0, .finish 0 0, .reset 0 0, .remove 0 0,
    .free 0, .unlock 0, .register 0 0]

/-- The thread of a short job gets another job. -/
def shortJobAgain : List (Action (Fin 2)) :=
  shortJob ++ [.submit 1, .workOn 1 0, .register 1 0]

theorem shortJob_stays_listed :
    (machine (Fin 2)).Runs .initial shortJob ∧
      Quiet ((machine (Fin 2)).after .initial shortJob) ∧
      ((machine (Fin 2)).after .initial shortJob).mWorkingThreads = [0] ∧
      (machine (Fin 2)).Runs .initial shortJobAgain ∧
      ((machine (Fin 2)).after .initial shortJobAgain).mWorkingThreads = [0, 0] := by
  refine ⟨by decide, ⟨by decide, ?_, by decide⟩, by decide, by decide, by decide⟩
  intro job
  match job with
  | 0 => exact .inr ⟨0, by decide⟩
  | 1 => exact .inl (by decide)

end MCoro.ThreadPool
