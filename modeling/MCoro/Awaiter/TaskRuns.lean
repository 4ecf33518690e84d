/-
A program of coroutines does what its bodies say.

Each step of the run time keeps what the frames stand for, or takes the step that the
computation of the running thread takes. So the frames, the awaiters and the transfers
between coroutines do in every run what calls of nested functions would do.
-/

import MCoro.Awaiter.TaskSteps

namespace MCoro.Tasks

variable {Value Exception Operation Answer Memory : Type}
  {frames frames' : Frames Value Exception Operation Answer Memory}
  {runtime runtime' : Runtime Value Exception Operation Answer Memory}

/-! ### All threads -/

inductive Waits (frames : Frames Value Exception Operation Answer Memory) : Handle →
    Multiset Handle → (Answer → Tree Value Exception Operation Answer Memory) → Prop
  | operating {coroutine frame next own inner footprint after}
      (here : frames coroutine = some frame) (point : frame.point = .operating next)
      (bare : frame.awaiter = none) (task : frame.spawned = false)
      (owned : Holds frames frame.tasks own inner)
      (callers : Chain frames none coroutine frame.spawned frame.mAwaiter footprint after) :
      Waits frames coroutine (coroutine ::ₘ (own + footprint)) fun answer =>
        ((next answer).tree inner).follow after

theorem Waits.congr {coroutine : Handle} {footprint : Multiset Handle}
    {next : Answer → Tree Value Exception Operation Answer Memory}
    (waits : Waits frames coroutine footprint next)
    (same : ∀ coroutine ∈ footprint, frames' coroutine = frames coroutine) :
    Waits frames' coroutine footprint next := by
  cases waits with
  | operating here point bare task owned callers =>
      refine .operating ?_ point bare task (owned.congr ?_) (callers.congr ?_)
      · rw [same _ (Multiset.mem_cons_self _ _), here]
      · intro other member
        exact same other (by simp [member])
      · intro other member
        exact same other (by simp [member])

/-- The threads of the active coroutines and of the pending ones. -/
inductive Threads (frames : Frames Value Exception Operation Answer Memory) : List Handle →
    List (Operation × Handle) → Multiset Handle →
    List (Tree Value Exception Operation Answer Memory) →
    List (Operation × (Answer → Tree Value Exception Operation Answer Memory)) → Prop
  | nil : Threads frames [] [] 0 [] []
  | active {coroutine callers pending first footprint tree trees nexts}
      (thread : Thread frames coroutine first tree)
      (others : Threads frames callers pending footprint trees nexts) :
      Threads frames (coroutine :: callers) pending (first + footprint) (tree :: trees) nexts
  | pending {operation coroutine callers pending first footprint next trees nexts}
      (waits : Waits frames coroutine first next)
      (others : Threads frames callers pending footprint trees nexts) :
      Threads frames callers ((operation, coroutine) :: pending) (first + footprint) trees
        ((operation, next) :: nexts)

namespace Threads

variable {active : List Handle} {pending : List (Operation × Handle)} {footprint : Multiset Handle}
  {trees : List (Tree Value Exception Operation Answer Memory)}
  {nexts : List (Operation × (Answer → Tree Value Exception Operation Answer Memory))}

theorem congr (threads : Threads frames active pending footprint trees nexts)
    (same : ∀ coroutine ∈ footprint, frames' coroutine = frames coroutine) :
    Threads frames' active pending footprint trees nexts := by
  induction threads with
  | nil => exact .nil
  | active thread _ ih =>
      refine .active (thread.congr ?_) (ih ?_)
      · intro other member
        exact same other (Multiset.mem_add.mpr (.inl member))
      · intro other member
        exact same other (Multiset.mem_add.mpr (.inr member))
  | pending waits _ ih =>
      refine .pending (waits.congr ?_) (ih ?_)
      · intro other member
        exact same other (Multiset.mem_add.mpr (.inl member))
      · intro other member
        exact same other (Multiset.mem_add.mpr (.inr member))

theorem operations (threads : Threads frames active pending footprint trees nexts) :
    pending.map Prod.fst = nexts.map Prod.fst := by
  induction threads with
  | nil => rfl
  | active _ _ ih => exact ih
  | pending _ _ ih => simp [ih]

theorem running {coroutine : Handle}
    (threads : Threads frames (coroutine :: active) pending footprint trees nexts) :
    ∃ first others tree rest, footprint = first + others ∧ trees = tree :: rest ∧
      Thread frames coroutine first tree ∧ Threads frames active pending others rest nexts := by
  generalize same : coroutine :: active = all at threads
  induction threads with
  | nil => cases same
  | active thread others =>
      cases same
      exact ⟨_, _, _, _, rfl, rfl, thread, others⟩
  | pending waits _ ih =>
      obtain ⟨first, others, tree, rest, rfl, rfl, thread, behind⟩ := ih same
      exact ⟨first, _ + others, tree, rest, add_left_comm _ _ _, rfl, thread, .pending waits behind⟩

theorem nothing (threads : Threads frames [] [] footprint trees nexts) : footprint = 0 := by
  cases threads
  rfl

theorem idle (threads : Threads frames [] pending footprint trees nexts) : trees = [] := by
  generalize same : [] = all at threads
  induction threads with
  | nil => rfl
  | active => cases same
  | pending _ _ ih => exact ih same

theorem began {operation : Operation} {coroutine : Handle} {own : Multiset Handle}
    {next : Answer → Tree Value Exception Operation Answer Memory}
    (threads : Threads frames active pending footprint trees nexts)
    (waits : Waits frames coroutine own next) :
    Threads frames active (pending ++ [(operation, coroutine)]) (own + footprint) trees
      (nexts ++ [(operation, next)]) := by
  induction threads with
  | nil => exact .pending waits .nil
  | active thread _ ih =>
      rw [add_left_comm]
      exact .active thread ih
  | pending first _ ih =>
      rw [add_left_comm]
      exact .pending first ih

theorem take {index : Nat} {operation : Operation} {coroutine : Handle}
    (threads : Threads frames active pending footprint trees nexts)
    (found : pending[index]? = some (operation, coroutine)) :
    ∃ own others next, footprint = own + others ∧ nexts[index]? = some (operation, next) ∧
      Waits frames coroutine own next ∧
      Threads frames active (pending.eraseIdx index) others trees (nexts.eraseIdx index) := by
  induction threads generalizing index with
  | nil => cases found
  | active thread _ ih =>
      obtain ⟨own, others, next, rfl, at_, waits, behind⟩ := ih found
      exact ⟨own, _ + others, next, add_left_comm _ _ _, at_, waits, .active thread behind⟩
  | pending first rest ih =>
      cases index with
      | zero =>
          cases found
          exact ⟨_, _, _, rfl, rfl, first, rest⟩
      | succ index =>
          obtain ⟨own, others, next, rfl, at_, waits, behind⟩ := ih found
          exact ⟨own, _ + others, next, add_left_comm _ _ _, at_, waits, .pending first behind⟩

theorem length (threads : Threads frames active pending footprint trees nexts) :
    pending.length = nexts.length := by
  have same := congrArg List.length threads.operations
  simpa using same

end Threads

/-- What the run time has in memory is this pool; every frame has one owner. -/
structure Shows (runtime : Runtime Value Exception Operation Answer Memory)
    (pool : Resumptions.Pool (Outcome Value Exception) Operation Answer Memory) : Prop where
  memory : runtime.memory = pool.memory
  log : runtime.log = pool.log
  threads : ∃ footprint, Ledger runtime.frames runtime.allocated footprint ∧
    Threads runtime.frames runtime.active runtime.pending footprint pool.active pool.pending

/-! ### One step -/

section

variable {coroutine : Handle} {callers : List Handle} {others own footprint : Multiset Handle}
  {frame : Frame Value Exception Operation Answer Memory}
  {inner rest : List (Tree Value Exception Operation Answer Memory)}
  {tree : Tree Value Exception Operation Answer Memory}
  {after : Outcome Value Exception → Tree Value Exception Operation Answer Memory →
    Tree Value Exception Operation Answer Memory}
  {pool : Resumptions.Pool (Outcome Value Exception) Operation Answer Memory}

theorem Continues.shows (continues : Continues runtime runtime' callers others tree)
    (memory : runtime.memory = pool.memory) (log : runtime.log = pool.log)
    (threads : Threads runtime.frames callers runtime.pending others rest pool.pending)
    (active : pool.active = tree :: rest) : Shows runtime' pool := by
  obtain ⟨coroutine, footprint, running, thread, ledger⟩ := continues.thread
  refine ⟨continues.memory.trans memory, continues.log.trans log, footprint + others, ledger, ?_⟩
  rw [running, continues.pending, active]
  exact .active thread (threads.congr continues.same)

theorem coSpawnStarter_thread (task : Body Value Exception Operation Answer Memory) :
    (coSpawnStarter.tree [task.tree []]).follow (fun outcome _ => .finish outcome) =
      task.thread := by
  change ((task.tree []).follow _).follow _ = (task.tree []).follow _
  rw [Resumption.follow_follow]
  congr 1
  funext outcome _
  cases outcome with
  | yielded value => rfl
  | returned result => cases result <;> rfl
  | threw exception => rfl

/-- What the run time shows besides the running coroutine. -/
structure Beside (runtime : Runtime Value Exception Operation Answer Memory)
    (callers : List Handle) (others : Multiset Handle)
    (rest : List (Tree Value Exception Operation Answer Memory))
    (pool : Resumptions.Pool (Outcome Value Exception) Operation Answer Memory) : Prop where
  memory : runtime.memory = pool.memory
  log : runtime.log = pool.log
  threads : Threads runtime.frames callers runtime.pending others rest pool.pending

theorem Running.coAwaitOperation
    (running : Running runtime coroutine callers others frame own inner footprint after)
    (task : frame.spawned = false) {operation : Operation}
    {next : Answer → Body Value Exception Operation Answer Memory}
    (beside : Beside runtime callers others rest pool)
    (active : pool.active =
      ((Body.coAwaitOperation operation next).tree inner).follow after :: rest) :
    ∃ runtime', runtime.execute coroutine callers frame (.coAwaitOperation operation next) =
        .ok runtime' ∧ Shows runtime' pool.proceed := by
  obtain ⟨written, same⟩ := Running.of_write { frame with point := .operating next }
    running.active ⟨rfl, rfl⟩ running.bare running.owned running.chain running.ledger
  refine ⟨{ runtime.write coroutine { frame with point := .operating next } with
    active := callers
    pending := runtime.pending ++ [(operation, coroutine)]
    log := runtime.log ++ [.began operation] }, ?_, ?_⟩
  · unfold Runtime.execute
    simp only [standAt_eq running.here, Faults.ok_bind]
    rfl
  · rw [Resumptions.Pool.proceed_operate active]
    have ledger := written.ledger
    rw [← add_assoc, ← Multiset.cons_add] at ledger
    refine ⟨beside.memory, congrArg (· ++ _) beside.log, _, ledger, ?_⟩
    exact (beside.threads.congr same).began
      (.operating written.here rfl written.bare task written.owned written.chain)

theorem Running.access
    (running : Running runtime coroutine callers others frame own inner footprint after)
    (task : frame.spawned = false) {change_ : Memory → Memory × Answer}
    {next : Answer → Body Value Exception Operation Answer Memory}
    (beside : Beside runtime callers others rest pool)
    (active : pool.active = ((Body.access change_ next).tree inner).follow after :: rest) :
    ∃ runtime', runtime.execute coroutine callers frame (.access change_ next) =
        .ok runtime' ∧ Shows runtime' pool.proceed := by
  obtain ⟨runtime', stands, continues⟩ := running.standAt (next (change_ runtime.memory).2)
    (fun spawned => by cases task.symm.trans spawned)
  have shows : Shows runtime' { pool with
      active := ((next (change_ runtime.memory).2).tree inner).follow after :: rest } :=
    continues.shows beside.memory beside.log beside.threads rfl
  refine ⟨{ runtime' with memory := (change_ runtime.memory).1 }, ?_, ?_⟩
  · unfold Runtime.execute
    simp only [stands, Faults.ok_bind]
  · rw [Resumptions.Pool.proceed_access active, ← beside.memory]
    exact ⟨rfl, shows.log, shows.threads⟩

theorem spawn_threads {active : List Handle}
    {trees : List (Tree Value Exception Operation Answer Memory)}
    {nexts : List (Operation × (Answer → Tree Value Exception Operation Answer Memory))}
    (task : Body Value Exception Operation Answer Memory)
    (running : runtime.active = active)
    (ledger : Ledger runtime.frames runtime.allocated footprint)
    (threads : Threads runtime.frames active runtime.pending footprint trees nexts) :
    ∃ footprint', Ledger (runtime.spawn task).frames (runtime.spawn task).allocated footprint' ∧
      Threads (runtime.spawn task).frames (runtime.spawn task).active runtime.pending footprint'
        (task.thread :: trees) nexts := by
  subst running
  let called := runtime.allocate (Frame.initial task)
  let starter : Frame Value Exception Operation Answer Memory :=
    { Frame.initial coSpawnStarter with spawned := true, tasks := [some runtime.allocated] }
  have ledger₁ : Ledger called.frames (runtime.allocated + 1) (runtime.allocated ::ₘ footprint) :=
    ledger.allocate (Frame.initial task)
  have ledger₂ := ledger₁.allocate starter
  have fresh : runtime.allocated ≠ runtime.allocated + 1 := Nat.ne_of_lt (Nat.lt_succ_self _)
  have same : ∀ other ∈ footprint, (called.allocate starter).frames other = runtime.frames other := by
    intro other member
    have below := ledger.used other member
    have first : other ≠ runtime.allocated := Nat.ne_of_lt below
    have second : other ≠ runtime.allocated + 1 := Nat.ne_of_lt (Nat.lt_succ_of_lt below)
    exact (Function.update_of_ne second _ _).trans (Function.update_of_ne first _ _)
  have there : (called.allocate starter).frames runtime.allocated = some (Frame.initial task) :=
    (Function.update_of_ne fresh _ _).trans (Function.update_self _ _ _)
  have here : (called.allocate starter).frames (runtime.allocated + 1) = some starter :=
    Function.update_self _ _ _
  have held : Holds (called.allocate starter).frames starter.tasks (runtime.allocated ::ₘ 0)
      [task.tree []] := .one_suspended there rfl rfl rfl .nil
  have thread := Thread.runs here rfl rfl (fun _ => starter_coSpawnStarter) held .root
  rw [coSpawnStarter_thread, add_zero] at thread
  refine ⟨_, ?_, .active thread (threads.congr same)⟩
  simp only [Multiset.cons_add, zero_add]
  exact ledger₂

theorem Running.coSpawn
    (running : Running runtime coroutine callers others frame own inner footprint after)
    (task : frame.spawned = false) {spawned next : Body Value Exception Operation Answer Memory}
    (beside : Beside runtime callers others rest pool)
    (active : pool.active = ((Body.coSpawn spawned next).tree inner).follow after :: rest) :
    ∃ runtime', runtime.execute coroutine callers frame (.coSpawn spawned next) =
        .ok runtime' ∧ Shows runtime' pool.proceed := by
  obtain ⟨runtime₁, stands, continues⟩ := running.standAt next
    (fun spawned => by cases task.symm.trans spawned)
  have shows : Shows runtime₁ { pool with active := (next.tree inner).follow after :: rest } :=
    continues.shows beside.memory beside.log beside.threads rfl
  obtain ⟨footprint, ledger, threads⟩ := shows.threads
  refine ⟨runtime₁.spawn spawned, ?_, ?_⟩
  · unfold Runtime.execute
    simp only [stands, Faults.ok_bind]
  · rw [Resumptions.Pool.proceed_spawn active]
    exact ⟨shows.memory, shows.log, spawn_threads spawned rfl ledger threads⟩

end

theorem Waits.answer {coroutine : Handle} {own : Multiset Handle}
    {next : Answer → Tree Value Exception Operation Answer Memory}
    (waits : Waits runtime.frames coroutine own next) (distinct : own.Nodup) (answer : Answer) :
    ∃ frame', runtime.answer coroutine answer = .ok (runtime.write coroutine frame') ∧
      coroutine ∈ own ∧ Thread (runtime.write coroutine frame').frames coroutine own
        (next answer) := by
  cases waits with
  | @operating frame code mine inner footprint after here point bare task owned callers =>
      obtain ⟨outside, _⟩ := Multiset.nodup_cons.mp distinct
      rw [Multiset.mem_add, not_or] at outside
      refine ⟨{ frame with point := .code (code answer) }, ?_, Multiset.mem_cons_self _ _, ?_⟩
      · unfold Runtime.answer
        simp only [frame_eq here, Faults.ok_bind, point, standAt_eq here]
      · refine .runs (Function.update_self _ _ _) rfl bare ?_ (owned.update outside.1 _)
          (callers.update outside.2 _)
        intro spawned
        cases task.symm.trans spawned

theorem Shows.answer {pool : Resumptions.Pool (Outcome Value Exception) Operation Answer Memory}
    (shows : Shows runtime pool) {index : Nat} {operation : Operation} {coroutine : Handle}
    (found : runtime.pending[index]? = some (operation, coroutine)) (answer : Answer) :
    ∃ next frame', pool.pending[index]? = some (operation, next) ∧
      runtime.answer coroutine answer = .ok (runtime.write coroutine frame') ∧
      Shows
        { runtime.write coroutine frame' with
          active := coroutine :: runtime.active, pending := runtime.pending.eraseIdx index }
        { pool with
          active := next answer :: pool.active, pending := pool.pending.eraseIdx index } := by
  obtain ⟨footprint, ledger, threads⟩ := shows.threads
  obtain ⟨own, others, next, rfl, there, waits, behind⟩ := threads.take found
  obtain ⟨distinct, _, apart⟩ := Multiset.nodup_add.mp ledger.distinct
  obtain ⟨frame', answered, member, thread⟩ := waits.answer distinct answer
  have same : ∀ other ∈ others,
      (runtime.write coroutine frame').frames other = runtime.frames other := by
    intro other kept
    apply Function.update_of_ne
    rintro rfl
    exact Multiset.disjoint_left.mp apart member kept
  exact ⟨next, _, there, answered, shows.memory, shows.log, own + others,
    ledger.write (Multiset.mem_add.mpr (.inl member)) frame', .active thread (behind.congr same)⟩

section

variable {coroutine : Handle} {callers : List Handle} {others own footprint : Multiset Handle}
  {frame : Frame Value Exception Operation Answer Memory}
  {inner rest : List (Tree Value Exception Operation Answer Memory)}
  {after : Outcome Value Exception → Tree Value Exception Operation Answer Memory →
    Tree Value Exception Operation Answer Memory}
  {pool : Resumptions.Pool (Outcome Value Exception) Operation Answer Memory}

theorem Running.resume
    (running : Running runtime coroutine callers others frame own inner footprint after)
    (task : frame.spawned = false)
    {pick : Memory → List Operation → Option (Nat × Answer)}
    {next : Body Value Exception Operation Answer Memory}
    (beside : Beside runtime callers others rest pool)
    (active : pool.active = ((Body.resume pick next).tree inner).follow after :: rest) :
    ∃ runtime', runtime.execute coroutine callers frame (.resume pick next) =
        .ok runtime' ∧ Shows runtime' pool.proceed := by
  obtain ⟨written, same⟩ := Running.of_write { frame with point := .code next }
    running.active ⟨rfl, rfl⟩ running.bare running.owned running.chain running.ledger
  have starter : frame.spawned = true → Starter next := by
    intro spawned
    cases task.symm.trans spawned
  let runtime₁ := runtime.write coroutine { frame with point := .code next }
  have continues : Continues runtime runtime₁ callers others ((next.tree inner).follow after) :=
    (written.continues rfl starter).of_frames same
  have shows : Shows runtime₁ { pool with active := (next.tree inner).follow after :: rest } :=
    continues.shows beside.memory beside.log beside.threads rfl
  have stands : runtime.standAt coroutine (.code next) = .ok runtime₁ := standAt_eq running.here _
  have operations : runtime.pending.map Prod.fst = pool.pending.map Prod.fst :=
    beside.threads.operations
  have length : runtime.pending.length = pool.pending.length := beside.threads.length
  have asked : pick pool.memory (pool.pending.map Prod.fst) =
      pick runtime₁.memory (runtime₁.pending.map Prod.fst) := by
    rw [← beside.memory, ← operations]
    rfl
  rw [Resumptions.Pool.proceed_wake active, asked]
  unfold Runtime.execute
  simp only [stands, Faults.ok_bind]
  cases pick runtime₁.memory (runtime₁.pending.map Prod.fst) with
  | none => exact ⟨_, rfl, shows⟩
  | some picked =>
      obtain ⟨index, answer⟩ := picked
      cases found : runtime₁.pending[index]? with
      | none =>
          have missing : pool.pending[index]? = none := by
            rw [List.getElem?_eq_none_iff, ← length]
            exact List.getElem?_eq_none_iff.mp found
          simp only [found, missing]
          exact ⟨_, rfl, shows⟩
      | some waiting =>
          obtain ⟨operation, woken⟩ := waiting
          obtain ⟨further, frame', there, answered, woke⟩ := shows.answer found answer
          have running₁ : runtime₁.active = coroutine :: callers := running.active
          have there : pool.pending[index]? = some (operation, further) := there
          rw [running₁] at woke
          simp only [found, there, answered, Faults.ok_bind]
          exact ⟨_, rfl, woke⟩

theorem Running.ended {outcome : Outcome Value Exception}
    (running : Running runtime coroutine callers others frame own inner footprint after)
    (spawned : frame.spawned = true) (beside : Beside runtime callers others rest pool)
    (active : pool.active = after outcome .undefined :: rest) :
    ∃ runtime',
      (do let runtime ← runtime.destroyTasks coroutine
          runtime.finalSuspend coroutine callers outcome) = .ok runtime' ∧
        Shows runtime' pool.proceed := by
  obtain ⟨frames', goes, ledger, same, last⟩ := running.ends spawned outcome
  refine ⟨_, goes, ?_⟩
  rw [last] at active
  rw [Resumptions.Pool.proceed_finish active]
  exact ⟨beside.memory, congrArg (· ++ _) beside.log, others, ledger, beside.threads.congr same⟩

/-- A running coroutine keeps what the memory stands for, or takes the step of its thread. -/
theorem Running.execute {body : Body Value Exception Operation Answer Memory}
    (running : Running runtime coroutine callers others frame own inner footprint after)
    (starter : frame.spawned = true → Starter body)
    (beside : Beside runtime callers others rest pool)
    (active : pool.active = (body.tree inner).follow after :: rest) (defined : pool.Defined) :
    ∃ runtime', runtime.execute coroutine callers frame body = .ok runtime' ∧
      (Shows runtime' pool ∨ Shows runtime' pool.proceed) := by
  have silent : ∀ {runtime'}, Continues runtime runtime' callers others
      ((body.tree inner).follow after) → Shows runtime' pool :=
    fun continues => continues.shows beside.memory beside.log beside.threads active
  have plain : ¬ Starter body → frame.spawned = false := by
    intro other
    cases same : frame.spawned with
    | false => rfl
    | true => exact absurd (starter same) other
  cases body with
  | coReturn result =>
      cases spawned : frame.spawned with
      | false =>
          have chain := running.chain
          rw [spawned] at chain
          obtain ⟨runtime', goes, continues⟩ := coReturn_called callers running.here spawned
            running.bare running.owned chain running.ledger
          exact ⟨runtime', goes, .inl (silent continues)⟩
      | true =>
          obtain ⟨runtime', goes, shows⟩ := running.ended spawned beside active
          refine ⟨runtime', ?_, .inr shows⟩
          change runtime.coReturn coroutine callers result = _
          unfold Runtime.coReturn
          simp only [frame_eq running.here, Faults.ok_bind, spawned, if_true]
          exact goes
  | throw exception =>
      cases spawned : frame.spawned with
      | false =>
          have chain := running.chain
          rw [spawned] at chain
          obtain ⟨runtime', goes, continues⟩ := throw_called callers running.here spawned
            running.bare running.owned chain running.ledger
          exact ⟨runtime', goes, .inl (silent continues)⟩
      | true =>
          obtain ⟨runtime', goes, shows⟩ := running.ended spawned beside active
          refine ⟨runtime', ?_, .inr shows⟩
          change runtime.throw coroutine callers exception = _
          unfold Runtime.throw
          simp only [frame_eq running.here, Faults.ok_bind, spawned, if_true]
          exact goes
  | coYield value next =>
      obtain ⟨runtime', goes, continues⟩ :=
        running.coYield (plain (by intro wrong; cases wrong)) value next
      exact ⟨runtime', goes, .inl (silent continues)⟩
  | coAwaitExpected expected next =>
      obtain ⟨runtime', goes, continues⟩ :=
        running.coAwaitExpected (plain (by intro wrong; cases wrong)) expected next
      exact ⟨runtime', goes, .inl (silent continues)⟩
  | coAwaitOperation operation next =>
      obtain ⟨runtime', goes, shows⟩ :=
        running.coAwaitOperation (plain (by intro wrong; cases wrong)) beside active
      exact ⟨runtime', goes, .inr shows⟩
  | access change_ next =>
      obtain ⟨runtime', goes, shows⟩ :=
        running.access (plain (by intro wrong; cases wrong)) beside active
      exact ⟨runtime', goes, .inr shows⟩
  | coSpawn task next =>
      obtain ⟨runtime', goes, shows⟩ :=
        running.coSpawn (plain (by intro wrong; cases wrong)) beside active
      exact ⟨runtime', goes, .inr shows⟩
  | resume pick next =>
      obtain ⟨runtime', goes, shows⟩ :=
        running.resume (plain (by intro wrong; cases wrong)) beside active
      exact ⟨runtime', goes, .inr shows⟩
  | coAwait checked callee next =>
      obtain ⟨runtime', goes, continues⟩ :=
        running.coAwait (plain (by intro wrong; cases wrong)) checked callee next
      exact ⟨runtime', goes, .inl (silent continues)⟩
  | bindTask callee next =>
      obtain ⟨runtime', goes, continues⟩ :=
        running.bindTask (plain (by intro wrong; cases wrong)) callee next
      exact ⟨runtime', goes, .inl (silent continues)⟩
  | coAwaitTask checked index moved next =>
      have known : frame.spawned = true → checked = false ∧ ∀ outcome, Starter (next outcome) := by
        intro spawned
        cases starter spawned with
        | coAwaitTask later => exact ⟨rfl, later⟩
      obtain ⟨runtime', goes, continues⟩ := running.coAwaitTask known (by
        intro same
        exact defined rest (same ▸ active))
      exact ⟨runtime', goes, .inl (silent continues)⟩
  | endScope next =>
      obtain ⟨runtime', goes, continues⟩ :=
        running.endScope (plain (by intro wrong; cases wrong)) next
      exact ⟨runtime', goes, .inl (silent continues)⟩

end

/-! ### Runs -/

section

variable {pool : Resumptions.Pool (Outcome Value Exception) Operation Answer Memory}

theorem Shows.idle_iff (shows : Shows runtime pool) :
    runtime.active = [] ↔ pool.active = [] := by
  obtain ⟨_, _, threads⟩ := shows.threads
  constructor
  · intro idle
    rw [idle] at threads
    exact threads.idle
  · intro idle
    cases active : runtime.active with
    | nil => rfl
    | cons coroutine callers =>
        rw [active] at threads
        obtain ⟨_, _, _, _, _, some, _⟩ := threads.running
        rw [idle] at some
        cases some

theorem Shows.proceed (shows : Shows runtime pool) (defined : pool.Defined) :
    ∃ runtime', runtime.proceed = .ok runtime' ∧
      (Shows runtime' pool ∨ Shows runtime' pool.proceed) := by
  cases active : runtime.active with
  | nil =>
      refine ⟨runtime, ?_, .inl shows⟩
      unfold Runtime.proceed
      rw [active]
  | cons coroutine callers =>
      obtain ⟨footprint, ledger, threads⟩ := shows.threads
      rw [active] at threads
      obtain ⟨first, others, tree, rest, rfl, trees, thread, behind⟩ := threads.running
      unfold Runtime.proceed
      simp only [active]
      cases thread with
      | @runs frame body own inner footprint after here point bare starter owned callers' =>
          rw [Multiset.cons_add, add_assoc] at ledger
          have running : Running runtime coroutine callers others frame own inner footprint after :=
            ⟨active, here, bare, owned, callers', ledger⟩
          simp only [frame_eq here, Faults.ok_bind, point]
          exact running.execute starter ⟨shows.memory, shows.log, behind⟩ trees defined
      | resumed here point temporary replied starter replier owned callers' =>
          rw [Multiset.cons_add, add_assoc] at ledger
          obtain ⟨runtime', goes, continues⟩ := resumeAwait_continues active here temporary
            replied starter replier owned callers' ledger
          simp only [frame_eq here, Faults.ok_bind, point, temporary]
          exact ⟨runtime', goes, .inl (continues.shows shows.memory shows.log behind trees)⟩

theorem Shows.complete (shows : Shows runtime pool) (index : Nat) (answer : Answer) :
    ∃ runtime', runtime.complete index answer = .ok runtime' ∧
      Shows runtime' (pool.complete index answer) := by
  cases active : runtime.active with
  | cons coroutine callers =>
      cases active' : pool.active with
      | nil => cases active.symm.trans (shows.idle_iff.mpr active')
      | cons tree rest =>
          refine ⟨runtime, ?_, ?_⟩
          · unfold Runtime.complete
            rw [active]
          · unfold Resumptions.Pool.complete
            rw [active']
            exact shows
  | nil =>
      have idle := shows.idle_iff.mp active
      obtain ⟨_, _, threads⟩ := shows.threads
      unfold Runtime.complete Resumptions.Pool.complete
      rw [active, idle]
      cases found : runtime.pending[index]? with
      | none =>
          have missing : pool.pending[index]? = none := by
            rw [List.getElem?_eq_none_iff, ← threads.length]
            exact List.getElem?_eq_none_iff.mp found
          rw [missing]
          exact ⟨runtime, rfl, shows⟩
      | some waiting =>
          obtain ⟨operation, coroutine⟩ := waiting
          obtain ⟨next, frame', there, answered, shows'⟩ := shows.answer found answer
          rw [active, idle] at shows'
          simp only [there, answered, Faults.ok_bind]
          exact ⟨_, rfl, shows'⟩

theorem Shows.acts (shows : Shows runtime pool) (safe : pool.Safe)
    (actions : List (Resumptions.Action Answer)) :
    ∃ taken runtime', taken.Sublist actions ∧
      taken.filter Resumptions.Action.isComplete =
        actions.filter Resumptions.Action.isComplete ∧
      runtime.acts actions = .ok runtime' ∧ Shows runtime' (pool.acts taken) := by
  induction actions generalizing runtime pool with
  | nil => exact ⟨[], runtime, .slnil, rfl, rfl, shows⟩
  | cons action rest ih =>
      cases action with
      | complete index answer =>
          obtain ⟨middle, goes, shows'⟩ := shows.complete index answer
          obtain ⟨taken, last, sub, same, ends, shows''⟩ := ih shows' (safe.act (.complete index answer))
          refine ⟨.complete index answer :: taken, last, sub.cons_cons _, ?_, ?_, shows''⟩
          · rw [List.filter_cons_of_pos rfl, List.filter_cons_of_pos rfl, same]
          · change (runtime.complete index answer >>= _) = _
            rw [goes]
            exact ends
      | proceed =>
          obtain ⟨middle, goes, shows'⟩ := shows.proceed safe.defined
          have ends : ∀ {last}, middle.acts rest = .ok last →
              runtime.acts (.proceed :: rest) = .ok last := by
            intro last ends
            change (runtime.proceed >>= _) = _
            rw [goes]
            exact ends
          rcases shows' with stays | goesOn
          · obtain ⟨taken, last, sub, same, done, shows''⟩ := ih stays safe
            exact ⟨taken, last, sub.cons _, same, ends done, shows''⟩
          · obtain ⟨taken, last, sub, same, done, shows''⟩ := ih goesOn (safe.act .proceed)
            exact ⟨.proceed :: taken, last, sub.cons_cons _, same, ends done, shows''⟩

end

theorem shows_coMain (memory : Memory) (main : Body Value Exception Operation Answer Memory) :
    Shows (Runtime.coMain memory main) (.start memory main.thread) := by
  have ledger : Ledger (fun _ => none : Frames Value Exception Operation Answer Memory) 0 0 :=
    ⟨Multiset.nodup_zero, fun coroutine => by simp, fun coroutine member => by simp at member⟩
  let empty : Runtime Value Exception Operation Answer Memory :=
    { memory, frames := fun _ => none, allocated := 0, active := [], pending := [], log := [] }
  have ledger : Ledger empty.frames empty.allocated 0 := ledger
  exact ⟨rfl, rfl, spawn_threads main rfl ledger .nil⟩

/-- A program of coroutines runs as its bodies say, with every co_await a call: whatever
the event loop does, no step of it faults, and the operations begun, the results of the
spawned tasks, the memory and what is pending are those of the program without frames. -/
theorem coMain_refines (memory : Memory) (main : Body Value Exception Operation Answer Memory)
    (safe : (Resumptions.Pool.start memory main.thread).Safe)
    (actions : List (Resumptions.Action Answer)) :
    ∃ taken runtime, taken.Sublist actions ∧
      taken.filter Resumptions.Action.isComplete =
        actions.filter Resumptions.Action.isComplete ∧
      (Runtime.coMain memory main).acts actions = .ok runtime ∧
      let pool := (Resumptions.Pool.start memory main.thread).acts taken
      runtime.memory = pool.memory ∧ runtime.log = pool.log ∧
        runtime.pending.map Prod.fst = pool.pending.map Prod.fst ∧
        (runtime.active = [] ↔ pool.active = []) := by
  obtain ⟨taken, runtime, sub, same, goes, shows⟩ := (shows_coMain memory main).acts safe actions
  obtain ⟨_, _, threads⟩ := shows.threads
  exact ⟨taken, runtime, sub, same, goes, shows.memory, shows.log, threads.operations,
    shows.idle_iff⟩

/-- A coroutine that awaits another, which waits for an answer. -/
def fetch : Body Nat Unit Unit Nat Unit :=
  .coAwait false (.coAwaitOperation () fun answer => .coReturn (.ok answer)) fun
    | .returned result => .coReturn result
    | .yielded value => .coReturn (.ok value)
    | .threw exception => .throw exception

def fetchActions : List (Resumptions.Action Nat) :=
  List.replicate 3 .proceed ++ .complete 0 7 :: List.replicate 5 .proceed

theorem fetch_safe : (Resumptions.Pool.start () fetch.thread).Safe :=
  have lasting : Resumption.Lasting (fun _ => False) fetch.thread :=
    .operate fun _ => .finish not_false
  Resumptions.Pool.Lasting.safe (.start lasting)

theorem fetch_log :
    ((Runtime.coMain () fetch).acts fetchActions).map Runtime.log =
      .ok [.began (), .ended (.returned (.ok 7))] := by
  decide +kernel

theorem coMain_refines_fetch :
    ∃ taken, taken.filter Resumptions.Action.isComplete = [.complete 0 7] ∧
      ((Resumptions.Pool.start () fetch.thread).acts taken).log =
        [.began (), .ended (.returned (.ok 7))] := by
  obtain ⟨taken, runtime, _, same, goes, _, log, _⟩ :=
    coMain_refines () fetch fetch_safe fetchActions
  have logged := fetch_log
  rw [goes] at logged
  exact ⟨taken, same, log.symm.trans (Except.ok.inj logged)⟩

/-- Nothing is left of a program that has come to its end, and nothing was destroyed twice. -/
theorem coMain_destroys (memory : Memory) (main : Body Value Exception Operation Answer Memory)
    (safe : (Resumptions.Pool.start memory main.thread).Safe)
    (actions : List (Resumptions.Action Answer)) :
    ∃ runtime, (Runtime.coMain memory main).acts actions = .ok runtime ∧
      (runtime.active = [] → runtime.pending = [] →
        ∀ coroutine, runtime.frames coroutine = none) := by
  obtain ⟨taken, runtime, _, _, goes, shows⟩ := (shows_coMain memory main).acts safe actions
  refine ⟨runtime, goes, ?_⟩
  intro idle empty coroutine
  obtain ⟨footprint, ledger, threads⟩ := shows.threads
  rw [idle, empty] at threads
  rw [threads.nothing] at ledger
  rw [← Option.not_isSome_iff_eq_none, ledger.there]
  exact Multiset.notMem_zero coroutine

theorem fetch_idle :
    ((Runtime.coMain () fetch).acts fetchActions).map
      (fun runtime => (runtime.active, runtime.pending.map Prod.snd, runtime.allocated)) =
      .ok ([], [], 3) := by
  decide +kernel

theorem coMain_destroys_fetch :
    ∃ runtime, (Runtime.coMain () fetch).acts fetchActions = .ok runtime ∧
      runtime.allocated = 3 ∧ ∀ coroutine, runtime.frames coroutine = none := by
  obtain ⟨runtime, goes, nothing⟩ := coMain_destroys () fetch fetch_safe fetchActions
  have idle := fetch_idle
  rw [goes] at idle
  have there := Except.ok.inj idle
  simp only [Prod.mk.injEq, List.map_eq_nil_iff] at there
  exact ⟨runtime, goes, there.2.2, nothing there.1 there.2.1⟩

end MCoro.Tasks
