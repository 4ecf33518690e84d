/-
The steps of a coroutine that runs.

Each step leaves what the frames of its thread stand for as it is: a co_await makes the
callee run on behalf of the same computation, and a reply hands it back to the caller.
The frames of the other threads are not touched.
-/

import MCoro.Awaiter.TaskShapes
import MCoro.Library.Faults

namespace MCoro.Tasks

variable {Value Exception Operation Answer Memory : Type}
  {frames frames' : Frames Value Exception Operation Answer Memory}
  {runtime runtime' : Runtime Value Exception Operation Answer Memory}

theorem frame_eq {coroutine : Handle} {frame : Frame Value Exception Operation Answer Memory}
    (here : runtime.frames coroutine = some frame) : runtime.frame coroutine = .ok frame := by
  unfold Runtime.frame
  rw [here]

theorem standAt_eq {coroutine : Handle} {frame : Frame Value Exception Operation Answer Memory}
    (here : runtime.frames coroutine = some frame)
    (point : Point Value Exception Operation Answer Memory) :
    runtime.standAt coroutine point = .ok (runtime.write coroutine { frame with point }) := by
  unfold Runtime.standAt
  rw [frame_eq here]
  rfl

/-- The running thread goes on with this computation; nothing else is touched. -/
structure Continues (runtime runtime' : Runtime Value Exception Operation Answer Memory)
    (callers : List Handle) (others : Multiset Handle)
    (tree : Tree Value Exception Operation Answer Memory) : Prop where
  memory : runtime'.memory = runtime.memory
  pending : runtime'.pending = runtime.pending
  log : runtime'.log = runtime.log
  thread : ∃ coroutine footprint, runtime'.active = coroutine :: callers ∧
    Thread runtime'.frames coroutine footprint tree ∧
    Ledger runtime'.frames runtime'.allocated (footprint + others)
  same : ∀ coroutine ∈ others, runtime'.frames coroutine = runtime.frames coroutine

theorem Continues.of_frames {callers : List Handle} {others : Multiset Handle}
    {tree : Tree Value Exception Operation Answer Memory}
    (goes : Continues { runtime with frames := frames' } runtime' callers others tree)
    (same : ∀ coroutine ∈ others, frames' coroutine = runtime.frames coroutine) :
    Continues runtime runtime' callers others tree where
  memory := goes.memory
  pending := goes.pending
  log := goes.log
  thread := goes.thread
  same coroutine member := (goes.same coroutine member).trans (same coroutine member)

section

variable {coroutine : Handle} {others own footprint : Multiset Handle}
  {frame : Frame Value Exception Operation Answer Memory}
  {inner : List (Tree Value Exception Operation Answer Memory)}
  {after : Outcome Value Exception → Tree Value Exception Operation Answer Memory →
    Tree Value Exception Operation Answer Memory}
  {outcome : Outcome Value Exception}

theorem handOver (callers : List Handle) {rest : Tree Value Exception Operation Answer Memory}
    (here : runtime.frames coroutine = some frame)
    (chain : Chain runtime.frames (some outcome) coroutine false frame.mAwaiter footprint after)
    (ledger : Ledger runtime.frames runtime.allocated
      (coroutine ::ₘ (own + (footprint + others))))
    (point : Point Value Exception Operation Answer Memory)
    (held : Holds (Function.update runtime.frames coroutine (some { frame with point }))
      [some coroutine] (coroutine ::ₘ own) [rest]) :
    ∃ runtime',
      (do let runtime ← runtime.standAt coroutine point
          runtime.transferToCaller coroutine callers) = .ok runtime' ∧
        Continues runtime runtime' callers others (after outcome rest) := by
  obtain ⟨outside, _⟩ := Multiset.nodup_cons.mp ledger.distinct
  simp only [Multiset.mem_add, not_or] at outside
  obtain ⟨_, below, beside⟩ := outside
  have moved : Chain (runtime.write coroutine { frame with point }).frames _ _ _ _ _ _ :=
    chain.update below (some { frame with point })
  have standing : { frame with point }.mAwaiter = frame.mAwaiter := rfl
  obtain ⟨caller, callerFrame, awaiter, knows, calling, found⟩ := moved.awaiterOf standing
  refine ⟨{ runtime.write coroutine { frame with point } with active := caller :: callers }, ?_,
    rfl, rfl, rfl, ⟨caller, coroutine ::ₘ own + footprint, rfl, ?_, ?_⟩, ?_⟩
  · rw [standAt_eq here, Faults.ok_bind]
    unfold Runtime.transferToCaller
    rw [frame_eq (Function.update_self _ _ _), Faults.ok_bind, found, Faults.ok_bind]
    simp only [calling]
  · exact moved.resumed knows held
  · rw [Multiset.cons_add, Multiset.cons_add, add_assoc]
    exact ledger.write (Multiset.mem_cons_self _ _) _
  · intro other member
    apply Function.update_of_ne
    rintro rfl
    exact beside member

theorem destroyAll_write (frame' : Frame Value Exception Operation Answer Memory)
    {handles : List (Option Handle)} (owned : Holds runtime.frames handles own inner)
    (ledger : Ledger runtime.frames runtime.allocated (coroutine ::ₘ (own + others))) :
    ∃ frames', (runtime.write coroutine frame').destroyAll handles =
        .ok { runtime with frames := frames' } ∧
      frames' coroutine = some frame' ∧
      Ledger frames' runtime.allocated (coroutine ::ₘ others) ∧
      ∀ other ∈ others, frames' other = runtime.frames other := by
  have outside := (Multiset.nodup_cons.mp ledger.distinct).1
  simp only [Multiset.mem_add, not_or] at outside
  have written := ledger.write (Multiset.mem_cons_self _ _) frame'
  rw [← Multiset.add_cons] at written
  have held : Holds (runtime.write coroutine frame').frames handles own inner :=
    owned.update outside.1 _
  obtain ⟨frames', done, ledger', same⟩ := held.destroyAll written
  refine ⟨frames', done, ?_, ledger', ?_⟩
  · exact (same _ (Multiset.mem_cons_self _ _)).trans (Function.update_self _ _ _)
  · intro other member
    rw [same other (Multiset.mem_cons_of_mem member)]
    apply Function.update_of_ne
    rintro rfl
    exact outside.2 member

theorem destroyTasks_spec (here : runtime.frames coroutine = some frame)
    (owned : Holds runtime.frames frame.tasks own inner)
    (ledger : Ledger runtime.frames runtime.allocated (coroutine ::ₘ (own + others))) :
    ∃ frames', runtime.destroyTasks coroutine = .ok { runtime with frames := frames' } ∧
      frames' coroutine = some { frame with tasks := [] } ∧
      Ledger frames' runtime.allocated (coroutine ::ₘ others) ∧
      ∀ other ∈ others, frames' other = runtime.frames other := by
  obtain ⟨frames', done, rest⟩ := destroyAll_write { frame with tasks := [] } owned ledger
  refine ⟨frames', ?_, rest⟩
  unfold Runtime.destroyTasks
  rw [frame_eq here, Faults.ok_bind, done]

/-- A coroutine that has replied and has no variables left comes to its final_suspend. -/
theorem finalSuspend_called (callers : List Handle) (here : runtime.frames coroutine = some frame)
    (task : frame.spawned = false) (bare : frame.awaiter = none) (empty : frame.tasks = [])
    (chain : Chain runtime.frames (some outcome) coroutine false frame.mAwaiter footprint after)
    (ledger : Ledger runtime.frames runtime.allocated (coroutine ::ₘ (footprint + others))) :
    ∃ runtime', runtime.finalSuspend coroutine callers outcome = .ok runtime' ∧
      Continues runtime runtime' callers others (after outcome .undefined) := by
  let final : Frame Value Exception Operation Answer Memory := { frame with point := .final }
  have nothing : Holds (Function.update runtime.frames coroutine (some final)) final.holds 0
      [] := by
    rw [final.holds_of_bare bare]
    change Holds _ frame.tasks _ _
    rw [empty]
    exact .nil
  have held := Holds.one_ended (Function.update_self _ _ _) (.inr rfl) nothing
  rw [← zero_add (footprint + others)] at ledger
  obtain ⟨runtime', goes, continues⟩ := handOver callers here chain ledger .final held
  refine ⟨runtime', ?_, continues⟩
  unfold Runtime.finalSuspend
  rw [frame_eq here, Faults.ok_bind, task]
  exact goes

theorem finalSuspend_spawned (callers : List Handle) (here : runtime.frames coroutine = some frame)
    (spawned : frame.spawned = true) (bare : frame.awaiter = none) (empty : frame.tasks = [])
    (ledger : Ledger runtime.frames runtime.allocated (coroutine ::ₘ others)) :
    ∃ frames', runtime.finalSuspend coroutine callers outcome = .ok
        { runtime with
          frames := frames', active := callers, log := runtime.log ++ [.ended outcome] } ∧
      Ledger frames' runtime.allocated others ∧
      ∀ other ∈ others, frames' other = runtime.frames other := by
  have apart := (Multiset.nodup_cons.mp ledger.distinct).1
  let final : Frame Value Exception Operation Answer Memory := { frame with point := .final }
  have nothing : Holds (runtime.write coroutine final).frames final.holds 0 [] := by
    rw [final.holds_of_bare bare]
    change Holds _ frame.tasks _ _
    rw [empty]
    exact .nil
  have held : Holds (runtime.write coroutine final).frames [some coroutine] {coroutine}
      [.undefined] := .one_ended (Function.update_self _ _ _) (.inr rfl) nothing
  have written := ledger.write (Multiset.mem_cons_self _ _) final
  rw [← Multiset.singleton_add] at written
  obtain ⟨frames', done, ledger', same⟩ := held.destroyAll written
  refine ⟨frames', ?_, ledger', ?_⟩
  · unfold Runtime.finalSuspend
    simp only [frame_eq here, standAt_eq here, Faults.ok_bind]
    rw [if_pos spawned, done]
    rfl
  · intro other member
    rw [same other member]
    apply Function.update_of_ne
    rintro rfl
    exact apart member

theorem reply_spec {set : TaskAwaiter Value Exception → TaskAwaiter Value Exception}
    (here : runtime.frames coroutine = some frame)
    (chain : Chain runtime.frames none coroutine false frame.mAwaiter footprint after)
    (ledger : Ledger runtime.frames runtime.allocated
      (coroutine ::ₘ (own + (footprint + others))))
    (replies : Replies set outcome) :
    ∃ frames', runtime.reply coroutine set = .ok { runtime with frames := frames' } ∧
      frames' coroutine = some frame ∧
      Chain frames' (some outcome) coroutine false frame.mAwaiter footprint after ∧
      Ledger frames' runtime.allocated (coroutine ::ₘ (own + (footprint + others))) ∧
      ∀ other ∈ own + others, frames' other = runtime.frames other := by
  obtain ⟨outside, distinct⟩ := Multiset.nodup_cons.mp ledger.distinct
  obtain ⟨_, distinct, apart⟩ := Multiset.nodup_add.mp distinct
  obtain ⟨distinct, _, beside⟩ := Multiset.nodup_add.mp distinct
  simp only [Multiset.mem_add, not_or] at outside
  obtain ⟨caller, member, callerFrame, replied, answered⟩ := chain.reply distinct here rfl replies
  refine ⟨_, replied, ?_, answered, ledger.write (by simp [member]) callerFrame, ?_⟩
  · rw [← here]
    apply Function.update_of_ne
    rintro rfl
    exact outside.2.1 member
  · intro other mine
    apply Function.update_of_ne
    rintro rfl
    rcases Multiset.mem_add.mp mine with below | kept
    · exact Multiset.disjoint_left.mp apart below (Multiset.mem_add.mpr (.inl member))
    · exact Multiset.disjoint_left.mp beside member kept

theorem coReturn_called (callers : List Handle) {result : Expected Value}
    (here : runtime.frames coroutine = some frame)
    (task : frame.spawned = false) (bare : frame.awaiter = none)
    (owned : Holds runtime.frames frame.tasks own inner)
    (chain : Chain runtime.frames none coroutine false frame.mAwaiter footprint after)
    (ledger : Ledger runtime.frames runtime.allocated
      (coroutine ::ₘ (own + (footprint + others)))) :
    ∃ runtime', runtime.coReturn coroutine callers result = .ok runtime' ∧
      Continues runtime runtime' callers others (after (.returned result) .undefined) := by
  obtain ⟨frames₁, replied, here₁, chain₁, ledger₁, same₁⟩ :=
    reply_spec here chain ledger (replies_returnValue result)
  let runtime₁ : Runtime Value Exception Operation Answer Memory :=
    { runtime with frames := frames₁ }
  have owned₁ : Holds runtime₁.frames frame.tasks own inner :=
    owned.congr fun other member => same₁ other (Multiset.mem_add.mpr (.inl member))
  obtain ⟨frames₂, gone, here₂, ledger₂, same₂⟩ := destroyTasks_spec here₁ owned₁ ledger₁
  let runtime₂ : Runtime Value Exception Operation Answer Memory :=
    { runtime with frames := frames₂ }
  have chain₂ : Chain runtime₂.frames (some (.returned result)) coroutine false frame.mAwaiter
      footprint after :=
    chain₁.congr fun other member => same₂ other (Multiset.mem_add.mpr (.inl member))
  have here₂ : runtime₂.frames coroutine = some { frame with tasks := [] } := here₂
  obtain ⟨runtime', goes, continues⟩ :=
    finalSuspend_called callers here₂ task bare rfl chain₂ ledger₂
  refine ⟨runtime', ?_, continues.of_frames ?_⟩
  · unfold Runtime.coReturn
    simp only [frame_eq here, Faults.ok_bind, task, replied, Bool.false_eq_true, if_false]
    change (runtime₁.destroyTasks coroutine >>= _) = _
    rw [gone]
    exact goes
  · intro other kept
    rw [same₂ other (Multiset.mem_add.mpr (.inr kept))]
    exact same₁ other (Multiset.mem_add.mpr (.inr kept))

theorem throw_called (callers : List Handle) {exception : Exception}
    (here : runtime.frames coroutine = some frame)
    (task : frame.spawned = false) (bare : frame.awaiter = none)
    (owned : Holds runtime.frames frame.tasks own inner)
    (chain : Chain runtime.frames none coroutine false frame.mAwaiter footprint after)
    (ledger : Ledger runtime.frames runtime.allocated
      (coroutine ::ₘ (own + (footprint + others)))) :
    ∃ runtime', runtime.throw coroutine callers exception = .ok runtime' ∧
      Continues runtime runtime' callers others (after (.threw exception) .undefined) := by
  obtain ⟨frames₁, gone, here₁, ledger₁, same₁⟩ := destroyTasks_spec here owned ledger
  let runtime₁ : Runtime Value Exception Operation Answer Memory :=
    { runtime with frames := frames₁ }
  have here₁ : runtime₁.frames coroutine = some { frame with tasks := [] } := here₁
  have chain₁ : Chain runtime₁.frames none coroutine false frame.mAwaiter footprint after :=
    chain.congr fun other member => same₁ other (Multiset.mem_add.mpr (.inl member))
  rw [← zero_add (footprint + others)] at ledger₁
  obtain ⟨frames₂, replied, here₂, chain₂, ledger₂, same₂⟩ :=
    reply_spec here₁ chain₁ ledger₁ (replies_unhandledException exception)
  let runtime₂ : Runtime Value Exception Operation Answer Memory :=
    { runtime with frames := frames₂ }
  have here₂ : runtime₂.frames coroutine = some { frame with tasks := [] } := here₂
  rw [zero_add] at ledger₂
  obtain ⟨runtime', goes, continues⟩ :=
    finalSuspend_called callers here₂ task bare rfl chain₂ ledger₂
  refine ⟨runtime', ?_, continues.of_frames ?_⟩
  · unfold Runtime.throw
    simp only [frame_eq here, Faults.ok_bind, gone, task, Bool.false_eq_true, if_false]
    change (runtime₁.reply coroutine (TaskAwaiter.unhandledException exception) >>= _) = _
    rw [replied]
    exact goes
  · intro other kept
    rw [same₂ other (Multiset.mem_add.mpr (.inr kept))]
    exact same₁ other (Multiset.mem_add.mpr (.inr kept))

/-- A reply that leaves the coroutine where it is: a co_yield, or an error at its
co_await. -/
theorem reply_handOver (callers : List Handle)
    {set : TaskAwaiter Value Exception → TaskAwaiter Value Exception}
    {rest : Tree Value Exception Operation Answer Memory}
    (here : runtime.frames coroutine = some frame)
    (chain : Chain runtime.frames none coroutine false frame.mAwaiter footprint after)
    (ledger : Ledger runtime.frames runtime.allocated
      (coroutine ::ₘ (own + (footprint + others))))
    (replies : Replies set outcome) (point : Point Value Exception Operation Answer Memory)
    (held : ∀ {frames' : Frames Value Exception Operation Answer Memory},
      frames' coroutine = some { frame with point } →
        (∀ other ∈ own, frames' other = runtime.frames other) →
        Holds frames' [some coroutine] (coroutine ::ₘ own) [rest]) :
    ∃ runtime',
      (do let runtime ← runtime.reply coroutine set
          let runtime ← runtime.standAt coroutine point
          runtime.transferToCaller coroutine callers) = .ok runtime' ∧
        Continues runtime runtime' callers others (after outcome rest) := by
  have outside := (Multiset.nodup_cons.mp ledger.distinct).1
  simp only [Multiset.mem_add, not_or] at outside
  obtain ⟨frames₁, replied, here₁, chain₁, ledger₁, same₁⟩ := reply_spec here chain ledger replies
  let runtime₁ : Runtime Value Exception Operation Answer Memory :=
    { runtime with frames := frames₁ }
  have here₁ : runtime₁.frames coroutine = some frame := here₁
  have standing : ∀ other ∈ own,
      Function.update runtime₁.frames coroutine (some { frame with point }) other =
        runtime.frames other := by
    intro other mine
    have apart : other ≠ coroutine := by
      rintro rfl
      exact outside.1 mine
    rw [Function.update_of_ne apart]
    exact same₁ other (Multiset.mem_add.mpr (.inl mine))
  obtain ⟨runtime', goes, continues⟩ :=
    handOver callers here₁ chain₁ ledger₁ point (held (Function.update_self _ _ _) standing)
  refine ⟨runtime', ?_, continues.of_frames ?_⟩
  · simp only [replied, Faults.ok_bind]
    exact goes
  · intro other kept
    exact same₁ other (Multiset.mem_add.mpr (.inr kept))

theorem coAwaitHandle_eq {callers : List Handle} {callee : Handle} {owned checked : Bool}
    {next : Outcome Value Exception → Body Value Exception Operation Answer Memory}
    {calleeFrame : Frame Value Exception Operation Answer Memory}
    (here : runtime.frames coroutine = some frame) (there : runtime.frames callee = some calleeFrame)
    (apart : coroutine ≠ callee) :
    runtime.coAwaitHandle coroutine callers callee owned checked next =
      .ok { (runtime.write callee { calleeFrame with mAwaiter := some coroutine }).write coroutine
              { frame with
                point := .awaiting checked next
                awaiter := some { mCallerCoroutine := some coroutine
                                  mCalleeCoroutine := callee, owned } }
            with active := callee :: callers } := by
  have here' : (runtime.write callee { calleeFrame with mAwaiter := some coroutine }).frames
      coroutine = some frame := by
    rw [← here]
    exact Function.update_of_ne apart _ _
  unfold Runtime.coAwaitHandle
  simp only [frame_eq there, Faults.ok_bind, frame_eq here']
  rfl

/-- A co_await: the callee runs, and `link` makes the caller the first one of its chain. -/
theorem continues_await (callers : List Handle) {callee : Handle} {ownership checked : Bool}
    {next : Outcome Value Exception → Body Value Exception Operation Answer Memory}
    {calleeFrame : Frame Value Exception Operation Answer Memory}
    {body : Body Value Exception Operation Answer Memory}
    {after : Outcome Value Exception → Tree Value Exception Operation Answer Memory →
      Tree Value Exception Operation Answer Memory}
    (here : runtime.frames coroutine = some frame)
    (starter : frame.spawned = true → checked = false ∧ ∀ outcome, Starter (next outcome))
    (there : runtime.frames callee = some calleeFrame) (point : calleeFrame.point = .code body)
    (bare : calleeFrame.awaiter = none) (task : calleeFrame.spawned = false)
    (owned : Holds runtime.frames calleeFrame.tasks own inner)
    (link : ∀ {frames' : Frames Value Exception Operation Answer Memory} {frame' awaiter},
      Awaits frames' none callee coroutine frame' awaiter checked next →
        frame'.spawned = frame.spawned → frame'.mAwaiter = frame.mAwaiter →
        frame'.tasks = frame.tasks → awaiter.owned = ownership →
        (∀ other ∈ footprint, frames' other = runtime.frames other) →
        Chain frames' none callee false (some coroutine) (coroutine ::ₘ footprint) after)
    (ledger : Ledger runtime.frames runtime.allocated
      (callee ::ₘ (own + (coroutine ::ₘ (footprint + others))))) :
    ∃ runtime',
      runtime.coAwaitHandle coroutine callers callee ownership checked next = .ok runtime' ∧
        Continues runtime runtime' callers others ((body.tree inner).follow after) := by
  obtain ⟨outside, distinct⟩ := Multiset.nodup_cons.mp ledger.distinct
  obtain ⟨_, distinct, beside⟩ := Multiset.nodup_add.mp distinct
  obtain ⟨without, _⟩ := Multiset.nodup_cons.mp distinct
  simp only [Multiset.mem_add, Multiset.mem_cons, not_or] at outside without
  obtain ⟨notOwn, apart, notAbove, notOther⟩ := outside
  have outOwn : coroutine ∉ own :=
    Multiset.disjoint_right.mp beside (Multiset.mem_cons_self _ _)
  let awaiter : TaskAwaiter Value Exception :=
    { mCallerCoroutine := some coroutine, mCalleeCoroutine := callee, owned := ownership }
  let waiting : Frame Value Exception Operation Answer Memory :=
    { frame with point := .awaiting checked next, awaiter := some awaiter }
  let frames' := Function.update
    (Function.update runtime.frames callee (some { calleeFrame with mAwaiter := some coroutine }))
    coroutine (some waiting)
  have elsewhere : ∀ other, other ≠ callee → other ≠ coroutine →
      frames' other = runtime.frames other := by
    intro other notCallee notCoroutine
    exact (Function.update_of_ne notCoroutine _ _).trans (Function.update_of_ne notCallee _ _)
  have there' : frames' callee = some { calleeFrame with mAwaiter := some coroutine } :=
    (Function.update_of_ne apart _ _).trans (Function.update_self _ _ _)
  have linked : Chain frames' none callee calleeFrame.spawned (some coroutine)
      (coroutine ::ₘ footprint) after := by
    rw [task]
    have awaits : Awaits frames' none callee coroutine waiting awaiter checked next :=
      ⟨Function.update_self _ _ _, rfl, rfl, rfl, rfl, rfl, starter⟩
    refine link awaits rfl rfl rfl rfl ?_
    intro other member
    apply elsewhere
    · rintro rfl
      exact notAbove member
    · rintro rfl
      exact without.1 member
  refine ⟨_, coAwaitHandle_eq here there (Ne.symm apart), rfl, rfl, rfl,
    ⟨callee, callee ::ₘ (own + (coroutine ::ₘ footprint)), rfl, ?_, ?_⟩, ?_⟩
  · refine .runs there' point bare ?_ (owned.congr ?_) linked
    · intro spawned
      cases task.symm.trans spawned
    · intro other member
      apply elsewhere
      · rintro rfl
        exact notOwn member
      · rintro rfl
        exact outOwn member
  · rw [Multiset.cons_add, add_assoc, Multiset.cons_add]
    apply (ledger.write (Multiset.mem_cons_self _ _) _).write
    simp
  · intro other member
    apply elsewhere
    · rintro rfl
      exact notOther member
    · rintro rfl
      exact without.2 member

end

/-- A coroutine that runs, its variables and its callers. -/
structure Running (runtime : Runtime Value Exception Operation Answer Memory)
    (coroutine : Handle) (callers : List Handle) (others : Multiset Handle)
    (frame : Frame Value Exception Operation Answer Memory) (own : Multiset Handle)
    (inner : List (Tree Value Exception Operation Answer Memory)) (footprint : Multiset Handle)
    (after : Outcome Value Exception → Tree Value Exception Operation Answer Memory →
      Tree Value Exception Operation Answer Memory) : Prop where
  active : runtime.active = coroutine :: callers
  here : runtime.frames coroutine = some frame
  bare : frame.awaiter = none
  owned : Holds runtime.frames frame.tasks own inner
  chain : Chain runtime.frames none coroutine frame.spawned frame.mAwaiter footprint after
  ledger : Ledger runtime.frames runtime.allocated (coroutine ::ₘ (own + (footprint + others)))

namespace Running

variable {coroutine : Handle} {callers : List Handle} {others own footprint : Multiset Handle}
  {frame : Frame Value Exception Operation Answer Memory}
  {inner : List (Tree Value Exception Operation Answer Memory)}
  {after : Outcome Value Exception → Tree Value Exception Operation Answer Memory →
    Tree Value Exception Operation Answer Memory}

theorem continues {body : Body Value Exception Operation Answer Memory}
    (running : Running runtime coroutine callers others frame own inner footprint after)
    (point : frame.point = .code body) (starter : frame.spawned = true → Starter body) :
    Continues runtime runtime callers others ((body.tree inner).follow after) where
  memory := rfl
  pending := rfl
  log := rfl
  thread := by
    refine ⟨coroutine, coroutine ::ₘ (own + footprint), running.active,
      .runs running.here point running.bare starter running.owned running.chain, ?_⟩
    rw [Multiset.cons_add, add_assoc]
    exact running.ledger
  same _ _ := rfl

theorem of_write (frame' : Frame Value Exception Operation Answer Memory)
    (active : runtime.active = coroutine :: callers)
    (promise : frame'.spawned = frame.spawned ∧ frame'.mAwaiter = frame.mAwaiter)
    (bare : frame'.awaiter = none) (owned : Holds runtime.frames frame'.tasks own inner)
    (chain : Chain runtime.frames none coroutine frame.spawned frame.mAwaiter footprint after)
    (ledger : Ledger runtime.frames runtime.allocated
      (coroutine ::ₘ (own + (footprint + others)))) :
    Running (runtime.write coroutine frame') coroutine callers others frame' own inner footprint
        after ∧
      ∀ other ∈ others, (runtime.write coroutine frame').frames other = runtime.frames other := by
  have outside := (Multiset.nodup_cons.mp ledger.distinct).1
  simp only [Multiset.mem_add, not_or] at outside
  refine ⟨⟨active, Function.update_self _ _ _, bare, owned.update outside.1 _, ?_,
    ledger.write (Multiset.mem_cons_self _ _) _⟩, ?_⟩
  · rw [promise.1, promise.2]
    exact chain.update outside.2.1 _
  · intro other kept
    apply Function.update_of_ne
    rintro rfl
    exact outside.2.2 kept

theorem standAt
    (running : Running runtime coroutine callers others frame own inner footprint after)
    (body : Body Value Exception Operation Answer Memory)
    (starter : frame.spawned = true → Starter body) :
    ∃ runtime', runtime.standAt coroutine (.code body) = .ok runtime' ∧
      Continues runtime runtime' callers others ((body.tree inner).follow after) := by
  obtain ⟨written, same⟩ := of_write { frame with point := .code body } running.active ⟨rfl, rfl⟩
    running.bare running.owned running.chain running.ledger
  exact ⟨_, standAt_eq running.here _, (written.continues rfl starter).of_frames same⟩

theorem coYield
    (running : Running runtime coroutine callers others frame own inner footprint after)
    (task : frame.spawned = false) (value : Value)
    (next : Body Value Exception Operation Answer Memory) :
    ∃ runtime', runtime.coYield coroutine callers value next = .ok runtime' ∧
      Continues runtime runtime' callers others (after (.yielded value) (next.tree inner)) := by
  have chain := running.chain
  rw [task] at chain
  apply reply_handOver callers running.here chain running.ledger (replies_yieldValue value)
    (.code next)
  intro frames' here same
  exact .one_suspended here rfl running.bare task (running.owned.congr same)

theorem coAwaitExpected
    (running : Running runtime coroutine callers others frame own inner footprint after)
    (task : frame.spawned = false) (expected : Expected Value)
    (next : Value → Body Value Exception Operation Answer Memory) :
    ∃ runtime', runtime.coAwaitExpected coroutine callers expected next = .ok runtime' ∧
      Continues runtime runtime' callers others
        (((Body.coAwaitExpected expected next).tree inner).follow after) := by
  have chain := running.chain
  cases expected with
  | error code =>
      rw [task] at chain
      apply reply_handOver callers running.here chain running.ledger
        (replies_returnValue (.error code)) .returned
      intro frames' here same
      let stopped : Frame Value Exception Operation Answer Memory :=
        { frame with point := .returned }
      have owned : Holds frames' stopped.holds own inner := by
        rw [stopped.holds_of_bare running.bare]
        exact running.owned.congr same
      exact .one_ended here (.inl rfl) owned
  | ok value =>
      apply running.standAt
      intro spawned
      cases task.symm.trans spawned

theorem allocated
    (running : Running runtime coroutine callers others frame own inner footprint after)
    (new : Frame Value Exception Operation Answer Memory) :
    coroutine ≠ runtime.allocated ∧
      (runtime.allocate new).frames runtime.allocated = some new ∧
      (∀ other ∈ coroutine ::ₘ (own + (footprint + others)),
        (runtime.allocate new).frames other = runtime.frames other) ∧
      Ledger (runtime.allocate new).frames (runtime.allocate new).allocated
        (runtime.allocated ::ₘ coroutine ::ₘ (own + (footprint + others))) := by
  have fresh : ∀ other ∈ coroutine ::ₘ (own + (footprint + others)),
      other ≠ runtime.allocated := by
    rintro other member rfl
    exact lt_irrefl _ (running.ledger.used _ member)
  refine ⟨fresh _ (Multiset.mem_cons_self _ _), Function.update_self _ _ _, ?_,
    running.ledger.allocate new⟩
  intro other member
  exact Function.update_of_ne (fresh other member) _ _

theorem coAwait
    (running : Running runtime coroutine callers others frame own inner footprint after)
    (task : frame.spawned = false) (checked : Bool)
    (callee : Body Value Exception Operation Answer Memory)
    (next : Outcome Value Exception → Body Value Exception Operation Answer Memory) :
    ∃ runtime', runtime.execute coroutine callers frame (.coAwait checked callee next) =
        .ok runtime' ∧
      Continues runtime runtime' callers others
        (((Body.coAwait checked callee next).tree inner).follow after) := by
  obtain ⟨_, there, same, ledger⟩ := running.allocated (Frame.initial callee)
  have here := (same coroutine (Multiset.mem_cons_self _ _)).trans running.here
  have owned := running.owned.congr fun other member => same other (by simp [member])
  have chain := running.chain.congr fun other member => same other (by simp [member])
  have meaning : ((Body.coAwait checked callee next).tree inner).follow after =
      (callee.tree []).follow fun outcome _ =>
        (goOn checked (fun outcome => (next outcome).tree inner) outcome).follow after :=
    Resumption.follow_follow _ _ _
  have starter : frame.spawned = true → checked = false ∧ ∀ outcome, Starter (next outcome) := by
    intro spawned
    cases task.symm.trans spawned
  have link : ∀ {frames' : Frames Value Exception Operation Answer Memory} {frame' awaiter},
      Awaits frames' none runtime.allocated coroutine frame' awaiter checked next →
        frame'.spawned = frame.spawned → frame'.mAwaiter = frame.mAwaiter →
        frame'.tasks = frame.tasks → awaiter.owned = true →
        (∀ other ∈ own + footprint,
          frames' other = (runtime.allocate (Frame.initial callee)).frames other) →
        Chain frames' none runtime.allocated false (some coroutine)
          (coroutine ::ₘ (own + footprint)) fun outcome _ =>
            (goOn checked (fun outcome => (next outcome).tree inner) outcome).follow after := by
    intro frames' frame' awaiter awaits promise caller tasks owner unchanged
    refine .call awaits owner ?_ ?_
    · rw [tasks]
      exact owned.congr fun other member => unchanged other (by simp [member])
    · rw [promise, caller]
      exact chain.congr fun other member => unchanged other (by simp [member])
  rw [← add_assoc, ← zero_add (coroutine ::ₘ (own + footprint + others))] at ledger
  obtain ⟨runtime', goes, continues⟩ :=
    continues_await callers here starter there rfl rfl rfl .nil link ledger
  rw [meaning]
  refine ⟨runtime', goes, continues.memory, continues.pending, continues.log, continues.thread, ?_⟩
  intro other member
  rw [continues.same other member]
  exact same other (by simp [member])

theorem bindTask
    (running : Running runtime coroutine callers others frame own inner footprint after)
    (task : frame.spawned = false) (callee next : Body Value Exception Operation Answer Memory) :
    ∃ runtime', runtime.execute coroutine callers frame (.bindTask callee next) = .ok runtime' ∧
      Continues runtime runtime' callers others
        (((Body.bindTask callee next).tree inner).follow after) := by
  obtain ⟨apart, there, same, ledger⟩ := running.allocated (Frame.initial callee)
  have owned := running.owned.congr fun other member => same other (by simp [member])
  have chain := running.chain.congr fun other member => same other (by simp [member])
  have bound : Holds (runtime.allocate (Frame.initial callee)).frames
      (some runtime.allocated :: frame.tasks) (runtime.allocated ::ₘ (0 + own))
      (callee.tree [] :: inner) :=
    .suspended there rfl rfl rfl .nil owned
  have starter : frame.spawned = true → Starter next := by
    intro spawned
    cases task.symm.trans spawned
  rw [zero_add] at bound
  rw [Multiset.cons_swap, ← Multiset.cons_add] at ledger
  have active : (runtime.allocate (Frame.initial callee)).active = coroutine :: callers :=
    running.active
  obtain ⟨written, same'⟩ := of_write
    { frame with point := .code next, tasks := some runtime.allocated :: frame.tasks }
    active ⟨rfl, rfl⟩ running.bare bound chain ledger
  have goes := written.continues rfl starter
  refine ⟨_, rfl, goes.memory, goes.pending, goes.log, goes.thread, ?_⟩
  intro other member
  rw [same' other member]
  exact same other (by simp [member])

theorem endScope
    (running : Running runtime coroutine callers others frame own inner footprint after)
    (task : frame.spawned = false) (next : Body Value Exception Operation Answer Memory) :
    ∃ runtime', runtime.execute coroutine callers frame (.endScope next) = .ok runtime' ∧
      Continues runtime runtime' callers others
        (((Body.endScope next).tree inner).follow after) := by
  obtain ⟨gone, kept, tree, rfl, first, behind⟩ := running.owned.latest
  have ledger := running.ledger
  rw [add_assoc] at ledger
  obtain ⟨frames', done, here, ledger', same⟩ :=
    destroyAll_write { frame with point := .code next, tasks := frame.tasks.tail } first ledger
  have running' : Running { runtime with frames := frames' } coroutine callers others
      { frame with point := .code next, tasks := frame.tasks.tail } kept inner.tail footprint
      after := by
    refine ⟨running.active, here, running.bare, behind.congr ?_, running.chain.congr ?_, ledger'⟩
    · exact fun other member => same other (by simp [member])
    · exact fun other member => same other (by simp [member])
  have starter : frame.spawned = true → Starter next := by
    intro spawned
    cases task.symm.trans spawned
  refine ⟨_, done, (running'.continues rfl starter).of_frames ?_⟩
  exact fun other member => same other (by simp [member])

theorem coAwaitTask
    (running : Running runtime coroutine callers others frame own inner footprint after)
    {checked : Bool} {index : Nat} {moved : Bool}
    {next : Outcome Value Exception → Body Value Exception Operation Answer Memory}
    (starter : frame.spawned = true → checked = false ∧ ∀ outcome, Starter (next outcome))
    (defined : ((Body.coAwaitTask checked index moved next).tree inner).follow after ≠
      .undefined) :
    ∃ runtime', runtime.execute coroutine callers frame (.coAwaitTask checked index moved next) =
        .ok runtime' ∧
      Continues runtime runtime' callers others
        (((Body.coAwaitTask checked index moved next).tree inner).follow after) := by
  have missing : inner.getD index .undefined ≠ .undefined := by
    intro same
    apply defined
    change ((inner.getD index .undefined).follow _).follow after = _
    rw [same]
    rfl
  cases found : frame.tasks[index]? with
  | none =>
      have outside : inner.length ≤ index := by
        rw [← running.owned.length]
        exact List.getElem?_eq_none_iff.mp found
      exact absurd (List.getD_eq_default _ _ outside) missing
  | some handle =>
      obtain ⟨taken, left, split, held, hole⟩ := running.owned.take found
      generalize same : inner.getD index .undefined = tree at held missing
      cases held with
      | null _ => exact absurd rfl missing
      | ended _ _ _ _ => exact absurd rfl missing
      | @suspended task taskFrame body below innermost _ _ _ there point bare plain owned empty =>
          cases empty
          have outside := (Multiset.nodup_cons.mp running.ledger.distinct).1
          have ledger : Ledger runtime.frames runtime.allocated
              (task ::ₘ (below + (coroutine ::ₘ (left + footprint + others)))) := by
            have ledger := running.ledger
            simp only [split, add_zero, Multiset.cons_add, Multiset.add_cons, add_assoc] at ledger ⊢
            rwa [Multiset.cons_swap]
          rw [split] at outside
          simp only [Multiset.mem_add, Multiset.mem_cons, not_or] at outside
          obtain ⟨⟨⟨apart, notBelow⟩, notLeft⟩, notAbove, notOther⟩ := outside
          let tasks := if moved then frame.tasks.set index none else frame.tasks
          let runtime₁ := runtime.write coroutine { frame with tasks }
          have same₁ : ∀ other, other ≠ coroutine → runtime₁.frames other = runtime.frames other :=
            fun other distinct => Function.update_of_ne distinct _ _
          have here₁ : runtime₁.frames coroutine = some { frame with tasks } :=
            Function.update_self _ _ _
          have there₁ : runtime₁.frames task = some taskFrame :=
            (same₁ task (Ne.symm apart)).trans there
          have owned₁ : Holds runtime₁.frames taskFrame.tasks below innermost :=
            owned.update notBelow.1 _
          have hole₁ : Holds runtime₁.frames (frame.tasks.set index none) left
              (inner.set index .undefined) := hole.update notLeft _
          have chain₁ : Chain runtime₁.frames none coroutine frame.spawned frame.mAwaiter footprint
              after := running.chain.update notAbove _
          have inside : coroutine ∈ task ::ₘ (below + (coroutine ::ₘ (left + footprint + others))) :=
            Multiset.mem_cons_of_mem (Multiset.mem_add.mpr (.inr (Multiset.mem_cons_self _ _)))
          have ledger₁ := ledger.write inside { frame with tasks }
          have link : ∀ {frames' : Frames Value Exception Operation Answer Memory} {frame' awaiter},
              Awaits frames' none task coroutine frame' awaiter checked next →
                frame'.spawned = frame.spawned → frame'.mAwaiter = frame.mAwaiter →
                frame'.tasks = tasks → awaiter.owned = moved →
                (∀ other ∈ left + footprint, frames' other = runtime₁.frames other) →
                Chain frames' none task false (some coroutine) (coroutine ::ₘ (left + footprint))
                  fun outcome rest =>
                    (goOn checked (fun outcome => (next outcome).tree
                      (inner.set index (if moved then .undefined else rest))) outcome).follow
                        after := by
            intro frames' frame' awaiter awaits promise caller kept owner unchanged
            have hole' := hole₁.congr fun other member => unchanged other (by simp [member])
            have chain' := chain₁.congr fun other member => unchanged other (by simp [member])
            rw [← promise, ← caller] at chain'
            cases moved with
            | true =>
                have emptied : frame'.tasks = frame.tasks.set index none := kept
                rw [← emptied] at hole'
                exact .call awaits owner hole' chain'
            | false =>
                have stays : frame'.tasks = frame.tasks := kept
                rw [← stays] at hole' found
                have linked := Chain.kept awaits owner found hole' chain'
                simp only [List.set_set] at linked
                exact linked
          obtain ⟨runtime', goes, continues⟩ :=
            continues_await callers here₁ starter there₁ point bare plain owned₁ link ledger₁
          have meaning : ((Body.coAwaitTask checked index moved next).tree inner).follow after =
              (body.tree innermost).follow fun outcome rest =>
                (goOn checked (fun outcome => (next outcome).tree
                  (inner.set index (if moved then .undefined else rest))) outcome).follow after := by
            rw [← same]
            exact Resumption.follow_follow _ _ _
          rw [meaning]
          refine ⟨runtime', ?_, continues.of_frames ?_⟩
          · unfold Runtime.execute
            simp only [found]
            exact goes
          · intro other member
            apply same₁
            rintro rfl
            exact notOther member

end Running

namespace Running

variable {coroutine : Handle} {callers : List Handle} {others own footprint : Multiset Handle}
  {frame : Frame Value Exception Operation Answer Memory}
  {inner : List (Tree Value Exception Operation Answer Memory)}
  {after : Outcome Value Exception → Tree Value Exception Operation Answer Memory →
    Tree Value Exception Operation Answer Memory}

theorem ends
    (running : Running runtime coroutine callers others frame own inner footprint after)
    (spawned : frame.spawned = true) (outcome : Outcome Value Exception) :
    ∃ frames',
      (do let runtime ← runtime.destroyTasks coroutine
          runtime.finalSuspend coroutine callers outcome) = .ok
        { runtime with
          frames := frames', active := callers, log := runtime.log ++ [.ended outcome] } ∧
      Ledger frames' runtime.allocated others ∧
      (∀ other ∈ others, frames' other = runtime.frames other) ∧
      ∀ outcome rest, after outcome rest = .finish outcome := by
  have chain := running.chain
  have ledger := running.ledger
  rw [spawned] at chain
  cases chain
  rw [zero_add] at ledger
  obtain ⟨frames₁, gone, here₁, ledger₁, same₁⟩ :=
    destroyTasks_spec running.here running.owned ledger
  let runtime₁ : Runtime Value Exception Operation Answer Memory :=
    { runtime with frames := frames₁ }
  have here₁ : runtime₁.frames coroutine = some { frame with tasks := [] } := here₁
  obtain ⟨frames₂, done, ledger₂, same₂⟩ :=
    finalSuspend_spawned callers here₁ spawned running.bare rfl ledger₁
  refine ⟨frames₂, ?_, ledger₂, ?_, fun _ _ => rfl⟩
  · rw [gone, Faults.ok_bind]
    exact done
  · intro other member
    rw [same₂ other member]
    exact same₁ other member

end Running

theorem resumeAwait_continues {coroutine : Handle} {callers : List Handle}
    {others callee own footprint : Multiset Handle}
    {frame : Frame Value Exception Operation Answer Memory}
    {awaiter : TaskAwaiter Value Exception} {checked : Bool}
    {next : Outcome Value Exception → Body Value Exception Operation Answer Memory}
    {outcome : Outcome Value Exception}
    {below inner : List (Tree Value Exception Operation Answer Memory)}
    {after : Outcome Value Exception → Tree Value Exception Operation Answer Memory →
      Tree Value Exception Operation Answer Memory}
    (active : runtime.active = coroutine :: callers)
    (here : runtime.frames coroutine = some frame) (temporary : frame.awaiter = some awaiter)
    (replied : awaiter.awaitResume = some outcome)
    (starter : frame.spawned = true → checked = false ∧ ∀ outcome, Starter (next outcome))
    (replier : Holds runtime.frames awaiter.holds callee below)
    (owned : Holds runtime.frames frame.tasks own inner)
    (chain : Chain runtime.frames none coroutine frame.spawned frame.mAwaiter footprint after)
    (ledger : Ledger runtime.frames runtime.allocated
      (coroutine ::ₘ (callee + own + (footprint + others)))) :
    ∃ runtime', runtime.resumeAwait coroutine callers awaiter checked next = .ok runtime' ∧
      Continues runtime runtime' callers others
        ((goOn checked (fun outcome => (next outcome).tree inner) outcome).follow after) := by
  have goes : ∃ runtime',
      (do let runtime ← runtime.endAwait coroutine awaiter
          runtime.standAt coroutine (.code (next outcome))) = .ok runtime' ∧
        Continues runtime runtime' callers others (((next outcome).tree inner).follow after) := by
    rw [add_assoc] at ledger
    obtain ⟨frames', done, here', ledger', same⟩ :=
      destroyAll_write { frame with awaiter := none } replier ledger
    have running : Running { runtime with frames := frames' } coroutine callers others
        { frame with awaiter := none } own inner footprint after := by
      refine ⟨active, here', rfl, owned.congr ?_, chain.congr ?_, ledger'⟩
      · exact fun other member => same other (by simp [member])
      · exact fun other member => same other (by simp [member])
    obtain ⟨runtime', stands, continues⟩ :=
      running.standAt (next outcome) fun spawned => (starter spawned).2 outcome
    refine ⟨runtime', ?_, continues.of_frames fun other member => same other (by simp [member])⟩
    unfold Runtime.endAwait
    simp only [frame_eq here, Faults.ok_bind, done]
    exact stands
  unfold Runtime.resumeAwait
  rw [replied]
  cases outcome with
  | yielded value => cases checked <;> exact goes
  | threw exception => cases checked <;> exact goes
  | returned result =>
      cases result with
      | ok value => cases checked <;> exact goes
      | error code =>
          cases checked with
          | false => exact goes
          | true =>
              have task : frame.spawned = false := by
                cases spawned : frame.spawned with
                | false => rfl
                | true => cases (starter spawned).1
              rw [task] at chain
              apply reply_handOver callers here chain ledger (replies_returnValue (.error code))
                .returned
              intro frames' here' same
              let stopped : Frame Value Exception Operation Answer Memory :=
                { frame with point := .returned }
              have holding : stopped.holds = awaiter.holds ++ frame.tasks := by
                unfold Frame.holds
                simp only [stopped, temporary]
              have held : Holds frames' stopped.holds (callee + own) (below ++ inner) := by
                rw [holding]
                exact (replier.append owned).congr same
              exact .one_ended here' (.inl rfl) held

end MCoro.Tasks
