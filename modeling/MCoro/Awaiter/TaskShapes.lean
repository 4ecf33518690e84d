/-
What the coroutine frames in memory stand for.

Every frame that is not destroyed has one owner: the frame with its Task variable or its
awaiter, or the event loop for a spawned one. `Holds` reads off the frames below a
variable the computation that it stands for, and `Chain` off the callers of a coroutine
what becomes of its reply. Each names the frames that it reads: its footprint.
-/

import Mathlib
import MCoro.Awaiter.Tasks

namespace MCoro.Tasks

variable {Value Exception Operation Answer Memory : Type}
  {frames frames' : Frames Value Exception Operation Answer Memory}

theorem Frame.holds_of_bare (frame : Frame Value Exception Operation Answer Memory)
    (bare : frame.awaiter = none) : frame.holds = frame.tasks := by
  unfold holds
  rw [bare]

/-- The variables hold these computations; `null` is an empty Task. -/
inductive Holds (frames : Frames Value Exception Operation Answer Memory) :
    List (Option Handle) → Multiset Handle →
      List (Tree Value Exception Operation Answer Memory) → Prop
  | nil : Holds frames [] 0 []
  | null {rest footprint trees} (others : Holds frames rest footprint trees) :
      Holds frames (none :: rest) footprint (.undefined :: trees)
  | suspended {coroutine frame body own inner rest footprint trees}
      (here : frames coroutine = some frame) (point : frame.point = .code body)
      (bare : frame.awaiter = none) (task : frame.spawned = false)
      (owned : Holds frames frame.tasks own inner)
      (others : Holds frames rest footprint trees) :
      Holds frames (some coroutine :: rest) (coroutine ::ₘ (own + footprint))
        (body.tree inner :: trees)
  | ended {coroutine frame own inner rest footprint trees}
      (here : frames coroutine = some frame)
      (stopped : frame.point = .returned ∨ frame.point = .final)
      (owned : Holds frames frame.holds own inner)
      (others : Holds frames rest footprint trees) :
      Holds frames (some coroutine :: rest) (coroutine ::ₘ (own + footprint))
        (.undefined :: trees)

theorem destroy_cons {fuel : Nat} {coroutine : Handle} {rest : List Handle}
    {frame : Frame Value Exception Operation Answer Memory}
    (here : frames coroutine = some frame) :
    destroy (fuel + 1) frames (coroutine :: rest) =
      destroy fuel (Function.update frames coroutine none)
        (frame.holds.filterMap id ++ rest) := by
  simp only [destroy, here]

private theorem removed_cons {coroutine : Handle} {footprint : Multiset Handle} :
    (fun other => if other ∈ footprint then none
      else Function.update frames coroutine none other) =
      fun other => if other ∈ coroutine ::ₘ footprint then none else frames other := by
  funext other
  by_cases same : other = coroutine
  · subst other
    simp
  · simp [Multiset.mem_cons, same]

namespace Holds

variable {handles handles' : List (Option Handle)} {footprint footprint' : Multiset Handle}
  {trees trees' : List (Tree Value Exception Operation Answer Memory)}

theorem congr (holds : Holds frames handles footprint trees)
    (same : ∀ coroutine ∈ footprint, frames' coroutine = frames coroutine) :
    Holds frames' handles footprint trees := by
  induction holds with
  | nil => exact .nil
  | null _ ih => exact .null (ih same)
  | suspended here point bare task _ _ ihOwn ihRest =>
      refine .suspended ?_ point bare task (ihOwn ?_) (ihRest ?_)
      · rw [same _ (Multiset.mem_cons_self _ _), here]
      · intro other member
        exact same other (Multiset.mem_cons_of_mem (Multiset.mem_add.mpr (.inl member)))
      · intro other member
        exact same other (Multiset.mem_cons_of_mem (Multiset.mem_add.mpr (.inr member)))
  | ended here stopped _ _ ihOwn ihRest =>
      refine .ended ?_ stopped (ihOwn ?_) (ihRest ?_)
      · rw [same _ (Multiset.mem_cons_self _ _), here]
      · intro other member
        exact same other (Multiset.mem_cons_of_mem (Multiset.mem_add.mpr (.inl member)))
      · intro other member
        exact same other (Multiset.mem_cons_of_mem (Multiset.mem_add.mpr (.inr member)))

theorem length (holds : Holds frames handles footprint trees) :
    handles.length = trees.length := by
  induction holds with
  | nil => rfl
  | null _ ih => simp [ih]
  | suspended _ _ _ _ _ _ _ ih => simp [ih]
  | ended _ _ _ _ _ ih => simp [ih]

theorem append (holds : Holds frames handles footprint trees)
    (holds' : Holds frames handles' footprint' trees') :
    Holds frames (handles ++ handles') (footprint + footprint') (trees ++ trees') := by
  induction holds with
  | nil => simpa using holds'
  | null _ ih => exact .null ih
  | suspended here point bare task owned _ _ ih =>
      rw [Multiset.cons_add, add_assoc]
      exact .suspended here point bare task owned ih
  | ended here stopped owned _ _ ih =>
      rw [Multiset.cons_add, add_assoc]
      exact .ended here stopped owned ih

theorem uncons {handle : Option Handle} (holds : Holds frames (handle :: handles) footprint trees) :
    ∃ first others tree rest, footprint = first + others ∧ trees = tree :: rest ∧
      Holds frames [handle] first [tree] ∧ Holds frames handles others rest := by
  cases holds with
  | null others => exact ⟨0, _, _, _, (zero_add _).symm, rfl, .null .nil, others⟩
  | @suspended coroutine _ _ own _ _ _ _ here point bare task owned others =>
      refine ⟨coroutine ::ₘ (own + 0), _, _, _, ?_, rfl,
        .suspended here point bare task owned .nil, others⟩
      rw [Multiset.cons_add, add_zero]
  | @ended coroutine _ own _ _ _ _ here stopped owned others =>
      refine ⟨coroutine ::ₘ (own + 0), _, _, _, ?_, rfl, .ended here stopped owned .nil, others⟩
      rw [Multiset.cons_add, add_zero]

theorem one_suspended {coroutine : Handle} {frame : Frame Value Exception Operation Answer Memory}
    {body : Body Value Exception Operation Answer Memory} (here : frames coroutine = some frame)
    (point : frame.point = .code body) (bare : frame.awaiter = none)
    (task : frame.spawned = false) (owned : Holds frames frame.tasks footprint trees) :
    Holds frames [some coroutine] (coroutine ::ₘ footprint) [body.tree trees] := by
  rw [← add_zero footprint]
  exact .suspended here point bare task owned .nil

theorem one_ended {coroutine : Handle} {frame : Frame Value Exception Operation Answer Memory}
    (here : frames coroutine = some frame)
    (stopped : frame.point = .returned ∨ frame.point = .final)
    (owned : Holds frames frame.holds footprint trees) :
    Holds frames [some coroutine] (coroutine ::ₘ footprint) [.undefined] := by
  rw [← add_zero footprint]
  exact .ended here stopped owned .nil

theorem latest (holds : Holds frames handles footprint trees) :
    ∃ gone kept tree, footprint = gone + kept ∧ Holds frames (handles.take 1) gone tree ∧
      Holds frames handles.tail kept trees.tail := by
  cases handles with
  | nil =>
      cases holds
      exact ⟨0, 0, [], rfl, .nil, .nil⟩
  | cons handle rest =>
      obtain ⟨gone, kept, tree, others, rfl, rfl, first, behind⟩ := holds.uncons
      exact ⟨gone, kept, [tree], rfl, first, behind⟩

theorem take {index : Nat} {handle : Option Handle}
    (holds : Holds frames handles footprint trees) (found : handles[index]? = some handle) :
    ∃ taken left, footprint = taken + left ∧
      Holds frames [handle] taken [trees.getD index .undefined] ∧
      Holds frames (handles.set index none) left (trees.set index .undefined) := by
  induction handles generalizing index footprint trees with
  | nil => cases found
  | cons first handles ih =>
      obtain ⟨own, others, tree, rest, rfl, rfl, front, back⟩ := holds.uncons
      cases index with
      | zero =>
          cases found
          exact ⟨own, others, rfl, front, .null back⟩
      | succ index =>
          obtain ⟨taken, left, rfl, held, hole⟩ := ih back found
          refine ⟨taken, own + left, add_left_comm _ _ _, held, ?_⟩
          exact front.append hole

theorem put {index : Nat} {handle : Option Handle}
    {tree : Tree Value Exception Operation Answer Memory} {own : Multiset Handle}
    (holds : Holds frames (handles.set index none) footprint trees)
    (found : handles[index]? = some handle) (held : Holds frames [handle] own [tree]) :
    Holds frames handles (own + footprint) (trees.set index tree) := by
  induction handles generalizing index footprint trees with
  | nil => cases found
  | cons first handles ih =>
      cases index with
      | zero =>
          cases found
          obtain ⟨none, others, hole, rest, rfl, rfl, front, back⟩ := holds.uncons
          cases front with
          | null empty =>
              cases empty
              rw [zero_add]
              exact held.append back
      | succ index =>
          obtain ⟨mine, others, front, rest, rfl, rfl, before, back⟩ := holds.uncons
          have done := before.append (ih back found)
          rw [add_left_comm]
          exact done

theorem update (holds : Holds frames handles footprint trees) {coroutine : Handle}
    (outside : coroutine ∉ footprint)
    (frame : Option (Frame Value Exception Operation Answer Memory)) :
    Holds (Function.update frames coroutine frame) handles footprint trees := by
  apply holds.congr
  intro other member
  apply Function.update_of_ne
  rintro rfl
  exact outside member

theorem destroy_eq {fuel : Nat} (holds : Holds frames handles footprint trees)
    (distinct : footprint.Nodup) (enough : footprint.card ≤ fuel) :
    destroy fuel frames (handles.filterMap id) =
      .ok fun coroutine => if coroutine ∈ footprint then none else frames coroutine := by
  induction fuel generalizing frames handles footprint trees with
  | zero =>
      have empty : footprint = 0 := Multiset.card_eq_zero.mp (Nat.le_zero.mp enough)
      induction holds with
      | nil => simp [destroy]
      | null _ ih => exact ih distinct enough empty
      | suspended => cases Multiset.cons_ne_zero empty
      | ended => cases Multiset.cons_ne_zero empty
  | succ fuel ih =>
      induction holds with
      | nil => simp [destroy]
      | null _ ihRest => exact ihRest distinct enough
      | @suspended coroutine frame body own inner rest footprint trees here _ bare _ owned others =>
          obtain ⟨outside, distinct⟩ := Multiset.nodup_cons.mp distinct
          rw [Multiset.card_cons] at enough
          have below := ih ((owned.append others).update outside none) distinct
            (Nat.le_of_succ_le_succ enough)
          change destroy (fuel + 1) frames (coroutine :: rest.filterMap id) = _
          rw [destroy_cons here, frame.holds_of_bare bare, ← List.filterMap_append, below,
            removed_cons]
      | @ended coroutine frame own inner rest footprint trees here _ owned others =>
          obtain ⟨outside, distinct⟩ := Multiset.nodup_cons.mp distinct
          rw [Multiset.card_cons] at enough
          have below := ih ((owned.append others).update outside none) distinct
            (Nat.le_of_succ_le_succ enough)
          change destroy (fuel + 1) frames (coroutine :: rest.filterMap id) = _
          rw [destroy_cons here, ← List.filterMap_append, below, removed_cons]

end Holds

/-- The frames that are there, each once, have handles that have been used. -/
structure Ledger (frames : Frames Value Exception Operation Answer Memory) (allocated : Handle)
    (footprint : Multiset Handle) : Prop where
  distinct : footprint.Nodup
  there : ∀ coroutine, (frames coroutine).isSome ↔ coroutine ∈ footprint
  used : ∀ coroutine ∈ footprint, coroutine < allocated

namespace Ledger

variable {allocated : Handle} {footprint gone kept : Multiset Handle}

theorem card_le (ledger : Ledger frames allocated footprint) : footprint.card ≤ allocated := by
  have below : footprint ≤ (Finset.range allocated).val := by
    rw [Multiset.le_iff_subset ledger.distinct]
    intro coroutine member
    exact Finset.mem_range.mpr (ledger.used coroutine member)
  simpa using Multiset.card_le_card below

theorem write (ledger : Ledger frames allocated footprint) {coroutine : Handle}
    (member : coroutine ∈ footprint) (frame : Frame Value Exception Operation Answer Memory) :
    Ledger (Function.update frames coroutine (some frame)) allocated footprint := by
  refine ⟨ledger.distinct, ?_, ledger.used⟩
  intro other
  by_cases same : other = coroutine
  · subst other
    simpa using member
  · rw [Function.update_of_ne same]
    exact ledger.there other

theorem allocate (ledger : Ledger frames allocated footprint)
    (frame : Frame Value Exception Operation Answer Memory) :
    Ledger (Function.update frames allocated (some frame)) (allocated + 1)
      (allocated ::ₘ footprint) := by
  refine ⟨Multiset.nodup_cons.mpr ⟨?_, ledger.distinct⟩, ?_, ?_⟩
  · intro member
    exact lt_irrefl _ (ledger.used _ member)
  · intro other
    by_cases same : other = allocated
    · subst other
      simp
    · rw [Function.update_of_ne same, Multiset.mem_cons]
      simp [same, ledger.there other]
  · intro other member
    rcases Multiset.mem_cons.mp member with rfl | old
    · exact Nat.lt_succ_self _
    · exact Nat.lt_succ_of_lt (ledger.used other old)

theorem remove (ledger : Ledger frames allocated (gone + kept)) :
    Ledger (fun coroutine => if coroutine ∈ gone then none else frames coroutine) allocated
      kept := by
  obtain ⟨_, distinct, apart⟩ := Multiset.nodup_add.mp ledger.distinct
  refine ⟨distinct, ?_, ?_⟩
  · intro coroutine
    by_cases member : coroutine ∈ gone
    · have outside := Multiset.disjoint_left.mp apart member
      simp [member, outside]
    · simp [member, ledger.there coroutine]
  · intro coroutine member
    exact ledger.used coroutine (Multiset.mem_add.mpr (.inr member))

end Ledger

theorem Holds.destroyAll {runtime : Runtime Value Exception Operation Answer Memory}
    {handles : List (Option Handle)} {gone kept : Multiset Handle}
    {trees : List (Tree Value Exception Operation Answer Memory)}
    (holds : Holds runtime.frames handles gone trees)
    (ledger : Ledger runtime.frames runtime.allocated (gone + kept)) :
    ∃ frames', runtime.destroyAll handles = .ok { runtime with frames := frames' } ∧
      Ledger frames' runtime.allocated kept ∧
      ∀ coroutine ∈ kept, frames' coroutine = runtime.frames coroutine := by
  obtain ⟨distinct, _, apart⟩ := Multiset.nodup_add.mp ledger.distinct
  have few : gone.card ≤ runtime.allocated := by
    have all := ledger.card_le
    rw [Multiset.card_add] at all
    omega
  refine ⟨_, ?_, ledger.remove, ?_⟩
  · unfold Runtime.destroyAll
    rw [holds.destroy_eq distinct few]
    rfl
  · intro coroutine member
    rw [if_neg (Multiset.disjoint_right.mp apart member)]

/-! ### Callers -/

/-- What a coroutine with an IgnoreReturnPromise does: coSpawnStarter and what follows. -/
inductive Starter : Body Value Exception Operation Answer Memory → Prop
  | coAwaitTask {index moved next} (later : ∀ outcome, Starter (next outcome)) :
      Starter (.coAwaitTask false index moved next)
  | coReturn (result : Expected Value) : Starter (.coReturn result)
  | throw (exception : Exception) : Starter (.throw exception)

theorem starter_coSpawnStarter :
    Starter (coSpawnStarter : Body Value Exception Operation Answer Memory) := by
  refine .coAwaitTask fun outcome => ?_
  cases outcome with
  | yielded value => exact .coReturn _
  | returned result => exact .coReturn _
  | threw exception => exact .throw _

/-- The frame of a caller that awaits a coroutine; with a result, the reply is there. -/
structure Awaits (frames : Frames Value Exception Operation Answer Memory)
    (result : Option (Outcome Value Exception)) (coroutine caller : Handle)
    (frame : Frame Value Exception Operation Answer Memory)
    (awaiter : TaskAwaiter Value Exception) (checked : Bool)
    (next : Outcome Value Exception → Body Value Exception Operation Answer Memory) : Prop where
  here : frames caller = some frame
  point : frame.point = .awaiting checked next
  temporary : frame.awaiter = some awaiter
  caller : awaiter.mCallerCoroutine = some caller
  callee : awaiter.mCalleeCoroutine = coroutine
  replied : awaiter.awaitResume = result
  starter : frame.spawned = true → checked = false ∧ ∀ outcome, Starter (next outcome)

theorem Awaits.awaiterOf {runtime : Runtime Value Exception Operation Answer Memory}
    {result : Option (Outcome Value Exception)} {coroutine caller : Handle}
    {frame callerFrame : Frame Value Exception Operation Answer Memory}
    {awaiter : TaskAwaiter Value Exception} {checked : Bool}
    {next : Outcome Value Exception → Body Value Exception Operation Answer Memory}
    (awaits : Awaits runtime.frames result coroutine caller callerFrame awaiter checked next)
    (knows : frame.mAwaiter = some caller) :
    runtime.awaiterOf coroutine frame = .ok (caller, callerFrame, awaiter) := by
  unfold Runtime.awaiterOf
  simp only [knows, awaits.here, awaits.temporary, awaits.callee, if_true]

/-- The callers of a coroutine, from the promise that it has. `after` is what its thread
does with a reply and what is left of the coroutine. -/
inductive Chain (frames : Frames Value Exception Operation Answer Memory) :
    Option (Outcome Value Exception) → Handle → Bool → Option Handle → Multiset Handle →
      (Outcome Value Exception → Tree Value Exception Operation Answer Memory →
        Tree Value Exception Operation Answer Memory) → Prop
  | root {coroutine mAwaiter} :
      Chain frames none coroutine true mAwaiter 0 fun outcome _ => .finish outcome
  /-- The caller has a TaskOwnedAwaiter. -/
  | call {result coroutine caller frame awaiter checked next own inner footprint after}
      (awaits : Awaits frames result coroutine caller frame awaiter checked next)
      (owner : awaiter.owned = true) (owned : Holds frames frame.tasks own inner)
      (callers : Chain frames none caller frame.spawned frame.mAwaiter footprint after) :
      Chain frames result coroutine false (some caller) (caller ::ₘ (own + footprint))
        fun outcome _ =>
          (goOn checked (fun outcome => (next outcome).tree inner) outcome).follow after
  /-- The coroutine belongs to a Task variable of the caller. -/
  | kept {result coroutine caller frame awaiter checked next index own inner footprint after}
      (awaits : Awaits frames result coroutine caller frame awaiter checked next)
      (owner : awaiter.owned = false) (task : frame.tasks[index]? = some (some coroutine))
      (owned : Holds frames (frame.tasks.set index none) own inner)
      (callers : Chain frames none caller frame.spawned frame.mAwaiter footprint after) :
      Chain frames result coroutine false (some caller) (caller ::ₘ (own + footprint))
        fun outcome rest =>
          (goOn checked (fun outcome => (next outcome).tree (inner.set index rest))
            outcome).follow after

theorem Awaits.congr {result : Option (Outcome Value Exception)} {coroutine caller : Handle}
    {frame : Frame Value Exception Operation Answer Memory}
    {awaiter : TaskAwaiter Value Exception} {checked : Bool}
    {next : Outcome Value Exception → Body Value Exception Operation Answer Memory}
    (awaits : Awaits frames result coroutine caller frame awaiter checked next)
    (same : frames' caller = frames caller) :
    Awaits frames' result coroutine caller frame awaiter checked next :=
  { awaits with here := same.trans awaits.here }

namespace Chain

variable {result : Option (Outcome Value Exception)} {coroutine : Handle} {spawned : Bool}
  {mAwaiter : Option Handle} {footprint : Multiset Handle}
  {after : Outcome Value Exception → Tree Value Exception Operation Answer Memory →
    Tree Value Exception Operation Answer Memory}

theorem congr (chain : Chain frames result coroutine spawned mAwaiter footprint after)
    (same : ∀ coroutine ∈ footprint, frames' coroutine = frames coroutine) :
    Chain frames' result coroutine spawned mAwaiter footprint after := by
  induction chain with
  | root => exact .root
  | call awaits owner owned _ ih =>
      refine .call (awaits.congr ?_) owner (owned.congr ?_) (ih ?_)
      · exact same _ (Multiset.mem_cons_self _ _)
      · intro other member
        exact same other (Multiset.mem_cons_of_mem (Multiset.mem_add.mpr (.inl member)))
      · intro other member
        exact same other (Multiset.mem_cons_of_mem (Multiset.mem_add.mpr (.inr member)))
  | kept awaits owner task owned _ ih =>
      refine .kept (awaits.congr ?_) owner task (owned.congr ?_) (ih ?_)
      · exact same _ (Multiset.mem_cons_self _ _)
      · intro other member
        exact same other (Multiset.mem_cons_of_mem (Multiset.mem_add.mpr (.inl member)))
      · intro other member
        exact same other (Multiset.mem_cons_of_mem (Multiset.mem_add.mpr (.inr member)))

theorem update (chain : Chain frames result coroutine spawned mAwaiter footprint after)
    {other : Handle} (outside : other ∉ footprint)
    (frame : Option (Frame Value Exception Operation Answer Memory)) :
    Chain (Function.update frames other frame) result coroutine spawned mAwaiter footprint
      after := by
  apply chain.congr
  intro another member
  apply Function.update_of_ne
  rintro rfl
  exact outside member

theorem direct (chain : Chain frames result coroutine spawned mAwaiter footprint after)
    (outcome : Outcome Value Exception) (rest : Tree Value Exception Operation Answer Memory) :
    (after outcome rest).Direct := by
  induction chain generalizing outcome rest with
  | root => exact .finish outcome
  | call _ _ _ _ ih => exact .follow ih
  | kept _ _ _ _ _ ih => exact .follow ih

end Chain

/-- Setting it gives an awaiter without a result this one. -/
structure Replies (set : TaskAwaiter Value Exception → TaskAwaiter Value Exception)
    (outcome : Outcome Value Exception) : Prop where
  result : ∀ awaiter, awaiter.awaitResume = none → (set awaiter).awaitResume = some outcome
  caller : ∀ awaiter, (set awaiter).mCallerCoroutine = awaiter.mCallerCoroutine
  callee : ∀ awaiter, (set awaiter).mCalleeCoroutine = awaiter.mCalleeCoroutine
  owned : ∀ awaiter, (set awaiter).owned = awaiter.owned

theorem TaskAwaiter.no_exception {awaiter : TaskAwaiter Value Exception}
    (empty : awaiter.awaitResume = none) : awaiter.mException = none := by
  unfold awaitResume at empty
  cases found : awaiter.mException with
  | none => rfl
  | some exception =>
      rw [found] at empty
      cases empty

theorem replies_returnValue (result : Expected Value) :
    Replies (TaskAwaiter.returnValue result : TaskAwaiter Value Exception → _)
      (.returned result) := by
  refine ⟨?_, fun _ => rfl, fun _ => rfl, fun _ => rfl⟩
  intro awaiter empty
  simp [TaskAwaiter.awaitResume, TaskAwaiter.returnValue, awaiter.no_exception empty]

theorem replies_yieldValue (value : Value) :
    Replies (TaskAwaiter.yieldValue value : TaskAwaiter Value Exception → _)
      (.yielded value) := by
  refine ⟨?_, fun _ => rfl, fun _ => rfl, fun _ => rfl⟩
  intro awaiter empty
  simp [TaskAwaiter.awaitResume, TaskAwaiter.yieldValue, awaiter.no_exception empty]

theorem replies_unhandledException (exception : Exception) :
    Replies (TaskAwaiter.unhandledException exception : TaskAwaiter Value Exception → _)
      (.threw exception) := by
  refine ⟨?_, fun _ => rfl, fun _ => rfl, fun _ => rfl⟩
  intro awaiter _
  simp [TaskAwaiter.awaitResume, TaskAwaiter.unhandledException]

inductive Thread (frames : Frames Value Exception Operation Answer Memory) :
    Handle → Multiset Handle → Tree Value Exception Operation Answer Memory → Prop
  | runs {coroutine frame body own inner footprint after}
      (here : frames coroutine = some frame) (point : frame.point = .code body)
      (bare : frame.awaiter = none) (starter : frame.spawned = true → Starter body)
      (owned : Holds frames frame.tasks own inner)
      (callers : Chain frames none coroutine frame.spawned frame.mAwaiter footprint after) :
      Thread frames coroutine (coroutine ::ₘ (own + footprint)) ((body.tree inner).follow after)
  /-- It is resumed at its co_await, with the reply of the callee. -/
  | resumed {coroutine frame awaiter checked next outcome callee below own inner footprint after}
      (here : frames coroutine = some frame) (point : frame.point = .awaiting checked next)
      (temporary : frame.awaiter = some awaiter) (replied : awaiter.awaitResume = some outcome)
      (starter : frame.spawned = true → checked = false ∧ ∀ outcome, Starter (next outcome))
      (replier : Holds frames awaiter.holds callee below)
      (owned : Holds frames frame.tasks own inner)
      (callers : Chain frames none coroutine frame.spawned frame.mAwaiter footprint after) :
      Thread frames coroutine (coroutine ::ₘ (callee + own + footprint))
        ((goOn checked (fun outcome => (next outcome).tree inner) outcome).follow after)

namespace Thread

variable {coroutine : Handle} {footprint : Multiset Handle}
  {tree : Tree Value Exception Operation Answer Memory}

theorem congr (thread : Thread frames coroutine footprint tree)
    (same : ∀ coroutine ∈ footprint, frames' coroutine = frames coroutine) :
    Thread frames' coroutine footprint tree := by
  cases thread with
  | runs here point bare starter owned callers =>
      refine .runs ?_ point bare starter (owned.congr ?_) (callers.congr ?_)
      · rw [same _ (Multiset.mem_cons_self _ _), here]
      · intro other member
        exact same other (by simp [member])
      · intro other member
        exact same other (by simp [member])
  | resumed here point temporary replied starter replier owned callers =>
      refine .resumed ?_ point temporary replied starter (replier.congr ?_) (owned.congr ?_)
        (callers.congr ?_)
      · rw [same _ (Multiset.mem_cons_self _ _), here]
      · intro other member
        exact same other (by simp [member])
      · intro other member
        exact same other (by simp [member])
      · intro other member
        exact same other (by simp [member])

theorem direct (thread : Thread frames coroutine footprint tree) : tree.Direct := by
  cases thread with
  | runs _ _ _ _ _ callers => exact .follow callers.direct
  | resumed _ _ _ _ _ _ _ callers => exact .follow callers.direct

end Thread

namespace Chain

variable {runtime : Runtime Value Exception Operation Answer Memory} {coroutine : Handle}
  {mAwaiter : Option Handle} {footprint : Multiset Handle}
  {after : Outcome Value Exception → Tree Value Exception Operation Answer Memory →
    Tree Value Exception Operation Answer Memory}
  {frame : Frame Value Exception Operation Answer Memory}

theorem awaiterOf {result : Option (Outcome Value Exception)}
    (chain : Chain runtime.frames result coroutine false mAwaiter footprint after)
    (knows : frame.mAwaiter = mAwaiter) :
    ∃ caller callerFrame awaiter, mAwaiter = some caller ∧
      awaiter.mCallerCoroutine = some caller ∧
      runtime.awaiterOf coroutine frame = .ok (caller, callerFrame, awaiter) := by
  cases chain with
  | call awaits _ _ _ => exact ⟨_, _, _, rfl, awaits.caller, awaits.awaiterOf knows⟩
  | kept awaits _ _ _ _ => exact ⟨_, _, _, rfl, awaits.caller, awaits.awaiterOf knows⟩

theorem reply (chain : Chain runtime.frames none coroutine false mAwaiter footprint after)
    (distinct : footprint.Nodup) (here : runtime.frames coroutine = some frame)
    (knows : frame.mAwaiter = mAwaiter)
    {set : TaskAwaiter Value Exception → TaskAwaiter Value Exception}
    {outcome : Outcome Value Exception} (replies : Replies set outcome) :
    ∃ caller ∈ footprint, ∃ callerFrame,
      runtime.reply coroutine set = .ok (runtime.write caller callerFrame) ∧
      Chain (Function.update runtime.frames caller (some callerFrame)) (some outcome) coroutine
        false mAwaiter footprint after := by
  have found : ∀ {caller callerFrame awaiter checked next},
      Awaits runtime.frames none coroutine caller callerFrame awaiter checked next →
        mAwaiter = some caller →
        runtime.reply coroutine set =
          .ok (runtime.write caller { callerFrame with awaiter := some (set awaiter) }) := by
    intro caller callerFrame awaiter checked next awaits same
    unfold Runtime.reply Runtime.frame
    rw [here]
    change (runtime.awaiterOf coroutine frame).bind _ = _
    rw [awaits.awaiterOf (knows.trans same)]
    rfl
  have answered : ∀ {caller callerFrame awaiter checked next},
      Awaits runtime.frames none coroutine caller callerFrame awaiter checked next →
        Awaits
          (Function.update runtime.frames caller
            (some { callerFrame with awaiter := some (set awaiter) }))
          (some outcome) coroutine caller { callerFrame with awaiter := some (set awaiter) }
          (set awaiter) checked next := by
    intro caller callerFrame awaiter checked next awaits
    exact ⟨Function.update_self _ _ _, awaits.point, rfl,
      (replies.caller awaiter).trans awaits.caller, (replies.callee awaiter).trans awaits.callee,
      replies.result awaiter awaits.replied, awaits.starter⟩
  cases chain with
  | call awaits owner owned callers =>
      obtain ⟨outside, distinct⟩ := Multiset.nodup_cons.mp distinct
      rw [Multiset.mem_add, not_or] at outside
      refine ⟨_, Multiset.mem_cons_self _ _, _, found awaits rfl, ?_⟩
      exact .call (answered awaits) ((replies.owned _).trans owner) (owned.update outside.1 _)
        (callers.update outside.2 _)
  | kept awaits owner task owned callers =>
      obtain ⟨outside, distinct⟩ := Multiset.nodup_cons.mp distinct
      rw [Multiset.mem_add, not_or] at outside
      refine ⟨_, Multiset.mem_cons_self _ _, _, found awaits rfl, ?_⟩
      exact .kept (answered awaits) ((replies.owned _).trans owner) task
        (owned.update outside.1 _) (callers.update outside.2 _)

theorem resumed {outcome : Outcome Value Exception} {own : Multiset Handle}
    {rest : Tree Value Exception Operation Answer Memory} {caller : Handle}
    (chain : Chain frames (some outcome) coroutine false mAwaiter footprint after)
    (knows : mAwaiter = some caller) (held : Holds frames [some coroutine] own [rest]) :
    Thread frames caller (own + footprint) (after outcome rest) := by
  subst knows
  cases chain with
  | @call _ _ _ _ awaiter _ _ mine _ footprint _ awaits owner owned callers =>
      have holding : awaiter.holds = [some coroutine] := by
        simp [TaskAwaiter.holds, owner, awaits.callee]
      rw [← holding] at held
      rw [Multiset.add_cons, ← add_assoc]
      exact .resumed awaits.here awaits.point awaits.temporary awaits.replied awaits.starter held
        owned callers
  | @kept _ _ _ _ awaiter _ _ index mine _ footprint _ awaits owner task owned callers =>
      have holding : awaiter.holds = [] := by simp [TaskAwaiter.holds, owner]
      have nothing : Holds frames awaiter.holds 0 [] := by
        rw [holding]
        exact .nil
      rw [Multiset.add_cons, ← add_assoc, ← zero_add (own + mine)]
      exact .resumed awaits.here awaits.point awaits.temporary awaits.replied awaits.starter
        nothing (owned.put task held) callers

end Chain

end MCoro.Tasks
