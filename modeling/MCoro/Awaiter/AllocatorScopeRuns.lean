/-
The invariant of currentAllocator over all runs of coroutines.

Every coroutine that awaits keeps what the scopes around it make the allocator, and every
scope keeps what it is to restore, whatever runs in between. So a coroutine can only
find another allocator when it is resumed, where nothing sets it.
-/

import MCoro.Awaiter.AllocatorScopes

namespace MCoro

namespace AllocatorScopes

/-- The scopes and the TaskAwaiters restore the right allocator, and a coroutine that is
awaited has the scopes of the one that awaits it around its own. -/
structure Sound (coroutines : Nat → Option Coroutine) : Prop where
  nested : ∀ id coroutine, coroutines id = some coroutine →
    Nested coroutine.context coroutine.scopes coroutine.opened
  saved : ∀ id coroutine callee allocator, coroutines id = some coroutine →
    coroutine.phase = .task callee allocator → allocator = coroutine.enclosing
  awaited : ∀ id coroutine caller, coroutines id = some coroutine →
    coroutine.caller = some caller →
      caller ≠ id ∧ ∃ awaiting, coroutines caller = some awaiting ∧
        coroutine.context = awaiting.opened ++ awaiting.context ∧ awaiting.Awaits id

structure Inv (state : State) : Prop where
  sound : Sound state.coroutines
  running : ∀ id, state.control = some id → ∃ coroutine, state.coroutines id = some coroutine ∧
    coroutine.phase = .running ∧ state.currentAllocator = coroutine.enclosing
  idle : state.control = none → state.currentAllocator = state.handedBack

/-- Nobody in the table is awaited by it. -/
def Childless (coroutines : Nat → Option Coroutine) (id : Nat) : Prop :=
  ∀ other coroutine, coroutines other = some coroutine → coroutine.caller ≠ some id

section Tables

variable {coroutines : Nat → Option Coroutine} {id : Nat} {coroutine made : Coroutine}

theorem Sound.childless_of_absent (sound : Sound coroutines) (absent : coroutines id = none) :
    Childless coroutines id := by
  intro other child found caller
  obtain ⟨_, awaiting, there, _⟩ := sound.awaited other child id found caller
  rw [absent] at there
  cases there

theorem Sound.childless_of_quiet (sound : Sound coroutines) (found : coroutines id = some coroutine)
    (quiet : ∀ other, ¬coroutine.Awaits other) : Childless coroutines id := by
  intro other child there caller
  obtain ⟨_, awaiting, same, _, awaits⟩ := sound.awaited other child id there caller
  rw [Option.some.inj (found.symm.trans same)] at quiet
  exact quiet other awaits

/-- A coroutine can be put in the table if those that name it as their caller agree. -/
theorem Sound.set (sound : Sound coroutines)
    (nested : Nested made.context made.scopes made.opened)
    (saved : ∀ callee allocator, made.phase = .task callee allocator → allocator = made.enclosing)
    (awaited : ∀ caller, made.caller = some caller →
      caller ≠ id ∧ ∃ awaiting, coroutines caller = some awaiting ∧
        made.context = awaiting.opened ++ awaiting.context ∧ awaiting.Awaits id)
    (children : ∀ other child, coroutines other = some child → child.caller = some id →
      child.context = made.opened ++ made.context ∧ made.Awaits other) :
    Sound (Function.update coroutines id (some made)) := by
  constructor
  case nested =>
    intro other child found
    by_cases same : other = id
    · rw [same, Function.update_self] at found
      rw [← Option.some.inj found]
      exact nested
    · rw [Function.update_of_ne same] at found
      exact sound.nested other child found
  case saved =>
    intro other child callee allocator found phase
    by_cases same : other = id
    · rw [same, Function.update_self] at found
      rw [← Option.some.inj found] at phase ⊢
      exact saved callee allocator phase
    · rw [Function.update_of_ne same] at found
      exact sound.saved other child callee allocator found phase
  case awaited =>
    intro other child caller found called
    by_cases same : other = id
    · subst same
      rw [Function.update_self] at found
      rw [← Option.some.inj found] at called ⊢
      obtain ⟨apart, awaiting, there, rest⟩ := awaited caller called
      refine ⟨apart, awaiting, ?_, rest⟩
      rw [Function.update_of_ne apart]
      exact there
    · rw [Function.update_of_ne same] at found
      obtain ⟨apart, awaiting, there, rest⟩ := sound.awaited other child caller found called
      refine ⟨apart, ?_⟩
      by_cases here : caller = id
      · subst here
        exact ⟨made, Function.update_self .., children other child found called⟩
      · rw [Function.update_of_ne here]
        exact ⟨awaiting, there, rest⟩

theorem Sound.set_childless (sound : Sound coroutines) (childless : Childless coroutines id)
    (nested : Nested made.context made.scopes made.opened)
    (saved : ∀ callee allocator, made.phase = .task callee allocator → allocator = made.enclosing)
    (awaited : ∀ caller, made.caller = some caller →
      caller ≠ id ∧ ∃ awaiting, coroutines caller = some awaiting ∧
        made.context = awaiting.opened ++ awaiting.context ∧ awaiting.Awaits id) :
    Sound (Function.update coroutines id (some made)) :=
  sound.set nested saved awaited fun other child found called =>
    absurd called (childless other child found)

theorem Sound.remove (sound : Sound coroutines) (childless : Childless coroutines id) :
    Sound (Function.update coroutines id none) := by
  have kept : ∀ {other child}, Function.update coroutines id none other = some child →
      coroutines other = some child := by
    intro other child found
    by_cases same : other = id
    · rw [same, Function.update_self] at found
      cases found
    · rw [Function.update_of_ne same] at found
      exact found
  constructor
  case nested =>
    intro other child found
    exact sound.nested other child (kept found)
  case saved =>
    intro other child callee allocator found phase
    exact sound.saved other child callee allocator (kept found) phase
  case awaited =>
    intro other child caller found called
    obtain ⟨apart, awaiting, there, rest⟩ := sound.awaited other child caller (kept found) called
    refine ⟨apart, awaiting, ?_, rest⟩
    have other_ : caller ≠ id := by
      intro same
      rw [same] at called
      exact childless other child (kept found) called
    rw [Function.update_of_ne other_]
    exact there

theorem Sound.set_phase (sound : Sound coroutines) (found : coroutines id = some coroutine)
    (childless : Childless coroutines id) {phase : Phase}
    (saved : ∀ callee allocator, phase = .task callee allocator → allocator = coroutine.enclosing) :
    Sound (Function.update coroutines id (some { coroutine with phase := phase })) := by
  apply sound.set_childless childless
  · exact sound.nested id coroutine found
  · exact saved
  · intro caller called
    exact sound.awaited id coroutine caller found called

theorem Sound.add_all {state : State} (sound : Sound state.coroutines)
    (found : state.coroutines id = some coroutine) {caller : Coroutine} {tasks : List Nat}
    (awaits : ∀ task ∈ tasks, coroutine.Awaits task)
    (context : (caller.child id .fresh).context = coroutine.opened ++ coroutine.context)
    (absent : ∀ task ∈ tasks, state.coroutines task = none) (distinct : tasks.Nodup) :
    Sound (tasks.foldl (fun state task => state.set task (some (caller.child id .fresh)))
      state).coroutines ∧
      (tasks.foldl (fun state task => state.set task (some (caller.child id .fresh)))
        state).currentAllocator = state.currentAllocator := by
  induction tasks generalizing state with
  | nil => exact ⟨sound, rfl⟩
  | cons task tasks ih =>
      have free := absent task List.mem_cons_self
      have apart : id ≠ task := by
        intro same
        rw [← same, found] at free
        cases free
      obtain ⟨notAgain, others⟩ := List.nodup_cons.1 distinct
      have added : Sound (state.set task (some (caller.child id .fresh))).coroutines := by
        apply sound.set_childless (sound.childless_of_absent free) .nil
        · intro callee allocator phase
          cases phase
        · intro awaiting called
          rw [← Option.some.inj called]
          exact ⟨apart, coroutine, found, context, awaits task List.mem_cons_self⟩
      have there : (state.set task (some (caller.child id .fresh))).coroutines id = some coroutine :=
        (Function.update_of_ne apart ..).trans found
      apply ih added there
      · intro other member
        exact awaits other (List.mem_cons_of_mem task member)
      · intro other member
        have different : other ≠ task := fun same => notAgain (same ▸ member)
        exact (Function.update_of_ne different ..).trans
          (absent other (List.mem_cons_of_mem task member))
      · exact others

end Tables

/-! ### The steps of the coroutine that runs -/

section Running

variable {state : State} {id : Nat} {coroutine : Coroutine}

theorem step_eq (control : state.control = some id) (found : state.coroutines id = some coroutine)
    (act : Nat → Coroutine → State) : state.step act = act id coroutine := by
  unfold State.step
  rw [control]
  dsimp only
  rw [found]

theorem quiet_of_phase {phase : Phase} (is : coroutine.phase = phase)
    (alone : phase = .fresh ∨ phase = .running ∨ phase = .suspended) (other : Nat) :
    ¬coroutine.Awaits other := by
  intro awaits
  unfold Coroutine.Awaits at awaits
  rcases alone with rfl | rfl | rfl
  all_goals
    rw [is] at awaits
    exact awaits

theorem quiet_of_running (running : coroutine.phase = .running) (other : Nat) :
    ¬coroutine.Awaits other :=
  quiet_of_phase running (.inr (.inl rfl)) other

theorem Inv.handBack {left : State} (sound : Sound left.coroutines)
    (current : left.currentAllocator = coroutine.enclosing) : Inv (left.handBack coroutine) where
  sound := sound
  running _ control := absurd control.symm (Option.some_ne_none _)
  idle _ := current

theorem Inv.rescope (inv : Inv state) (control : state.control = some id)
    (found : state.coroutines id = some coroutine) (running : coroutine.phase = .running)
    {scopes : List ReplaceAllocator} {opened : List Resource}
    (nested : Nested coroutine.context scopes opened) :
    Inv { state.set id (some { coroutine with scopes := scopes, opened := opened }) with
      currentAllocator := innermost (opened ++ coroutine.context) } := by
  have childless := inv.sound.childless_of_quiet found (quiet_of_running running)
  constructor
  case sound =>
    apply inv.sound.set_childless childless nested
    · intro callee last phase
      cases running.symm.trans phase
    · intro caller called
      exact inv.sound.awaited id coroutine caller found called
  case running =>
    intro other here
    rw [← Option.some.inj (control.symm.trans here)]
    exact ⟨_, Function.update_self .., running, rfl⟩
  case idle =>
    intro none_
    cases control.symm.trans none_

theorem Inv.construct (inv : Inv state) (control : state.control = some id)
    (found : state.coroutines id = some coroutine) (running : coroutine.phase = .running)
    (current : state.currentAllocator = coroutine.enclosing) (allocator : Resource) :
    Inv (construct state allocator id coroutine) := by
  have inner := Nested.cons allocator (inv.sound.nested id coroutine found)
  have opened := inv.rescope control found running inner
  unfold Coroutine.enclosing at current
  rw [← current] at opened
  exact opened

theorem Inv.destroy (inv : Inv state) (control : state.control = some id)
    (found : state.coroutines id = some coroutine) (running : coroutine.phase = .running) :
    Inv (destroy state id coroutine) := by
  have nested := inv.sound.nested id coroutine found
  unfold AllocatorScopes.destroy
  cases scopes : coroutine.scopes with
  | nil => exact inv
  | cons scope rest =>
      rw [scopes] at nested
      generalize opened : coroutine.opened = resources at nested
      cases nested with
      | cons allocator inner => exact inv.rescope control found running inner

theorem Inv.call (inv : Inv state) (found : state.coroutines id = some coroutine)
    (running : coroutine.phase = .running)
    (current : state.currentAllocator = coroutine.enclosing) {callee : Nat}
    (absent : state.coroutines callee = none) : Inv (call state callee id coroutine) := by
  have childless := inv.sound.childless_of_quiet found (quiet_of_running running)
  have apart : id ≠ callee := by
    intro same
    rw [← same, found] at absent
    cases absent
  have waiting : Sound (Function.update state.coroutines id
      (some { coroutine with phase := .task callee state.currentAllocator })) := by
    apply inv.sound.set_phase found childless
    intro other allocator phase
    rw [← (Phase.task.inj phase).2]
    exact current
  have free : Function.update state.coroutines id
      (some { coroutine with phase := .task callee state.currentAllocator }) callee = none :=
    (Function.update_of_ne (Ne.symm apart) ..).trans absent
  constructor
  case sound =>
    apply waiting.set_childless (waiting.childless_of_absent free) .nil
    · intro other allocator phase
      cases phase
    · intro caller called
      rw [← Option.some.inj called]
      exact ⟨apart, _, Function.update_self .., rfl, rfl⟩
  case running =>
    intro other here
    rw [← Option.some.inj here]
    exact ⟨_, Function.update_self .., rfl, current⟩
  case idle =>
    intro none_
    cases none_

theorem Inv.suspend (inv : Inv state) (found : state.coroutines id = some coroutine)
    (running : coroutine.phase = .running)
    (current : state.currentAllocator = coroutine.enclosing) :
    Inv (suspend state id coroutine) := by
  have childless := inv.sound.childless_of_quiet found (quiet_of_running running)
  apply Inv.handBack
  · apply inv.sound.set_phase found childless
    intro callee allocator phase
    cases phase
  · exact current

theorem Inv.whenAll (inv : Inv state) (found : state.coroutines id = some coroutine)
    (running : coroutine.phase = .running)
    (current : state.currentAllocator = coroutine.enclosing) {tasks : List Nat}
    (distinct : tasks.Nodup) (absent : ∀ task ∈ tasks, state.coroutines task = none) :
    Inv (whenAll state tasks id coroutine) := by
  have childless := inv.sound.childless_of_quiet found (quiet_of_running running)
  have waiting : Sound (state.set id
      (some { coroutine with phase := .whenAll tasks })).coroutines := by
    apply inv.sound.set_phase found childless
    intro callee allocator phase
    cases phase
  have still : ∀ task ∈ tasks, (state.set id
      (some { coroutine with phase := .whenAll tasks })).coroutines task = none := by
    intro task member
    have apart : task ≠ id := by
      intro same
      have free := absent task member
      rw [same, found] at free
      cases free
    exact (Function.update_of_ne apart ..).trans (absent task member)
  have made : (state.set id (some { coroutine with phase := .whenAll tasks })).coroutines id =
      some { coroutine with phase := .whenAll tasks } := Function.update_self ..
  obtain ⟨sound, same⟩ := waiting.add_all made (fun task member => member)
    (rfl : (coroutine.child id .fresh).context = _) still distinct
  have back := Inv.handBack sound (same.trans current)
  exact ⟨back.sound, back.running, back.idle⟩

theorem opened_of_no_scopes (inv : Inv state) (found : state.coroutines id = some coroutine)
    (closed : coroutine.scopes = []) : coroutine.opened = [] := by
  have nested := inv.sound.nested id coroutine found
  rw [closed] at nested
  generalize coroutine.opened = opened at nested
  cases nested
  rfl

theorem Inv.back_to_caller (inv : Inv state) (childless : Childless state.coroutines id)
    {caller : Nat} {awaiting : Coroutine} (apart : caller ≠ id)
    (there : state.coroutines caller = some awaiting)
    (last : ∀ other, other ≠ id → ¬awaiting.Awaits other) {allocator : Resource}
    (current : allocator = awaiting.enclosing) :
    Inv { (state.set id none).resume caller awaiting with currentAllocator := allocator } := by
  have removed := inv.sound.remove childless
  have still : Function.update state.coroutines id none caller = some awaiting :=
    (Function.update_of_ne apart ..).trans there
  have alone : Childless (Function.update state.coroutines id none) caller := by
    intro other child found called
    obtain ⟨_, same, again, _, awaits⟩ := removed.awaited other child caller found called
    rw [← Option.some.inj (still.symm.trans again)] at awaits
    have different : other ≠ id := by
      intro equal
      rw [equal, Function.update_self] at found
      cases found
    exact last other different awaits
  constructor
  case sound =>
    apply removed.set_phase still alone
    intro callee last phase
    cases phase
  case running =>
    intro other here
    rw [← Option.some.inj here]
    exact ⟨_, Function.update_self .., rfl, current⟩
  case idle =>
    intro none_
    cases none_

theorem Inv.rejoin (inv : Inv state) (childless : Childless state.coroutines id)
    {caller : Nat} {awaiting : Coroutine} (there : state.coroutines caller = some awaiting)
    {pending : List Nat} (phase : awaiting.phase = .whenAll pending) (apart : caller ≠ id)
    (current : state.currentAllocator = coroutine.enclosing) :
    Inv (((state.set id none).set caller
      (some { awaiting with phase := .whenAll (pending.erase id) })).handBack coroutine) := by
  have removed := inv.sound.remove childless
  have still : Function.update state.coroutines id none caller = some awaiting :=
    (Function.update_of_ne apart ..).trans there
  apply Inv.handBack
  · apply removed.set
    · exact inv.sound.nested caller awaiting there
    · intro callee allocator other
      cases other
    · intro above called
      exact removed.awaited caller awaiting above still called
    · intro other child found called
      obtain ⟨_, same, again, context, awaits⟩ := removed.awaited other child caller found called
      rw [← Option.some.inj (still.symm.trans again)] at context awaits
      refine ⟨context, ?_⟩
      have different : other ≠ id := by
        intro equal
        rw [equal, Function.update_self] at found
        cases found
      unfold Coroutine.Awaits at awaits
      rw [phase] at awaits
      exact (List.mem_erase_of_ne different).2 awaits
  · exact current

theorem Inv.finish (inv : Inv state) (found : state.coroutines id = some coroutine)
    (running : coroutine.phase = .running)
    (current : state.currentAllocator = coroutine.enclosing) (closed : coroutine.scopes = []) :
    Inv (finish state id coroutine) := by
  have childless := inv.sound.childless_of_quiet found (quiet_of_running running)
  unfold AllocatorScopes.finish
  cases called : coroutine.caller with
  | none => exact Inv.handBack (inv.sound.remove childless) current
  | some caller =>
      obtain ⟨apart, awaiting, there, context, awaits⟩ :=
        inv.sound.awaited id coroutine caller found called
      dsimp only
      rw [there]
      unfold Coroutine.Awaits at awaits
      cases phase : awaiting.phase with
      | fresh =>
          rw [phase] at awaits
          exact absurd awaits not_false
      | running =>
          rw [phase] at awaits
          exact absurd awaits not_false
      | suspended =>
          rw [phase] at awaits
          exact absurd awaits not_false
      | task callee allocator =>
          rw [phase] at awaits
          simp only [phase]
          apply inv.back_to_caller childless apart there
          · intro other different also_
            unfold Coroutine.Awaits at also_
            rw [phase] at also_
            exact different (also_.symm.trans awaits)
          · exact inv.sound.saved caller awaiting callee allocator there phase
      | whenAll pending =>
          rw [phase] at awaits
          have outer : coroutine.enclosing = awaiting.enclosing := by
            unfold Coroutine.enclosing
            rw [opened_of_no_scopes inv found closed, context]
            rfl
          simp only [phase]
          by_cases none_ : pending.erase id = []
          · rw [if_pos none_]
            apply inv.back_to_caller childless apart there
            · intro other different also_
              unfold Coroutine.Awaits at also_
              rw [phase] at also_
              have kept := (List.mem_erase_of_ne different).2 also_
              rw [none_] at kept
              exact List.not_mem_nil kept
            · exact current.trans outer
          · rw [if_neg none_]
            exact inv.rejoin childless there phase apart current

end Running

/-! ### Resuming -/

section Resuming

variable {state : State}

theorem Inv.resume (inv : Inv state) (control : state.control = none) {id : Nat}
    {coroutine : Coroutine} (found : state.coroutines id = some coroutine)
    (quiet : ∀ other, ¬coroutine.Awaits other)
    (same : state.handedBack = coroutine.enclosing) (starting : List (List Nat)) :
    Inv { state.resume id coroutine with starting := starting } := by
  constructor
  case sound =>
    apply inv.sound.set_phase found (inv.sound.childless_of_quiet found quiet)
    intro callee allocator phase
    cases phase
  case running =>
    intro other here
    rw [← Option.some.inj here]
    exact ⟨_, Function.update_self .., rfl, (inv.idle control).trans same⟩
  case idle =>
    intro none_
    cases none_

theorem inv_initial : Inv machine.initial where
  sound :=
    { nested := fun _ _ found => absurd found.symm (Option.some_ne_none _)
      saved := fun _ _ _ _ found => absurd found.symm (Option.some_ne_none _)
      awaited := fun _ _ _ found => absurd found.symm (Option.some_ne_none _) }
  running _ control := absurd control.symm (Option.some_ne_none _)
  idle _ := rfl

theorem startNext_of_enabled (enabled : Enabled state .startNext) :
    ∃ task tasks outer coroutine, state.starting = (task :: tasks) :: outer ∧
      state.coroutines task = some coroutine ∧ coroutine.phase = .fresh := by
  have waiting := enabled.2
  split at waiting
  case h_1 task tasks outer starting =>
    obtain ⟨coroutine, found, phase⟩ := Option.map_eq_some_iff.1 waiting
    exact ⟨task, tasks, outer, coroutine, starting, found, phase⟩
  case h_2 => exact absurd waiting not_false

theorem startNext_eq {task : Nat} {tasks : List Nat} {outer : List (List Nat)}
    {coroutine : Coroutine} (starting : state.starting = (task :: tasks) :: outer)
    (found : state.coroutines task = some coroutine) :
    AllocatorScopes.startNext state = { state.resume task coroutine with
      starting := if tasks = [] then outer else tasks :: outer } := by
  unfold AllocatorScopes.startNext
  rw [starting]
  dsimp only
  rw [found]

theorem resume_eq {id : Nat} {coroutine : Coroutine} (found : state.coroutines id = some coroutine) :
    AllocatorScopes.next state (.resume id) = state.resume id coroutine := by
  unfold AllocatorScopes.next
  dsimp only
  rw [found]

theorem Inv.next (inv : Inv state) {action : Action} (enabled : Enabled state action)
    (undisturbed : Undisturbed state action) : Inv (next state action) := by
  cases action with
  | spawn id =>
      obtain ⟨control, _, absent⟩ := enabled
      constructor
      case sound =>
        apply inv.sound.set_childless (inv.sound.childless_of_absent absent) .nil
        · intro callee allocator phase
          cases phase
        · intro caller called
          cases called
      case running =>
        intro other here
        rw [← Option.some.inj here]
        exact ⟨_, Function.update_self .., rfl, (inv.idle control).trans undisturbed⟩
      case idle =>
        intro none_
        cases none_
  | construct allocator =>
      obtain ⟨id, control⟩ := Option.isSome_iff_exists.1 enabled
      obtain ⟨coroutine, found, running, current⟩ := inv.running id control
      change Inv (state.step _)
      rw [step_eq control found]
      exact inv.construct control found running current allocator
  | destroy =>
      obtain ⟨id, control⟩ := Option.isSome_iff_exists.1 enabled
      obtain ⟨coroutine, found, running, _⟩ := inv.running id control
      change Inv (state.step _)
      rw [step_eq control found]
      exact inv.destroy control found running
  | call callee =>
      obtain ⟨id, control⟩ := Option.isSome_iff_exists.1 enabled.1
      obtain ⟨coroutine, found, running, current⟩ := inv.running id control
      change Inv (state.step _)
      rw [step_eq control found]
      exact inv.call found running current enabled.2
  | suspend =>
      obtain ⟨id, control⟩ := Option.isSome_iff_exists.1 enabled
      obtain ⟨coroutine, found, running, current⟩ := inv.running id control
      change Inv (state.step _)
      rw [step_eq control found]
      exact inv.suspend found running current
  | whenAll tasks =>
      obtain ⟨some_, _, distinct, absent⟩ := enabled
      obtain ⟨id, control⟩ := Option.isSome_iff_exists.1 some_
      obtain ⟨coroutine, found, running, current⟩ := inv.running id control
      change Inv (state.step _)
      rw [step_eq control found]
      exact inv.whenAll found running current distinct absent
  | startNext =>
      obtain ⟨task, tasks, outer, coroutine, starting, found, phase⟩ := startNext_of_enabled enabled
      change Inv (AllocatorScopes.startNext state)
      rw [startNext_eq starting found]
      exact inv.resume enabled.1 found (quiet_of_phase phase (.inl rfl))
        (undisturbed task tasks outer coroutine starting found) _
  | resume id =>
      obtain ⟨coroutine, found, phase⟩ := Option.map_eq_some_iff.1 enabled.2.2
      rw [resume_eq found]
      exact inv.resume enabled.1 found (quiet_of_phase phase (.inr (.inr rfl)))
        (undisturbed coroutine found) state.starting
  | finish =>
      obtain ⟨id, control, scopes⟩ := Option.bind_eq_some_iff.1 enabled
      obtain ⟨coroutine, found, running, current⟩ := inv.running id control
      rw [found, Option.map_some, Option.some.injEq] at scopes
      change Inv (state.step _)
      rw [step_eq control found]
      exact inv.finish found running current scopes

theorem Inv.observes (inv : Inv state) : Observes state := by
  intro id coroutine control found
  obtain ⟨same, there, _, current⟩ := inv.running id control
  rw [Option.some.inj (found.symm.trans there)]
  exact current

/-- A coroutine that is resumed observes the right allocator just if it was left there. -/
theorem observes_next_iff (inv : Inv state) {action : Action} (enabled : Enabled state action) :
    Observes (next state action) ↔ Undisturbed state action := by
  constructor
  · intro observes
    cases action with
    | spawn id =>
        have found := observes id _ rfl (Function.update_self ..)
        exact (inv.idle enabled.1).symm.trans found
    | startNext =>
        intro task tasks outer coroutine starting found
        change Observes (AllocatorScopes.startNext state) at observes
        rw [startNext_eq starting found] at observes
        have current := observes task { coroutine with phase := .running } rfl
          (Function.update_self ..)
        exact (inv.idle enabled.1).symm.trans current
    | resume id =>
        intro coroutine found
        rw [resume_eq found] at observes
        have current := observes id { coroutine with phase := .running } rfl
          (Function.update_self ..)
        exact (inv.idle enabled.1).symm.trans current
    | _ => trivial
  · intro undisturbed
    exact (inv.next enabled undisturbed).observes

end Resuming

/-! ### Runs -/

/-- In a run every coroutine observes at every point the allocator of the scopes around it,
its own and those of its callers, just if each one that is resumed has the same allocator
around it as the one that was the last to give up the control. -/
theorem observes_iff_undisturbed (actions : List Action)
    (runs : machine.Runs machine.initial actions) :
    machine.Along (fun state action => Observes (next state action)) machine.initial actions ↔
      machine.Along Undisturbed machine.initial actions :=
  Machine.along_iff_of_invariant Inv (fun _ _ inv enabled undisturbed => inv.next enabled undisturbed)
    (fun _ _ inv enabled => observes_next_iff inv enabled) inv_initial runs

instance decidableEnabled (state : State) (action : Action) :
    Decidable (machine.Enabled state action) := by
  cases action with
  | startNext =>
      change Decidable (state.control = none ∧ match state.starting with
        | (task :: _) :: _ => (state.coroutines task).map Coroutine.phase = some .fresh
        | _ => False)
      split <;> infer_instance
  | _ =>
      unfold machine Enabled
      infer_instance

/-- Two coroutines with a scope each, one that it closes before it suspends and one around a
Task. -/
theorem observes_iff_undisturbed_closed :
    machine.Along (fun state action => Observes (next state action)) machine.initial
        [.spawn 0, .construct (.other 1), .call 2, .construct (.other 2), .destroy, .finish,
          .destroy, .suspend, .spawn 1, .construct (.other 3), .destroy, .suspend, .resume 0] := by
  apply (observes_iff_undisturbed _ (by decide)).2
  refine ⟨rfl, trivial, trivial, trivial, trivial, trivial, trivial, trivial, rfl, trivial, trivial,
    trivial, ?_, trivial⟩
  intro coroutine found
  rw [← Option.some.inj found]
  rfl

/-- A coroutine without a scope runs on with the allocator of another one, which suspended
within its own. -/
theorem not_observes_suspended :
    machine.Runs machine.initial
        [.spawn 0, .suspend, .spawn 1, .construct (.other 1), .suspend, .resume 0] ∧
      ¬Observes (machine.after machine.initial
        [.spawn 0, .suspend, .spawn 1, .construct (.other 1), .suspend, .resume 0]) := by
  constructor
  · decide
  · intro observes
    have current := observes 0
      { caller := none, scopes := [], phase := .running, opened := [], context := [] } rfl rfl
    cases current

end AllocatorScopes

end MCoro
