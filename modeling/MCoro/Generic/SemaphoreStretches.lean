/-
One event loop as the semaphore sees it.

A call runs without interruption up to its next suspension. Each such stretch is a
sequence of the atomic steps of acquire or release in which the first exchange succeeds
and the second one fails, so a run of the event loop is a run of those steps with one
change for each call.
-/

import MCoro.Generic.SemaphoreRuns
import MCoro.Generic.SemaphoreWaiters
import MCoro.Library.Refinement

namespace MCoro

namespace Semaphore

/-- The calls that return success, with their directions. -/
def success (state : State) : Action → Option (Nat × Direction)
  | .notify id _ => (state.calls id).map fun call => (id, call.direction)
  | _ => none

/-! ### One stretch -/

theorem State.set_set (state : State) (id : Nat) (first second : Call) :
    (state.set id first).set id second = state.set id second := by
  unfold set
  simp

/-- What a call leaves that goes through. -/
def State.through (state : State) (id : Nat) (direction : Direction) (woken : List Nat) : State :=
  { state.store (direction.desired state.semaphore.mCounter) with
    calls := Function.update state.calls id (some
      { direction := direction
        position := .succeeded
        changes := 1 })
    waits := Futex.wakeEach state.waits woken }

variable {maxCount initialCount : UInt32} {state : State} {id : Nat} {direction : Direction}

/-- The first exchange of the stretch. -/
theorem next_exchange_first {call : Call}
    (found : state.calls id = some call) (fresh : call.changes = 0)
    (place : call.position = .exchanging state.semaphore.mCounter)
    (free : state.semaphore.mCounter ≠ call.direction.limit state.semaphore) :
    Enabled state (.exchange id false) ∧ OneChange state (.exchange id false) ∧
      next state (.exchange id false) =
        (state.store (call.direction.desired state.semaphore.mCounter)).set id
          { call with changes := 1 } := by
  have count : call.position.count? = some state.semaphore.mCounter := by rw [place, Position.count?]
  refine ⟨⟨call, found, ?_⟩, ?_, ?_⟩
  · unfold Ready
    simp only [count, Option.isSome_some]
  · intro other there
    cases found.symm.trans there
    exact (if_pos fresh).mpr ⟨rfl, count⟩
  · unfold next
    simp only [found, count, Option.elim_some]
    rcases state.exchange_cases id free false with ⟨_, _, done⟩ | ⟨wrong | different, _⟩
    · rw [done, fresh, ← place]
    · cases wrong
    · exact absurd rfl different

/-- The second one. -/
theorem next_exchange_second {call : Call} {count : UInt32}
    (found : state.calls id = some call) (changed : call.changes ≠ 0)
    (place : call.position = .exchanging count) (moved : state.semaphore.mCounter ≠ count)
    (inside : count ≠ call.direction.limit state.semaphore) :
    Enabled state (.exchange id false) ∧ OneChange state (.exchange id false) ∧
      next state (.exchange id false) = state.set id { call with position := .notifying } := by
  have expected : call.position.count? = some count := by rw [place, Position.count?]
  refine ⟨⟨call, found, ?_⟩, ?_, ?_⟩
  · unfold Ready
    simp only [expected, Option.isSome_some]
  · intro other there
    cases found.symm.trans there
    refine (if_neg changed).mpr (.inr ?_)
    rw [expected]
    exact fun same => moved (Option.some.inj same).symm
  · unfold next
    simp only [found, expected, Option.elim_some]
    rcases state.exchange_cases id inside false with ⟨_, same, _⟩ | ⟨_, done⟩
    · exact absurd same moved
    · exact done

theorem next_load {call : Call} (found : state.calls id = some call)
    (place : call.position = .loading)
    (free : state.semaphore.mCounter ≠ call.direction.limit state.semaphore) :
    Enabled state (.load id) ∧ next state (.load id) =
      state.set id { call with position := .exchanging state.semaphore.mCounter } := by
  refine ⟨⟨call, found, place⟩, ?_⟩
  unfold next
  simp only [found, Option.elim_some]
  exact if_neg free

theorem next_load_blocked {call : Call} (found : state.calls id = some call)
    (place : call.position = .loading)
    (blocked : state.semaphore.mCounter = call.direction.limit state.semaphore) :
    Enabled state (.load id) ∧ next state (.load id) =
      (state.set id { call with position := .waiting }).setWait id
        (.queued state.semaphore.mCounter call.direction.waitMask) := by
  refine ⟨⟨call, found, place⟩, ?_⟩
  unfold next
  simp only [found, Option.elim_some]
  exact if_pos blocked

theorem next_notify {call : Call} (found : state.calls id = some call)
    (place : call.position = .notifying) {woken : List Nat}
    (asleep : ∀ other ∈ woken, (state.waits other).IsAsleep) :
    Enabled state (.notify id woken) ∧ next state (.notify id woken) =
      { state with waits := Futex.wakeEach state.waits woken }.set id
        { call with position := .succeeded } := by
  refine ⟨⟨call, found, place, asleep⟩, ?_⟩
  unfold next
  simp only [found, Option.elim_some]

/-- Steps with the right outcomes lead from one state to the other, and show these successes. -/
def Leads (maxCount initialCount : UInt32) (shown : List (Nat × Direction)) (state last : State) :
    Prop :=
  ∃ actions, ((machine maxCount initialCount).only OneChange).Runs state actions ∧
    ((machine maxCount initialCount).only OneChange).history success state actions = shown ∧
    ((machine maxCount initialCount).only OneChange).after state actions = last

theorem Leads.refl (state : State) : Leads maxCount initialCount [] state state :=
  ⟨[], trivial, rfl, rfl⟩

theorem Leads.cons {middle last : State} {action : Action} {event : Option (Nat × Direction)}
    {later : List (Nat × Direction)} (enabled : Enabled state action)
    (one : OneChange state action) (shows : success state action = event)
    (goes : next state action = middle) (leads : Leads maxCount initialCount later middle last) :
    Leads maxCount initialCount (event.toList ++ later) state last := by
  obtain ⟨actions, runs, shown, ends⟩ := leads
  rw [← goes] at runs shown ends
  refine ⟨action :: actions, ⟨⟨enabled, one⟩, runs⟩, ?_, ends⟩
  rw [Machine.history_cons, shows]
  exact congrArg _ shown

/-- From the load on, the stretch of a call that goes through. -/
theorem leads_through
    (found : state.calls id = some
      { direction := direction
        position := .loading
        changes := 0 })
    (free : state.semaphore.mCounter ≠ direction.limit state.semaphore) {woken : List Nat}
    (asleep : ∀ other ∈ woken, (state.waits other).IsAsleep) :
    Leads maxCount initialCount [(id, direction)] state (state.through id direction woken) := by
  let at_ (position : Position) (changes : Nat) : Call := ⟨direction, position, changes⟩
  let counter := state.semaphore.mCounter
  let stored := state.store (direction.desired counter)
  have moves : stored.semaphore.mCounter ≠ counter := direction.desired_ne counter
  have inside : counter ≠ direction.limit stored.semaphore := by
    rw [Direction.limit_store]
    exact free
  obtain ⟨loads, loaded⟩ := next_load found rfl free
  obtain ⟨first, right, exchanged⟩ := next_exchange_first
    (State.set_same state id (at_ (.exchanging counter) 0)) rfl rfl free
  have stretched : next (state.set id (at_ (.exchanging counter) 0)) (.exchange id false) =
      stored.set id (at_ (.exchanging counter) 1) :=
    exchanged.trans (stored.set_set id _ _)
  obtain ⟨second, right', left⟩ := next_exchange_second
    (State.set_same stored id (at_ (.exchanging counter) 1)) Nat.one_ne_zero rfl moves inside
  have ended : next (stored.set id (at_ (.exchanging counter) 1)) (.exchange id false) =
      stored.set id (at_ .notifying 1) :=
    left.trans (stored.set_set id _ _)
  obtain ⟨notifies, notified⟩ := next_notify
    (State.set_same stored id (at_ .notifying 1)) rfl asleep
  have ends : next (stored.set id (at_ .notifying 1)) (.notify id woken) =
      state.through id direction woken := by
    rw [notified]
    exact ({ stored with waits := Futex.wakeEach state.waits woken }).set_set id _ _
  have succeeds : success (stored.set id (at_ .notifying 1)) (.notify id woken) =
      some (id, direction) := by
    unfold success
    simp only [State.set_same]
    rfl
  exact .cons loads trivial rfl loaded (.cons first right rfl stretched
    (.cons second right' rfl ended (.cons notifies trivial succeeds ends (.refl _))))

/-- The same for a call that has to wait. -/
theorem leads_blocked
    (found : state.calls id = some
      { direction := direction
        position := .loading
        changes := 0 })
    (blocked : state.semaphore.mCounter = direction.limit state.semaphore) :
    Leads maxCount initialCount [] state
      ((state.set id
        { direction := direction
          position := .waiting
          changes := 0 }).setWait id (.queued state.semaphore.mCounter direction.waitMask)) := by
  obtain ⟨loads, loaded⟩ := next_load_blocked found rfl blocked
  exact .cons loads trivial rfl loaded (.refl _)

end Semaphore

namespace TimedOperations

open Semaphore (Direction Leads)

variable {T : Type}

/-! ### What the semaphore sees of the event loop -/

/-- Where a call of the event loop is among the steps of acquire and release. -/
inductive Stands : Option (Operation T) → Option Semaphore.Call → Futex.Wait → Prop where
  | absent : Stands none none .idle
  | elsewhere {operation : Operation T} (queue : Direction.of operation.request = none) :
      Stands (some operation) none .idle
  | queued {operation : Operation T} {direction : Direction} {old : UInt32} {guarded : Bool}
      (of_ : Direction.of operation.request = some direction)
      (phase : operation.phase = .waiting old false guarded) :
      Stands (some operation) (some ⟨direction, .waiting, 0⟩) (.queued old direction.waitMask)
  | asleep {operation : Operation T} {direction : Direction} {old : UInt32} {guarded : Bool}
      (of_ : Direction.of operation.request = some direction)
      (phase : operation.phase = .waiting old true guarded) :
      Stands (some operation) (some ⟨direction, .waiting, 0⟩) (.asleep direction.waitMask)
  | woken {operation : Operation T} {direction : Direction} {old : UInt32} {result : Futex.Result}
      (of_ : Direction.of operation.request = some direction)
      (phase : operation.phase = .posted old .woken) (goesOn : result = .woken ∨ result = .again) :
      Stands (some operation) (some ⟨direction, .waiting, 0⟩) (.returned result)
  | canceled {operation : Operation T} {direction : Direction} {old : UInt32}
      (of_ : Direction.of operation.request = some direction)
      (phase : operation.phase = .posted old .canceled) :
      Stands (some operation) (some ⟨direction, .waiting, 0⟩) (.returned .canceled)
  | succeeded {operation : Operation T} {direction : Direction}
      (of_ : Direction.of operation.request = some direction)
      (phase : operation.phase = .finished) :
      Stands (some operation) (some ⟨direction, .succeeded, 1⟩) .idle
  | failed {operation : Operation T} {direction : Direction}
      (of_ : Direction.of operation.request = some direction)
      (phase : operation.phase = .finished) :
      Stands (some operation) (some ⟨direction, .failed, 0⟩) .idle

/-- The states agree, but for the call that runs. -/
structure Beside (running : Nat → Prop) (state : State T) (seen : Semaphore.State) : Prop where
  semaphore : seen.semaphore = state.store.semaphore
  named : ∀ id, state.operations id ≠ none → id ∈ state.known
  known : ∀ id ∈ seen.known, id ∈ state.known
  stands : ∀ id, ¬running id → Stands (state.operations id) (seen.calls id) (seen.waits id)

/-- Between two stretches no call runs. -/
abbrev Shows : State T → Semaphore.State → Prop :=
  Beside fun _ => False

variable {running : Nat → Prop} {state : State T} {seen : Semaphore.State} {id : Nat}

theorem word_of {request : Request T} {direction : Direction}
    (of_ : Direction.of request = some direction) : request.word = .counter := by
  cases request with
  | pop | push _ => cases of_
  | acquire | release => rfl

theorem of_eq_none_iff {request : Request T} :
    Direction.of request = none ↔ request.word = .ready := by
  cases request with
  | pop | push _ => exact iff_of_true rfl rfl
  | acquire | release => exact ⟨nofun, nofun⟩

/-- The semaphore does not know of a call on the queue. -/
theorem Stands.of_queue {operation : Operation T} {call : Option Semaphore.Call}
    {wait : Futex.Wait} (stands : Stands (some operation) call wait)
    (queue : Direction.of operation.request = none) : call = none ∧ wait = .idle := by
  cases stands with
  | elsewhere _ => exact ⟨rfl, rfl⟩
  | queued of_ _ | asleep of_ _ | woken of_ _ _ | canceled of_ _ | succeeded of_ _ | failed of_ _ =>
      rw [queue] at of_
      cases of_

/-- Who sleeps on the counter sleeps in acquire or release. -/
theorem Stands.of_sleeping {operation : Operation T} {call : Option Semaphore.Call}
    {wait : Futex.Wait} (stands : Stands (some operation) call wait)
    (word : operation.request.word = .counter) (asleep : operation.phase.IsAsleep) :
    wait.IsAsleep ∧ Stands (some operation.wake) call (.returned .woken) := by
  obtain ⟨old, guarded, phase⟩ := asleep.waiting
  have awoken : operation.wake.phase = .posted old .woken := by
    unfold Operation.wake
    simp only [phase]
  have request : operation.wake.request = operation.request := operation.wake_request
  cases stands with
  | elsewhere queue =>
      rw [of_eq_none_iff.1 queue] at word
      cases word
  | asleep of_ _ =>
      rw [← request] at of_
      exact ⟨trivial, .woken of_ awoken (.inl rfl)⟩
  | queued _ other | woken _ other _ | canceled _ other | succeeded _ other | failed _ other =>
      rw [phase] at other
      cases other

/-- Who sleeps on the word of the queue is not in acquire or release, also when it is woken. -/
theorem Stands.of_ready {operation : Operation T} {call : Option Semaphore.Call}
    {wait : Futex.Wait} (stands : Stands (some operation) call wait)
    (word : operation.request.word = .ready) : Stands (some operation.wake) call wait := by
  have queue := of_eq_none_iff.2 word
  obtain ⟨rfl, rfl⟩ := stands.of_queue queue
  rw [← operation.wake_request] at queue
  exact .elsewhere queue

theorem Beside.wake (beside : Beside running state seen) {woken : List Nat}
    {waits : Nat → Futex.Wait}
    (each : ∀ other ∈ woken, ¬running other →
      Stands ((state.wake woken).operations other) (seen.calls other) (waits other))
    (others : ∀ other ∉ woken, waits other = seen.waits other) :
    Beside running (state.wake woken) { seen with waits } := by
  constructor
  case semaphore => exact beside.semaphore
  case named =>
    intro other there
    apply beside.named
    intro none_
    apply there
    change (if other ∈ woken then _ else _) = none
    simp [none_]
  case known => exact beside.known
  case stands =>
    intro other aside
    by_cases member : other ∈ woken
    · exact each other member aside
    · change Stands _ _ (waits other)
      rw [others other member, state.wake_of_not_mem member]
      exact beside.stands other aside

/-- The sleepers that a call on the semaphore wakes. -/
theorem Beside.wakeEach (beside : Beside running state seen) {woken : List Nat}
    (sleeping : ∀ other ∈ woken, state.Sleeping .counter other)
    (others : ∀ other ∈ woken, ¬running other) :
    (∀ other ∈ woken, (seen.waits other).IsAsleep) ∧
      Beside running (state.wake woken)
        { seen with waits := Futex.wakeEach seen.waits woken } := by
  have each : ∀ other ∈ woken, (seen.waits other).IsAsleep ∧
      Stands ((state.wake woken).operations other) (seen.calls other) (.returned .woken) := by
    intro other member
    obtain ⟨operation, found, word, asleep⟩ := sleeping other member
    have stands := beside.stands other (others other member)
    change state.operations other = some operation at found
    rw [found] at stands
    rw [state.wake_of_mem member, found]
    exact stands.of_sleeping word asleep
  refine ⟨fun other member => (each other member).1, ?_⟩
  apply beside.wake
  · intro other member _
    have awake : Futex.wakeEach seen.waits woken other = .returned .woken := if_pos member
    rw [awake]
    exact (each other member).2
  · intro other member
    exact if_neg member

/-- The same for a call on the queue. -/
theorem Beside.wakeReady (beside : Beside running state seen) {woken : List Nat}
    (sleeping : ∀ other ∈ woken, state.Sleeping .ready other) :
    Beside running (state.wake woken) seen := by
  apply beside.wake
  · intro other member aside
    have stands := beside.stands other aside
    obtain ⟨operation, found, word, _⟩ := sleeping other member
    change state.operations other = some operation at found
    rw [found] at stands
    rw [state.wake_of_mem member, found]
    exact stands.of_ready word
  · intro other _
    rfl

/-- The running call comes to a place between two stretches. -/
theorem Beside.settle (beside : Beside (· = id) state seen) (member : id ∈ state.known)
    {moved : Operation T} {call : Option Semaphore.Call} {wait : Futex.Wait}
    (stands : Stands (some moved) call wait) :
    Shows (state.set id moved)
      { seen with
        calls := Function.update seen.calls id call
        waits := Function.update seen.waits id wait } := by
  constructor
  case semaphore => exact beside.semaphore
  case named =>
    intro other there
    by_cases same : other = id
    · rw [same]
      exact member
    · rw [state.set_other same] at there
      exact beside.named other there
  case known => exact beside.known
  case stands =>
    intro other _
    by_cases same : other = id
    · subst same
      simpa using stands
    · rw [state.set_other same]
      simpa [same] using beside.stands other same

/-! ### Stretches of the event loop -/

variable {movedFrom : T → T} {maxCount initialCount : UInt32}

theorem attempt_of {request : Request T} {direction : Direction}
    (of_ : Direction.of request = some direction) (store : Store T) :
    request.attempt movedFrom store = (store.semaphore.attempt direction).map fun semaphore =>
      ({ store with semaphore }, .done) := by
  cases request with
  | pop | push _ => cases of_
  | acquire | release =>
      cases of_
      rfl

/-- What the attempt of a call shows. -/
def shownBy (movedFrom : T → T) (store : Store T) (request : Request T) (id : Nat) :
    Option (Nat × Direction) :=
  if (request.attempt movedFrom store).isSome then
    (Direction.of request).map fun direction => (id, direction)
  else none

/-- acquire and release from the load of the counter on. -/
theorem Beside.attempt (beside : Beside (· = id) state seen) (member : id ∈ state.known)
    {operation : Operation T} {direction : Direction}
    (of_ : Direction.of operation.request = some direction)
    (found : seen.calls id = some ⟨direction, .loading, 0⟩) (idle : seen.waits id = .idle)
    {woken : List Nat} (sleeping : ∀ other ∈ woken, state.Sleeping .counter other)
    (awake : id ∉ woken) :
    ∃ last, Leads maxCount initialCount
        (shownBy movedFrom state.store operation.request id).toList seen last ∧
      Shows (state.attempt movedFrom id operation woken) last := by
  unfold shownBy State.attempt
  rw [attempt_of of_, of_]
  by_cases blocked : seen.semaphore.mCounter = direction.limit seen.semaphore
  · have stuck : state.store.semaphore.mCounter = direction.limit state.store.semaphore := by
      rw [← beside.semaphore]
      exact blocked
    rw [Semaphore.attempt_blocked stuck]
    refine ⟨_, Semaphore.leads_blocked found blocked, ?_⟩
    apply beside.settle member
    have loaded : state.store.load operation.request.word = seen.semaphore.mCounter := by
      rw [word_of of_, beside.semaphore]
      rfl
    simp only [loaded]
    exact .queued of_ rfl
  · have free : state.store.semaphore.mCounter ≠ direction.limit state.store.semaphore := by
      rw [← beside.semaphore]
      exact blocked
    rw [Semaphore.attempt_free free]
    have others : ∀ other ∈ woken, ¬other = id := fun other member same => awake (same ▸ member)
    obtain ⟨asleep, woke⟩ := beside.wakeEach sleeping others
    refine ⟨_, Semaphore.leads_through found blocked asleep, ?_⟩
    have stays : Futex.wakeEach seen.waits woken =
        Function.update (Futex.wakeEach seen.waits woken) id .idle := by
      have here : Futex.wakeEach seen.waits woken id = .idle := by
        rw [← idle]
        exact if_neg awake
      rw [← here, Function.update_eq_self]
    unfold Semaphore.State.through
    rw [stays, beside.semaphore]
    have stored : Beside (· = id)
        ((state.record
          { state.store with
            semaphore :=
              { state.store.semaphore with
                mCounter := direction.desired state.store.semaphore.mCounter } }
          { id := id
            request := operation.request
            reply := .done }).wake woken)
        { seen.store (direction.desired state.store.semaphore.mCounter) with
          waits := Futex.wakeEach seen.waits woken } := by
      refine ⟨?_, woke.named, woke.known, woke.stands⟩
      exact congrArg (fun semaphore : Semaphore =>
        { semaphore with mCounter := direction.desired state.store.semaphore.mCounter })
        beside.semaphore
    exact stored.settle member (.succeeded of_ rfl)

/-! ### The steps -/

theorem Shows.alone (shows : Shows state seen) (id : Nat) : Beside (· = id) state seen :=
  { shows with stands := fun other _ => shows.stands other not_false }

/-- A call on the queue does not touch what the semaphore sees. -/
theorem Shows.elsewhere (shows : Shows state seen) {operation moved : Operation T}
    (found : state.operations id = some operation) (request : moved.request = operation.request)
    (queue : Direction.of operation.request = none) : Shows (state.set id moved) seen := by
  have member : id ∈ state.known := by
    apply shows.named
    rw [found]
    nofun
  have here := shows.stands id not_false
  rw [found] at here
  obtain ⟨noCall, noWait⟩ := here.of_queue queue
  rw [← request] at queue
  have settled := (shows.alone id).settle member (.elsewhere queue)
  rw [← noCall, ← noWait, Function.update_eq_self, Function.update_eq_self] at settled
  exact settled

theorem Shows.attempt_queue (shows : Shows state seen) {operation : Operation T}
    (found : state.operations id = some operation)
    (queue : Direction.of operation.request = none) {woken : List Nat}
    (sleeping : ∀ other ∈ woken, state.Sleeping operation.request.word other)
    (awake : id ∉ woken) : Shows (state.attempt movedFrom id operation woken) seen := by
  have word := of_eq_none_iff.1 queue
  unfold State.attempt
  cases done : operation.request.attempt movedFrom state.store with
  | none => exact shows.elsewhere found rfl queue
  | some result =>
      obtain ⟨store, reply⟩ := result
      have same : store.semaphore = state.store.semaphore := by
        rcases Request.attempt_cases done with ⟨_, _, _, _, _, same⟩ | ⟨_, _, _, _, _, same⟩ |
          ⟨acquires, _⟩ | ⟨releases, _⟩
        · exact same
        · exact same
        · rw [acquires] at queue
          cases queue
        · rw [releases] at queue
          cases queue
      rw [word] at sleeping
      have woke := shows.wakeReady sleeping
      have stored : Shows ((state.record store
          { id := id
            request := operation.request
            reply := reply }).wake woken) seen :=
        { woke with semaphore := woke.semaphore.trans same.symm }
      exact stored.elsewhere ((state.wake_of_not_mem awake).trans found) rfl queue

/-- The acquire or release that does its work in the step. -/
def transferred (movedFrom : T → T) (state : State T) (action : Action T) :
    Option (Nat × Direction) :=
  (work movedFrom state action).bind fun done =>
    (Direction.of done.1).map fun direction => (action.id, direction)

theorem transferred_start (state : State T) (id : Nat) (request : Request T) (timed : Bool)
    (woken : List Nat) :
    transferred movedFrom state (.start id request timed woken) =
      shownBy movedFrom state.store request id := by
  unfold transferred shownBy work
  simp only
  by_cases works : (request.attempt movedFrom state.store).isSome
  · rw [if_pos works, if_pos works]
    rfl
  · rw [if_neg works, if_neg works]
    rfl

theorem transferred_resume {operation : Operation T} (found : state.operations id = some operation)
    (woken : List Nat) :
    transferred movedFrom state (.resume id woken) =
      if Works movedFrom state operation then
        (Direction.of operation.request).map fun direction => (id, direction)
      else none := by
  unfold transferred work
  simp only [found, Option.bind_some]
  by_cases works : Works movedFrom state operation
  · rw [if_pos works, if_pos works]
    rfl
  · rw [if_neg works, if_neg works]
    rfl

theorem shownBy_queue {request : Request T} (queue : Direction.of request = none)
    (store : Store T) (id : Nat) : shownBy movedFrom store request id = none := by
  unfold shownBy
  rw [queue]
  exact ite_self _

theorem Stands.of_absent {call : Option Semaphore.Call} {wait : Futex.Wait}
    (stands : Stands (none : Option (Operation T)) call wait) : call = none ∧ wait = .idle := by
  cases stands
  exact ⟨rfl, rfl⟩

theorem Shows.know (shows : Shows state seen) (id : Nat) :
    Shows { state with known := id :: state.known } seen :=
  { shows with
    named := fun other there => List.mem_cons_of_mem _ (shows.named other there)
    known := fun other member => List.mem_cons_of_mem _ (shows.known other member) }

theorem Shows.start (shows : Shows state seen) {request : Request T} {timed : Bool}
    {woken : List Nat} (enabled : Enabled state (.start id request timed woken)) :
    ∃ last, Leads maxCount initialCount
        (transferred movedFrom state (.start id request timed woken)).toList seen last ∧
      Shows (state.start movedFrom id request timed woken) last := by
  obtain ⟨fresh, sleeping⟩ := enabled
  have unknown : state.operations id = none := by
    by_contra there
    exact fresh (shows.named id there)
  have others : ∀ other ∈ woken, other ≠ id := by
    rintro other member same
    obtain ⟨operation, found, _⟩ := sleeping other member
    rw [same, unknown] at found
    cases found
  have awake : id ∉ woken := fun member => others id member rfl
  let operation : Operation T :=
    { request := request
      timed := timed
      phase := .running
      timedOut := false
      report := none }
  have asleep : ∀ other ∈ woken, (state.enter id operation).Sleeping request.word other := by
    intro other member
    obtain ⟨sleeper, found, rest⟩ := sleeping other member
    exact ⟨sleeper, (State.set_other _ (others other member) operation).trans found, rest⟩
  have here := shows.stands id not_false
  rw [unknown] at here
  obtain ⟨noCall, noWait⟩ := here.of_absent
  rw [transferred_start]
  change ∃ last, _ ∧ Shows ((state.enter id operation).attempt movedFrom id operation woken) last
  cases kind : Direction.of request with
  | none =>
      rw [shownBy_queue kind]
      refine ⟨seen, .refl seen, ?_⟩
      have elsewhere : Stands (some operation) none .idle := .elsewhere kind
      have entered : Shows (state.enter id operation) _ :=
        ((shows.know id).alone id).settle List.mem_cons_self elsewhere
      rw [← noCall, ← noWait, Function.update_eq_self, Function.update_eq_self] at entered
      exact entered.attempt_queue (State.set_same ..) kind asleep awake
  | some direction =>
      let called : Semaphore.State :=
        { seen with known := id :: seen.known }.set id ⟨direction, .loading, 0⟩
      have beside : Beside (· = id) (state.enter id operation) called := by
        constructor
        case semaphore => exact shows.semaphore
        case named =>
          intro other there
          by_cases same : other = id
          · exact same ▸ List.mem_cons_self
          · change (State.set _ id operation).operations other ≠ none at there
            rw [State.set_other _ same] at there
            exact List.mem_cons_of_mem _ (shows.named other there)
        case known =>
          intro other member
          rcases List.mem_cons.1 member with rfl | before
          · exact List.mem_cons_self
          · exact List.mem_cons_of_mem _ (shows.known other before)
        case stands =>
          intro other aside
          change Stands ((State.set _ id operation).operations other) (called.calls other) _
          rw [State.set_other _ aside, Semaphore.State.set_other _ aside]
          exact shows.stands other not_false
      have of_ : Direction.of operation.request = some direction := kind
      rw [word_of kind] at asleep
      obtain ⟨last, leads, shows'⟩ := beside.attempt List.mem_cons_self of_
        (Semaphore.State.set_same ..) noWait asleep awake
      have enabled : Semaphore.Enabled seen (.call id direction) :=
        fun member => fresh (shows.known id member)
      exact ⟨last, .cons enabled trivial rfl rfl leads, shows'⟩

theorem Shows.settle (shows : Shows state seen) {operation moved : Operation T}
    (found : state.operations id = some operation) {call : Option Semaphore.Call}
    {wait : Futex.Wait} (stands : Stands (some moved) call wait) :
    Shows (state.set id moved)
      { seen with
        calls := Function.update seen.calls id call
        waits := Function.update seen.waits id wait } := by
  apply (shows.alone id).settle ?_ stands
  apply shows.named
  rw [found]
  nofun

/-- The kernel is done with the wait of the call. -/
theorem Shows.setWait (shows : Shows state seen) {operation moved : Operation T}
    (found : state.operations id = some operation) {wait : Futex.Wait}
    (stands : Stands (some moved) (seen.calls id) wait) :
    Shows (state.set id moved) (seen.setWait id wait) := by
  have settled := shows.settle found stands
  rw [Function.update_eq_self] at settled
  exact settled

theorem waitMask_ne_zero (direction : Direction) : direction.waitMask ≠ 0 := by
  cases direction <;> decide

theorem Shows.arrive (shows : Shows state seen) {operation : Operation T}
    (found : state.operations id = some operation) {old : UInt32} {guarded : Bool}
    (phase : operation.phase = .waiting old false guarded) :
    ∃ last, Leads maxCount initialCount [] seen last ∧ Shows (state.arrive id operation) last := by
  have here := shows.stands id not_false
  rw [found] at here
  unfold State.arrive
  simp only [phase]
  generalize call? : seen.calls id = call at here
  generalize wait? : seen.waits id = wait at here
  cases here with
  | elsewhere queue =>
      refine ⟨seen, .refl seen, ?_⟩
      split
      · exact shows.elsewhere found rfl queue
      · exact shows.elsewhere found rfl queue
  | @queued _ direction old' guarded' of_ phase' =>
      rw [phase] at phase'
      cases phase'
      have enabled : Semaphore.Enabled seen (.compare id) := by
        refine ⟨_, call?, ?_⟩
        change (seen.waits id).IsQueued
        rw [wait?]
        trivial
      have compared : Semaphore.next seen (.compare id) =
          seen.setWait id (if state.store.semaphore.mCounter = old then .asleep direction.waitMask
            else .returned .again) := by
        change seen.setWait id ((seen.waits id).compare seen.semaphore.mCounter) = _
        rw [wait?, Futex.Wait.compare_queued (waitMask_ne_zero direction), shows.semaphore]
      refine ⟨_, .cons enabled trivial rfl compared (.refl _), ?_⟩
      rw [word_of of_]
      change Shows (if state.store.semaphore.mCounter = old then _ else _) _
      split
      · exact shows.setWait found (call? ▸ .asleep of_ rfl)
      · exact shows.setWait found (call? ▸ .woken of_ rfl (.inr rfl))
  | asleep _ other | woken _ other _ | canceled _ other | succeeded _ other | failed _ other =>
      rw [phase] at other
      cases other

theorem Shows.cancelArrive (shows : Shows state seen) {operation : Operation T}
    (found : state.operations id = some operation) :
    ∃ last, Leads maxCount initialCount [] seen last ∧
      Shows (state.cancelArrive id operation) last := by
  have here := shows.stands id not_false
  rw [found] at here
  unfold State.cancelArrive
  cases phase : operation.phase with
  | running | posted _ _ | finished => exact ⟨seen, .refl seen, shows⟩
  | waiting old arrived guarded =>
      cases guarded with
      | false => exact ⟨seen, .refl seen, shows⟩
      | true =>
          have reaches : ∀ direction, Direction.of operation.request = some direction →
              seen.calls id = some ⟨direction, .waiting, 0⟩ →
              (seen.waits id).IsQueued ∨ (seen.waits id).IsAsleep →
              ∃ last, Leads maxCount initialCount [] seen last ∧
                Shows (state.set id { operation with phase := .posted old .canceled }) last := by
            intro direction of_ call? waits
            have enabled : Semaphore.Enabled seen (.cancel id) := ⟨_, call?, waits⟩
            refine ⟨_, .cons enabled trivial rfl rfl (.refl _), ?_⟩
            exact shows.setWait found (call? ▸ .canceled of_ rfl)
          generalize call? : seen.calls id = call at here reaches
          generalize wait? : seen.waits id = wait at here reaches
          cases here with
          | elsewhere queue => exact ⟨seen, .refl seen, shows.elsewhere found rfl queue⟩
          | @queued _ direction _ _ of_ _ => exact reaches direction of_ rfl (.inl trivial)
          | @asleep _ direction _ _ of_ _ => exact reaches direction of_ rfl (.inr trivial)
          | woken _ other _ | canceled _ other | succeeded _ other | failed _ other =>
              rw [phase] at other
              cases other

theorem Stands.congr {operation moved : Operation T} {call : Option Semaphore.Call}
    {wait : Futex.Wait} (stands : Stands (some operation) call wait)
    (request : moved.request = operation.request) (phase : moved.phase = operation.phase) :
    Stands (some moved) call wait := by
  cases stands with
  | elsewhere queue => exact .elsewhere (request ▸ queue)
  | queued of_ waits => exact .queued (request ▸ of_) (phase.trans waits)
  | asleep of_ waits => exact .asleep (request ▸ of_) (phase.trans waits)
  | woken of_ posted goesOn => exact .woken (request ▸ of_) (phase.trans posted) goesOn
  | canceled of_ posted => exact .canceled (request ▸ of_) (phase.trans posted)
  | succeeded of_ ended => exact .succeeded (request ▸ of_) (phase.trans ended)
  | failed of_ ended => exact .failed (request ▸ of_) (phase.trans ended)

theorem Shows.expire (shows : Shows state seen) {operation : Operation T}
    (found : state.operations id = some operation) :
    Shows (state.set id { operation with timedOut := true }) seen := by
  have here := shows.stands id not_false
  rw [found] at here
  have moved : Stands (some { operation with timedOut := true }) _ _ := here.congr rfl rfl
  have settled := shows.settle found moved
  rw [Function.update_eq_self, Function.update_eq_self] at settled
  exact settled

theorem Shows.canceled (shows : Shows state seen) {operation moved : Operation T}
    (found : state.operations id = some operation) {old : UInt32}
    (phase : operation.phase = .posted old .canceled)
    (request : moved.request = operation.request) (finished : moved.phase = .finished) :
    ∃ last, Leads maxCount initialCount [] seen last ∧ Shows (state.set id moved) last := by
  have here := shows.stands id not_false
  rw [found] at here
  generalize call? : seen.calls id = call at here
  generalize wait? : seen.waits id = wait at here
  cases here with
  | elsewhere queue => exact ⟨seen, .refl seen, shows.elsewhere found request queue⟩
  | @canceled _ direction _ of_ _ =>
      have enabled : Semaphore.Enabled seen (.resume id) := by
        refine ⟨_, call?, rfl, ?_⟩
        rw [wait?]
        trivial
      have resumed : Semaphore.next seen (.resume id) =
          (seen.set id ⟨direction, .failed, 0⟩).setWait id .idle := by
        unfold Semaphore.next Semaphore.State.resume
        simp only [call?, wait?, Option.elim_some]
      refine ⟨_, .cons enabled trivial rfl resumed (.refl _), ?_⟩
      rw [← request] at of_
      exact shows.settle found (.failed of_ finished)
  | queued _ other | asleep _ other | woken _ other _ | succeeded _ other | failed _ other =>
      rw [phase] at other
      cases other

theorem Shows.resume_woken (shows : Shows state seen) {operation : Operation T}
    (found : state.operations id = some operation) {old : UInt32}
    (phase : operation.phase = .posted old .woken) {woken : List Nat}
    (sleeping : ∀ other ∈ woken, state.Sleeping operation.request.word other) :
    ∃ last, Leads maxCount initialCount
        (shownBy movedFrom state.store operation.request id).toList seen last ∧
      Shows (state.attempt movedFrom id operation woken) last := by
  have awake : id ∉ woken := by
    intro member
    obtain ⟨sleeper, there, _, asleep⟩ := sleeping id member
    cases found.symm.trans there
    rw [phase] at asleep
    cases asleep
  have known : id ∈ state.known := by
    apply shows.named
    rw [found]
    nofun
  have here := shows.stands id not_false
  rw [found] at here
  generalize call? : seen.calls id = call at here
  generalize wait? : seen.waits id = wait at here
  cases here with
  | elsewhere queue =>
      rw [shownBy_queue queue]
      exact ⟨seen, .refl seen, shows.attempt_queue found queue sleeping awake⟩
  | @woken _ direction _ result of_ _ kind =>
      have enabled : Semaphore.Enabled seen (.resume id) := by
        refine ⟨_, call?, rfl, ?_⟩
        rw [wait?]
        trivial
      have resumed : Semaphore.next seen (.resume id) =
          (seen.set id ⟨direction, .loading, 0⟩).setWait id .idle := by
        unfold Semaphore.next Semaphore.State.resume
        rcases kind with rfl | rfl
        · simp only [call?, wait?, Option.elim_some]
        · simp only [call?, wait?, Option.elim_some]
      have beside : Beside (· = id) state
          ((seen.set id ⟨direction, .loading, 0⟩).setWait id .idle) := by
        refine ⟨shows.semaphore, shows.named, shows.known, ?_⟩
        intro other aside
        have stands := shows.stands other not_false
        change Stands _ (Function.update seen.calls id _ other)
          (Function.update seen.waits id _ other)
        rw [Function.update_of_ne aside, Function.update_of_ne aside]
        exact stands
      rw [word_of of_] at sleeping
      obtain ⟨last, leads, shows'⟩ := beside.attempt known of_ (Function.update_self ..)
        (Function.update_self ..) sleeping awake
      exact ⟨last, .cons enabled trivial rfl resumed leads, shows'⟩
  | queued _ other | asleep _ other | canceled _ other | succeeded _ other | failed _ other =>
      rw [phase] at other
      cases other

theorem Shows.resume (shows : Shows state seen) {operation : Operation T}
    (found : state.operations id = some operation) {woken : List Nat}
    (ready : Ready state operation (.resume id woken)) :
    ∃ last, Leads maxCount initialCount
        (transferred movedFrom state (.resume id woken)).toList seen last ∧
      Shows (state.resume movedFrom id operation woken) last := by
  rw [transferred_resume found]
  unfold Ready at ready
  simp only at ready
  cases phase : operation.phase with
  | running | waiting _ _ _ | finished =>
      rw [phase] at ready
      cases ready
  | posted old completion =>
      rw [phase] at ready
      unfold State.resume
      simp only [phase]
      cases completion with
      | canceled =>
          have idle : ¬Works movedFrom state operation := by
            unfold Works
            rw [phase]
            exact not_false
          rw [if_neg idle]
          exact shows.canceled found phase rfl rfl
      | woken =>
          have works : Works movedFrom state operation ↔ ¬state.Spurious operation.request old ∧
              (operation.request.attempt movedFrom state.store).isSome := by
            unfold Works
            rw [phase]
          simp only
          by_cases spurious : state.Spurious operation.request old
          · -- Only the condition variable goes back to sleep, so the call is on the queue.
            have queue : Direction.of operation.request = none := by
              cases kind : operation.request with
              | pop | push _ => rfl
              | acquire | release =>
                  rw [kind] at spurious
                  cases spurious.1
            rw [if_neg (fun working => (works.1 working).1 spurious), if_pos spurious]
            exact ⟨seen, .refl seen, shows.elsewhere found rfl queue⟩
          · have same : (if Works movedFrom state operation then
                (Direction.of operation.request).map fun direction => (id, direction)
              else none) = shownBy movedFrom state.store operation.request id := by
              unfold shownBy
              simp only [works, spurious, not_false_eq_true, true_and]
            rw [same, if_neg spurious]
            exact shows.resume_woken found phase ready

theorem Shows.step (shows : Shows state seen) {action : Action T} (enabled : Enabled state action) :
    ∃ last, Leads maxCount initialCount (transferred movedFrom state action).toList seen last ∧
      Shows (next movedFrom state action) last := by
  cases action with
  | start id request timed woken => exact shows.start enabled
  | resume id woken =>
      obtain ⟨operation, found, ready⟩ := found_of_enabled enabled (by simp)
      change state.operations id = _ at found
      simp only [next, found, Option.elim_some]
      exact shows.resume found ready
  | arrive id =>
      obtain ⟨operation, found, ready⟩ := found_of_enabled enabled (by simp)
      change state.operations id = _ at found
      simp only [next, found, Option.elim_some]
      unfold Ready at ready
      simp only at ready
      split at ready
      · rename_i old guarded phase
        exact shows.arrive found phase
      · cases ready
  | expire id =>
      obtain ⟨operation, found, _⟩ := found_of_enabled enabled (by simp)
      change state.operations id = _ at found
      simp only [next, found, Option.elim_some]
      exact ⟨seen, .refl seen, shows.expire found⟩
  | cancelArrive id =>
      obtain ⟨operation, found, _⟩ := found_of_enabled enabled (by simp)
      change state.operations id = _ at found
      simp only [next, found, Option.elim_some]
      exact shows.cancelArrive found

/-! ### Runs -/

theorem Shows.initial [Inhabited T] (maxSize : Nat) (initialCount maxCount : UInt32) :
    Shows (State.initial maxSize initialCount maxCount : State T)
      (.initial maxCount initialCount) :=
  { semaphore := rfl
    named := fun _ there => absurd rfl there
    known := fun _ member => member
    stands := fun _ _ => .absent }

/-- On one event loop acquire and release go through the atomic steps of a semaphore whose
exchanges all have the right outcome, with the same calls coming through in the same order. -/
theorem loops_take_atomic_steps [Inhabited T] (movedFrom : T → T) (maxSize : Nat)
    (initialCount maxCount : UInt32) (actions : List (Action T))
    (runs : (machine movedFrom maxSize initialCount maxCount).Runs
      (.initial maxSize initialCount maxCount) actions) :
    ∃ steps, (Semaphore.machine maxCount initialCount).Runs (.initial maxCount initialCount) steps ∧
      (Semaphore.machine maxCount initialCount).Along Semaphore.OneChange
        (.initial maxCount initialCount) steps ∧
      (Semaphore.machine maxCount initialCount).history Semaphore.success
          (.initial maxCount initialCount) steps =
        (machine movedFrom maxSize initialCount maxCount).history (transferred movedFrom)
          (.initial maxSize initialCount maxCount) actions ∧
      ((Semaphore.machine maxCount initialCount).after (.initial maxCount initialCount)
          steps).semaphore =
        ((machine movedFrom maxSize initialCount maxCount).after
          (.initial maxSize initialCount maxCount) actions).store.semaphore := by
  have answers : ∀ (state : State T) seen action, Shows state seen → Enabled state action →
      Machine.Answers ((Semaphore.machine maxCount initialCount).only Semaphore.OneChange)
        Semaphore.success (Shows (next movedFrom state action)) seen
        (transferred movedFrom state action) := by
    intro state seen action shows enabled
    obtain ⟨last, ⟨steps, goes, shown, ends⟩, shows'⟩ := shows.step enabled
    exact ⟨steps, goes, shown, ends ▸ shows'⟩
  obtain ⟨steps, goes, shown, shows⟩ :=
    Machine.exists_answer answers (Shows.initial maxSize initialCount maxCount) runs
  obtain ⟨goes, one⟩ := Machine.runs_only.1 goes
  rw [Machine.history_only] at shown
  exact ⟨steps, goes, one, shown, shows.semaphore⟩

/-- An acquire sleeps, a release wakes it and it takes the permit. -/
def handover : List (Action Nat) :=
  [.start 0 .acquire false [], .arrive 0, .start 1 .release false [0], .resume 0 []]

theorem loops_take_atomic_steps_handover :
    ∃ steps, (Semaphore.machine 1 0).Runs (.initial 1 0) steps ∧
      (Semaphore.machine 1 0).Along Semaphore.OneChange (.initial 1 0) steps ∧
      (Semaphore.machine 1 0).history Semaphore.success (.initial 1 0) steps =
        [(1, .release), (0, .acquire)] ∧
      ((Semaphore.machine 1 0).after (.initial 1 0) steps).semaphore.mCounter = 0 := by
  obtain ⟨steps, goes, one, shown, same⟩ :=
    loops_take_atomic_steps id 1 0 1 handover (by decide)
  refine ⟨steps, goes, one, ?_, ?_⟩
  · rw [shown]
    decide
  · rw [same]
    decide

end TimedOperations

end MCoro
