/-
Who sleeps at a semaphore that has room for it.

Woken waiters that have not been resumed are counted against the permits that are
free for them: while an acquire sleeps there are at least as many woken acquires as
permits, and while a release sleeps at least as many woken releases as missing ones.
acquire asks futex_notify to wake one release, and the kernel is asked for two sleepers
that wait with the mask of acquire; `Noticed` asks that no release needed the wake.
-/

import MCoro.Generic.TimedOperationRuns
import MCoro.Library.Population
import MCoro.Platform.FutexNotify

namespace MCoro

namespace Semaphore.Direction

variable {T : Type}

def of : Request T → Option Direction
  | .acquire => some acquire
  | .release => some release
  | .pop | .push _ => none

/-- The sleepers a call means to wake when it has done its work. -/
def served : Request T → Option Direction
  | .acquire => some release
  | .release => some acquire
  | .pop | .push _ => none

/-- How many calls of that direction could go through. -/
def room (semaphore : Semaphore) : Direction → Nat
  | acquire => semaphore.mCounter.toNat
  | release => semaphore.mMaxCount.toNat - semaphore.mCounter.toNat

theorem blocked_of_attempt {movedFrom : T → T} {store : Store T} {request : Request T}
    (blocked : request.attempt movedFrom store = none) {side : Direction}
    (of_ : of request = some side) :
    store.semaphore.mCounter = side.limit store.semaphore := by
  have stuck : store.semaphore.attempt side = none := by
    cases request with
    | pop | push _ => cases of_
    | acquire | release =>
        cases of_
        exact Option.map_eq_none_iff.1 blocked
  by_contra free
  rw [attempt_free free] at stuck
  cases stuck

theorem room_of_limit {semaphore : Semaphore} {side : Direction}
    (blocked : semaphore.mCounter = side.limit semaphore) : side.room semaphore = 0 := by
  cases side with
  | acquire => exact congrArg UInt32.toNat blocked
  | release =>
      change semaphore.mMaxCount.toNat - semaphore.mCounter.toNat = 0
      rw [blocked]
      exact Nat.sub_self _

theorem of_ne_served {request : Request T} {side : Direction}
    (served_ : served request = some side) : of request ≠ some side := by
  intro of_
  cases request with
  | pop | push _ => cases served_
  | acquire =>
      cases of_
      cases served_
  | release =>
      cases of_
      cases served_

/-- The work of a call takes one place of its own direction and may make one in the
other, whose sleepers it means to wake. -/
theorem attempt_room {movedFrom : T → T} {store next : Store T} {request : Request T}
    {reply : Returned T} (done : request.attempt movedFrom store = some (next, reply))
    (bounded : store.semaphore.mCounter ≤ store.semaphore.mMaxCount) :
    next.semaphore.mCounter ≤ next.semaphore.mMaxCount ∧
      next.semaphore.mMaxCount = store.semaphore.mMaxCount ∧
      ∀ side : Direction,
        (of request = some side → side.room next.semaphore + 1 = side.room store.semaphore) ∧
        (served request = some side →
          side.room next.semaphore ≤ side.room store.semaphore + 1) ∧
        (served request ≠ some side → side.room next.semaphore ≤ side.room store.semaphore) := by
  rcases Request.attempt_cases done with ⟨value, rfl, _, _, _, same⟩ |
    ⟨value, rfl, _, _, _, same⟩ | ⟨rfl, positive, _, _, same⟩ | ⟨rfl, below, _, _, same⟩
  · rw [same]
    refine ⟨bounded, rfl, ?_⟩
    intro side
    exact ⟨nofun, nofun, fun _ => Nat.le_refl _⟩
  · rw [same]
    refine ⟨bounded, rfl, ?_⟩
    intro side
    exact ⟨nofun, nofun, fun _ => Nat.le_refl _⟩
  · have less := toNat_sub_one positive
    rw [UInt32.le_iff_toNat_le] at bounded
    rw [same]
    refine ⟨?_, rfl, ?_⟩
    · rw [UInt32.le_iff_toNat_le]
      change (store.semaphore.mCounter - 1).toNat ≤ store.semaphore.mMaxCount.toNat
      omega
    · intro side
      cases side with
      | acquire =>
          change (_ → (store.semaphore.mCounter - 1).toNat + 1 = store.semaphore.mCounter.toNat) ∧
            (_ → (store.semaphore.mCounter - 1).toNat ≤ store.semaphore.mCounter.toNat + 1) ∧
            (_ → (store.semaphore.mCounter - 1).toNat ≤ store.semaphore.mCounter.toNat)
          omega
      | release =>
          change (_ → store.semaphore.mMaxCount.toNat - (store.semaphore.mCounter - 1).toNat + 1 =
              _) ∧
            (_ → store.semaphore.mMaxCount.toNat - (store.semaphore.mCounter - 1).toNat ≤
              store.semaphore.mMaxCount.toNat - store.semaphore.mCounter.toNat + 1) ∧ (_ → _)
          refine ⟨nofun, ?_, ?_⟩
          · omega
          · intro other
            exact absurd rfl other
  · rcases toNat_add_one bounded below with ⟨bound, more⟩
    rw [UInt32.le_iff_toNat_le] at bounded
    rw [same]
    refine ⟨bound, rfl, ?_⟩
    intro side
    cases side with
    | acquire =>
        change (_ → (store.semaphore.mCounter + 1).toNat + 1 = _) ∧
          (_ → (store.semaphore.mCounter + 1).toNat ≤ store.semaphore.mCounter.toNat + 1) ∧
          (_ → _)
        refine ⟨nofun, ?_, ?_⟩
        · omega
        · intro other
          exact absurd rfl other
    | release =>
        have different : store.semaphore.mCounter.toNat ≠ store.semaphore.mMaxCount.toNat := by
          intro equal
          exact below (UInt32.toNat_inj.1 equal)
        change (_ → store.semaphore.mMaxCount.toNat - (store.semaphore.mCounter + 1).toNat + 1 =
            store.semaphore.mMaxCount.toNat - store.semaphore.mCounter.toNat) ∧
          (_ → store.semaphore.mMaxCount.toNat - (store.semaphore.mCounter + 1).toNat ≤ _) ∧
          (_ → store.semaphore.mMaxCount.toNat - (store.semaphore.mCounter + 1).toNat ≤
            store.semaphore.mMaxCount.toNat - store.semaphore.mCounter.toNat)
        refine ⟨?_, nofun, ?_⟩
        · omega
        · omega

end Semaphore.Direction

namespace TimedOperations

open Semaphore (Direction)

variable {T : Type}

/-- 1 for a woken waiter of that direction, which is still to be resumed. -/
def pending (side : Direction) : Option (Operation T) → Nat
  | some operation =>
      match operation.phase with
      | .posted _ .woken => if Direction.of operation.request = some side then 1 else 0
      | _ => 0
  | none => 0

/-- A call of that direction is asleep in the kernel. -/
def Asleep (state : State T) (side : Direction) (id : Nat) : Prop :=
  ∃ operation ∈ state.operations id,
    Direction.of operation.request = some side ∧ operation.phase.IsAsleep

instance (state : State T) (side : Direction) (id : Nat) : Decidable (Asleep state side id) :=
  inferInstanceAs (Decidable (∃ operation ∈ state.operations id,
    Direction.of operation.request = some side ∧ operation.phase.IsAsleep))

def State.woken (state : State T) (side : Direction) : Nat :=
  Population.total (pending side) state.known state.operations

/-! ### Whom the calls notify -/

/-- A call that sleeps on the word with a mask that meets this one. -/
def State.Meets (state : State T) (word : FutexWord) (mask : UInt32) (id : Nat) : Prop :=
  id ∈ state.known ∧ ∃ operation ∈ state.operations id, operation.request.word = word ∧
    operation.phase.IsAsleep ∧ operation.request.waitMask &&& mask ≠ 0

instance (state : State T) (word : FutexWord) (mask : UInt32) (id : Nat) :
    Decidable (state.Meets word mask id) :=
  inferInstanceAs (Decidable (id ∈ state.known ∧ ∃ operation ∈ state.operations id,
    operation.request.word = word ∧ operation.phase.IsAsleep ∧
      operation.request.waitMask &&& mask ≠ 0))

/-- Whom `futex_notify(&word, 1, mask)` wakes; `available` says whether the kernel has
futex_wake. -/
def State.Notified (state : State T) (available : Bool) (request : Request T)
    (woken : List Nat) : Prop :=
  FutexNotify.Notified available (state.Meets request.word) 1 request.notifyMask woken

instance (state : State T) (available : Bool) (request : Request T) (woken : List Nat) :
    Decidable (state.Notified available request woken) :=
  have : Decidable (Futex.WakesUpTo (state.Meets request.word (UInt64.toUInt32 1))
      (FutexNotify.atMost request.notifyMask.toInt32) woken) :=
    Futex.WakesUpTo.decidable (fun _ meets => meets.1) _ woken
  inferInstanceAs (Decidable
    (FutexNotify.Notified available (state.Meets request.word) 1 request.notifyMask woken))

variable (movedFrom : T → T)

/-- The call that does its work in the step, and whom it wakes. -/
def work (state : State T) : Action T → Option (Request T × List Nat)
  | .start _ request _ woken =>
      if (request.attempt movedFrom state.store).isSome then some (request, woken) else none
  | .resume id woken => (state.operations id).bind fun operation =>
      if Works movedFrom state operation then some (operation.request, woken) else none
  | .arrive _ | .expire _ | .cancelArrive _ => none

/-- Every call that has done its work wakes whom futex_notify wakes. -/
def Notifies (available : Bool) (state : State T) (action : Action T) : Prop :=
  ∀ done ∈ work movedFrom state action, state.Notified available done.1 done.2

instance (available : Bool) (state : State T) (action : Action T) :
    Decidable (Notifies movedFrom available state action) :=
  inferInstanceAs (Decidable (∀ done ∈ work movedFrom state action,
    state.Notified available done.1 done.2))

/-- The wake for that direction arrives, or it is not needed: nobody sleeps in the direction,
or enough are woken already. -/
def State.Heard (state : State T) (available : Bool) (side : Direction) : Prop :=
  (available = true ∧ side = .acquire) ∨ (∀ id ∈ state.known, ¬Asleep state side id) ∨
    side.room state.store.semaphore < state.woken side

instance (state : State T) (available : Bool) (side : Direction) :
    Decidable (state.Heard available side) :=
  inferInstanceAs (Decidable ((available = true ∧ side = .acquire) ∨ (_ ∨ _)))

/-- Whoever does its work does so where the others notice. -/
def Noticed (available : Bool) (state : State T) (action : Action T) : Prop :=
  ∀ done ∈ work movedFrom state action, ∀ side ∈ Direction.served done.1,
    state.Heard available side

instance (available : Bool) (state : State T) (action : Action T) :
    Decidable (Noticed movedFrom available state action) :=
  inferInstanceAs (Decidable (∀ done ∈ work movedFrom state action,
    ∀ side ∈ Direction.served done.1, state.Heard available side))

variable {movedFrom : T → T}

/-! ### Woken waiters -/

theorem pending_le_one (side : Direction) (operation : Option (Operation T)) :
    pending side operation ≤ 1 := by
  unfold pending
  split
  · split
    · split <;> omega
    · omega
  · omega

theorem pending_eq_zero {side : Direction} {operation : Operation T}
    (other : Direction.of operation.request ≠ some side) : pending side (some operation) = 0 := by
  unfold pending
  simp only
  split
  · exact if_neg other
  · rfl

theorem pending_of_not_woken (side : Direction) {operation : Operation T}
    (other : ∀ old, operation.phase ≠ .posted old .woken) : pending side (some operation) = 0 := by
  cases phase : operation.phase with
  | posted old completion =>
      cases completion with
      | woken => exact absurd phase (other old)
      | canceled =>
          unfold pending
          simp only [phase]
  | running | waiting _ _ _ | finished =>
      unfold pending
      simp only [phase]

theorem Phase.IsAsleep.waiting {phase : Phase} (asleep : phase.IsAsleep) :
    ∃ old guarded, phase = .waiting old true guarded := by
  cases phase with
  | waiting old arrived guarded =>
      cases arrived with
      | true => exact ⟨old, guarded, rfl⟩
      | false => cases asleep
  | running | posted _ _ | finished => cases asleep

theorem Operation.wake_awake {operation : Operation T}
    (awake : ∀ old arrived guarded, operation.phase ≠ .waiting old arrived guarded) :
    operation.wake = operation := by
  unfold wake
  split
  · rename_i old arrived guarded waiting
    exact absurd waiting (awake old arrived guarded)
  all_goals rfl

theorem Operation.wake_not_waiting (operation : Operation T) (old : UInt32)
    (arrived guarded : Bool) : operation.wake.phase ≠ .waiting old arrived guarded := by
  unfold wake
  cases phase : operation.phase with
  | waiting _ _ _ => nofun
  | running | posted _ _ | finished =>
      simp only [phase]
      nofun

theorem Operation.pending_wake {side : Direction} {operation : Operation T}
    (of_ : Direction.of operation.request = some side) (asleep : operation.phase.IsAsleep) :
    pending side (some operation) = 0 ∧ pending side (some operation.wake) = 1 := by
  obtain ⟨old, guarded, waiting⟩ := asleep.waiting
  constructor
  · unfold pending
    simp only [waiting]
  · unfold pending wake
    simp only [waiting]
    exact if_pos of_

theorem Operation.pending_le_wake (side : Direction) (operation : Operation T) :
    pending side (some operation) ≤ pending side (some operation.wake) := by
  by_cases awake : ∀ old arrived guarded, operation.phase ≠ .waiting old arrived guarded
  · rw [wake_awake awake]
  · simp only [not_forall, ne_eq, not_not] at awake
    obtain ⟨old, arrived, guarded, waiting⟩ := awake
    rw [pending_of_not_woken side]
    · exact Nat.zero_le _
    · intro other posted
      rw [waiting] at posted
      cases posted

theorem State.wake_of_mem (state : State T) {woken : List Nat} {id : Nat} (member : id ∈ woken) :
    (state.wake woken).operations id = (state.operations id).map Operation.wake :=
  if_pos member

theorem State.wake_of_not_mem (state : State T) {woken : List Nat} {id : Nat}
    (other : id ∉ woken) : (state.wake woken).operations id = state.operations id :=
  if_neg other

theorem State.wake_cases {state : State T} {woken : List Nat} {id : Nat} {probe : Operation T}
    (found : (state.wake woken).operations id = some probe) :
    state.operations id = some probe ∨
      ∃ sleeper, state.operations id = some sleeper ∧ probe = sleeper.wake := by
  by_cases member : id ∈ woken
  · rw [state.wake_of_mem member] at found
    obtain ⟨sleeper, before, rfl⟩ := Option.map_eq_some_iff.1 found
    exact .inr ⟨sleeper, before, rfl⟩
  · rw [state.wake_of_not_mem member] at found
    exact .inl found

theorem State.wake_awake {state : State T} (woken : List Nat) {id : Nat}
    {operation : Operation T} (found : state.operations id = some operation)
    (awake : ∀ old arrived guarded, operation.phase ≠ .waiting old arrived guarded) :
    (state.wake woken).operations id = some operation := by
  by_cases member : id ∈ woken
  · rw [state.wake_of_mem member, found, Option.map_some, Operation.wake_awake awake]
  · rw [state.wake_of_not_mem member, found]

theorem Asleep.of_wake {state : State T} {woken : List Nat} {side : Direction} {id : Nat}
    (asleep : Asleep (state.wake woken) side id) : Asleep state side id := by
  obtain ⟨operation, found, of_, sleeps⟩ := asleep
  rcases State.wake_cases found with before | ⟨sleeper, _, rfl⟩
  · exact ⟨operation, before, of_, sleeps⟩
  · obtain ⟨old, guarded, waiting⟩ := sleeps.waiting
    exact absurd waiting (sleeper.wake_not_waiting old true guarded)

theorem State.pending_le_wake (state : State T) (woken : List Nat) (side : Direction) (id : Nat) :
    pending side (state.operations id) ≤ pending side ((state.wake woken).operations id) := by
  by_cases member : id ∈ woken
  · rw [state.wake_of_mem member]
    cases found : state.operations id with
    | none => exact Nat.zero_le _
    | some operation => exact operation.pending_le_wake side
  · rw [state.wake_of_not_mem member]

theorem State.woken_le_wake (state : State T) (woken : List Nat) (side : Direction) :
    state.woken side ≤ (state.wake woken).woken side :=
  Population.total_le fun id _ => state.pending_le_wake woken side id

theorem State.woken_lt_wake {state : State T} {woken : List Nat} {side : Direction} {id : Nat}
    (known : id ∈ state.known) (asleep : Asleep state side id) (member : id ∈ woken) :
    state.woken side < (state.wake woken).woken side := by
  obtain ⟨operation, found, of_, sleeps⟩ := asleep
  obtain ⟨before, after⟩ := Operation.pending_wake of_ sleeps
  change state.operations id = some operation at found
  apply Population.total_lt (fun other _ => state.pending_le_wake woken side other) known
  rw [state.wake_of_mem member, found, Option.map_some, before, after]
  exact Nat.one_pos

/-- futex_wake is asked for a sleeper that waits with the mask of acquire, and finds one. -/
theorem State.Notified.acquire_woken {state : State T} {woken : List Nat}
    (notified : state.Notified true .release woken) {id : Nat} (known : id ∈ state.known)
    (asleep : Asleep state .acquire id) :
    ∃ other ∈ woken, other ∈ state.known ∧ Asleep state .acquire other := by
  have meets : ∀ other, state.Meets .counter 1 other →
      other ∈ state.known ∧ Asleep state .acquire other := by
    rintro other ⟨known, operation, found, word, sleeps, mask⟩
    refine ⟨known, operation, found, ?_, sleeps⟩
    cases request : operation.request with
    | pop | push _ =>
        rw [request] at word
        cases word
    | acquire => rfl
    | release =>
        rw [request] at mask
        exact absurd (by decide : Semaphore.kReleaseMask &&& 1 = 0) mask
  have wakes : Futex.WakesUpTo (state.Meets .counter 1) 1 woken := by
    have called : true = true ∧ (1 : UInt64) ≠ 0 ∧ (1 : UInt64).toNat < 2 ^ 32 ∧
        (Request.release : Request T).notifyMask ≠ 0 := by
      refine ⟨rfl, by decide, by decide, ?_⟩
      exact (by decide : Semaphore.kAcquireMask ≠ 0)
    have reached := notified
    unfold Notified FutexNotify.Notified at reached
    rw [if_pos called] at reached
    exact reached
  cases woken with
  | nil =>
      obtain ⟨operation, found, of_, sleeps⟩ := asleep
      have here : state.Meets .counter 1 id := by
        cases request : operation.request with
        | pop | push _ | release =>
            rw [request] at of_
            cases of_
        | acquire =>
            refine ⟨known, operation, found, ?_, sleeps, ?_⟩
            · rw [request]
              rfl
            · rw [request]
              exact (by decide : Semaphore.kAcquireMask &&& 1 ≠ 0)
      cases wakes.all Nat.one_pos id here
  | cons other rest =>
      have member : other ∈ other :: rest := List.mem_cons_self
      exact ⟨other, member, meets other (wakes.meets other member)⟩

/-! ### The invariant -/

structure Provides (state : State T) : Prop where
  known : ∀ id operation, state.operations id = some operation → id ∈ state.known
  distinct : state.known.Nodup
  bounded : state.store.semaphore.mCounter ≤ state.store.semaphore.mMaxCount
  /-- Only a counter at which the call blocks is ever waited for. -/
  loaded : ∀ id operation old arrived guarded side, state.operations id = some operation →
    operation.phase = .waiting old arrived guarded →
    Direction.of operation.request = some side → old = side.limit state.store.semaphore
  enough : ∀ side id, Asleep state side id →
    side.room state.store.semaphore ≤ state.woken side

theorem Provides.initial [Inhabited T] (maxSize : Nat) {initialCount maxCount : UInt32}
    (within : initialCount ≤ maxCount) :
    Provides (State.initial maxSize initialCount maxCount : State T) :=
  { known := by
      intro id operation found
      cases found
    distinct := List.nodup_nil
    bounded := within
    loaded := by
      intro id operation old arrived guarded side found
      cases found
    enough := by
      rintro side id ⟨operation, found, _⟩
      cases found }

theorem Provides.woken_set {state : State T} (provides : Provides state) {id : Nat}
    {operation moved : Operation T} (found : state.operations id = some operation)
    (side : Direction) :
    (state.set id moved).woken side + pending side (some operation) =
      state.woken side + pending side (some moved) := by
  have total := Population.total_update (pending side) state.operations provides.distinct
    (provides.known id operation found) (some moved)
  rw [found] at total
  exact total

theorem Provides.set {state : State T} (provides : Provides state) {id : Nat}
    {operation moved : Operation T} (found : state.operations id = some operation)
    (loaded : ∀ old arrived guarded side, moved.phase = .waiting old arrived guarded →
      Direction.of moved.request = some side → old = side.limit state.store.semaphore)
    (sleeps : ∀ side, Asleep (state.set id moved) side id →
      Asleep state side id ∨ side.room state.store.semaphore = 0)
    (counted : ∀ side : Direction, pending side (some operation) ≤ pending side (some moved) ∨
      side.room state.store.semaphore = 0) : Provides (state.set id moved) := by
  constructor
  case known =>
    intro other probe at_
    rcases State.set_cases at_ with ⟨rfl, rfl⟩ | ⟨_, before⟩
    · exact provides.known other operation found
    · exact provides.known other probe before
  case distinct => exact provides.distinct
  case bounded => exact provides.bounded
  case loaded =>
    intro other probe old arrived guarded side at_ phase of_
    rcases State.set_cases at_ with ⟨rfl, rfl⟩ | ⟨_, before⟩
    · exact loaded old arrived guarded side phase of_
    · exact provides.loaded other probe old arrived guarded side before phase of_
  case enough =>
    intro side other asleep
    have total : (state.set id moved).woken side + _ = _ := provides.woken_set found side
    change side.room state.store.semaphore ≤ _
    have before : Asleep state side other ∨ side.room state.store.semaphore = 0 := by
      by_cases same : other = id
      · rw [same] at asleep ⊢
        exact sleeps side asleep
      · obtain ⟨probe, at_, rest⟩ := asleep
        change (state.set id moved).operations other = some probe at at_
        rw [State.set_other state same] at at_
        exact .inl ⟨probe, at_, rest⟩
    rcases before with asleep | nothing
    · have enough := provides.enough side other asleep
      rcases counted side with more | nothing
      · omega
      · omega
    · omega

theorem Asleep.set_same {state : State T} {id : Nat} {moved : Operation T} {side : Direction}
    (asleep : Asleep (state.set id moved) side id) :
    Direction.of moved.request = some side ∧ moved.phase.IsAsleep := by
  obtain ⟨probe, at_, rest⟩ := asleep
  change (state.set id moved).operations id = some probe at at_
  rw [State.set_same] at at_
  cases at_
  exact rest

theorem Provides.set_awake {state : State T} (provides : Provides state) {id : Nat}
    {operation moved : Operation T} (found : state.operations id = some operation)
    (awake : ∀ old arrived guarded, moved.phase ≠ .waiting old arrived guarded)
    (notWoken : ∀ old, operation.phase ≠ .posted old .woken) : Provides (state.set id moved) := by
  apply provides.set found
  · intro old arrived guarded side waiting
    exact absurd waiting (awake old arrived guarded)
  · intro side asleep
    obtain ⟨old, guarded, waiting⟩ := asleep.set_same.2.waiting
    exact absurd waiting (awake old true guarded)
  · intro side
    rw [pending_of_not_woken side notWoken]
    exact .inl (Nat.zero_le _)

/-! ### Calls that try their work -/

theorem Provides.wake {state : State T} (provides : Provides state) (woken : List Nat) :
    Provides (state.wake woken) := by
  constructor
  case known =>
    intro id probe found
    rcases State.wake_cases found with before | ⟨sleeper, before, _⟩
    · exact provides.known id probe before
    · exact provides.known id sleeper before
  case distinct => exact provides.distinct
  case bounded => exact provides.bounded
  case loaded =>
    intro id probe old arrived guarded side found phase of_
    rcases State.wake_cases found with before | ⟨sleeper, _, rfl⟩
    · exact provides.loaded id probe old arrived guarded side before phase of_
    · exact absurd phase (sleeper.wake_not_waiting old arrived guarded)
  case enough =>
    intro side id asleep
    exact (provides.enough side id asleep.of_wake).trans (state.woken_le_wake woken side)

/-- While one still sleeps, there is a woken waiter for the room that the work makes. -/
theorem Provides.room_served {state : State T} (provides : Provides state) {available : Bool}
    {request : Request T} {woken : List Nat} (notified : state.Notified available request woken)
    {side : Direction} (serves : Direction.served request = some side)
    (heard : state.Heard available side) {other : Nat} (asleep : Asleep state side other) :
    side.room state.store.semaphore < (state.wake woken).woken side := by
  have enough := provides.enough side other asleep
  have known : other ∈ state.known := by
    obtain ⟨operation, found, _⟩ := asleep
    exact provides.known other operation found
  rcases heard with ⟨rfl, rfl⟩ | nobody | spare
  · have release : request = .release := by
      cases request with
      | pop | push _ | acquire => cases serves
      | release => rfl
    rw [release] at notified
    obtain ⟨chosen, member, known, sleeps⟩ := notified.acquire_woken known asleep
    exact Nat.lt_of_le_of_lt enough (State.woken_lt_wake known sleeps member)
  · exact absurd asleep (nobody other known)
  · exact Nat.lt_of_lt_of_le spare (state.woken_le_wake woken side)

/-- While one sleeps, the work of a call takes from its own room what it gives up of the
woken waiters. -/
theorem Provides.room_le {state : State T} (provides : Provides state) {operation : Operation T}
    {next : Store T} {reply : Returned T}
    (done : operation.request.attempt movedFrom state.store = some (next, reply))
    {available : Bool} {woken : List Nat}
    (notified : state.Notified available operation.request woken)
    (heard : ∀ side ∈ Direction.served operation.request, state.Heard available side)
    {side : Direction} {other : Nat} (asleep : Asleep state side other) :
    side.room next.semaphore + pending side (some operation) ≤ (state.wake woken).woken side := by
  rcases Direction.attempt_room done provides.bounded with ⟨_, _, rooms⟩
  rcases rooms side with ⟨own, opposite, neither⟩
  have enough := provides.enough side other asleep
  have more := state.woken_le_wake woken side
  by_cases serves : Direction.served operation.request = some side
  · have foreign := pending_eq_zero (Direction.of_ne_served serves)
    have up := opposite serves
    have reached := provides.room_served notified serves (heard side serves) asleep
    omega
  · have down := neither serves
    by_cases same : Direction.of operation.request = some side
    · have less := own same
      have most := pending_le_one side (some operation)
      omega
    · have foreign := pending_eq_zero same
      omega

theorem Provides.finish {state : State T} (provides : Provides state) {id : Nat}
    {operation moved : Operation T} (found : state.operations id = some operation)
    (awake : ∀ old arrived guarded, operation.phase ≠ .waiting old arrived guarded)
    {next : Store T} {reply : Returned T}
    (done : operation.request.attempt movedFrom state.store = some (next, reply))
    {available : Bool} {woken : List Nat}
    (notified : state.Notified available operation.request woken)
    (heard : ∀ side ∈ Direction.served operation.request, state.Heard available side)
    (finished : moved.phase = .finished) (transfer : Transfer T) :
    Provides (((state.record next transfer).wake woken).set id moved) := by
  rcases Direction.attempt_room done provides.bounded with ⟨bounded, maximum, _⟩
  have kept := State.wake_awake woken found awake
  have woke := provides.wake woken
  constructor
  case known =>
    intro other probe at_
    rcases State.set_cases at_ with ⟨rfl, rfl⟩ | ⟨_, before⟩
    · exact woke.known other operation kept
    · exact woke.known other probe before
  case distinct => exact provides.distinct
  case bounded => exact bounded
  case loaded =>
    intro other probe old arrived guarded side at_ phase of_
    rcases State.set_cases at_ with ⟨rfl, rfl⟩ | ⟨_, before⟩
    · rw [finished] at phase
      cases phase
    · have limit : side.limit next.semaphore = side.limit state.store.semaphore := by
        cases side with
        | acquire => rfl
        | release => exact maximum
      change old = side.limit next.semaphore
      rw [limit]
      exact woke.loaded other probe old arrived guarded side before phase of_
  case enough =>
    intro side other asleep
    have before : Asleep (state.wake woken) side other := by
      have different : other ≠ id := by
        intro same
        subst same
        obtain ⟨old, guarded, waiting⟩ := asleep.set_same.2.waiting
        rw [finished] at waiting
        cases waiting
      obtain ⟨probe, at_, rest⟩ := asleep
      refine ⟨probe, ?_, rest⟩
      change State.operations (State.set _ id moved) other = some probe at at_
      rw [State.set_other _ different] at at_
      exact at_
    have total : ((state.wake woken).set id moved).woken side + _ = _ := woke.woken_set kept side
    have gone : pending side (some moved) = 0 := by
      apply pending_of_not_woken
      intro old posted
      rw [finished] at posted
      cases posted
    have room := provides.room_le done notified heard before.of_wake
    rw [gone] at total
    change side.room next.semaphore ≤ ((state.wake woken).set id moved).woken side
    omega

theorem Provides.attempt {state : State T} (provides : Provides state) {id : Nat}
    {operation : Operation T} (found : state.operations id = some operation)
    (awake : ∀ old arrived guarded, operation.phase ≠ .waiting old arrived guarded)
    {available : Bool} {woken : List Nat}
    (notified : (operation.request.attempt movedFrom state.store).isSome →
      state.Notified available operation.request woken)
    (heard : (operation.request.attempt movedFrom state.store).isSome →
      ∀ side ∈ Direction.served operation.request, state.Heard available side) :
    Provides (state.attempt movedFrom id operation woken) := by
  unfold State.attempt
  cases done : operation.request.attempt movedFrom state.store with
  | some result =>
      have works : (operation.request.attempt movedFrom state.store).isSome := by
        rw [done]
        rfl
      exact provides.finish found awake done (notified works) (heard works) rfl _
  | none =>
      have blocked : ∀ side, Direction.of operation.request = some side →
          state.store.semaphore.mCounter = side.limit state.store.semaphore :=
        fun side of_ => Direction.blocked_of_attempt done of_
      apply provides.set found
      · intro old arrived guarded side phase of_
        cases phase
        rw [← blocked side of_]
        cases request : operation.request with
        | pop | push _ =>
            rw [request] at of_
            cases of_
        | acquire | release => rfl
      · intro side asleep
        obtain ⟨old, guarded, waiting⟩ := asleep.set_same.2.waiting
        cases waiting
      · intro side
        by_cases of_ : Direction.of operation.request = some side
        · exact .inr (Direction.room_of_limit (blocked side of_))
        · rw [pending_eq_zero of_]
          exact .inl (Nat.zero_le _)

/-! ### The steps -/

def State.enter (state : State T) (id : Nat) (operation : Operation T) : State T :=
  { state with known := id :: state.known }.set id operation

theorem State.woken_enter {state : State T} {id : Nat} (fresh : id ∉ state.known)
    {operation : Operation T} (running : operation.phase = .running) (side : Direction) :
    (state.enter id operation).woken side = state.woken side := by
  have gone : pending side (some operation) = 0 := by
    apply pending_of_not_woken
    rw [running]
    nofun
  have total := Population.total_enter (pending side) state.operations fresh (some operation)
  rw [gone] at total
  exact total

theorem Asleep.of_enter {state : State T} {id other : Nat} {operation : Operation T}
    (running : operation.phase = .running) {side : Direction}
    (asleep : Asleep (state.enter id operation) side other) :
    other ≠ id ∧ Asleep state side other := by
  obtain ⟨probe, at_, of_, sleeps⟩ := asleep
  rcases State.set_cases at_ with ⟨_, rfl⟩ | ⟨different, before⟩
  · rw [running] at sleeps
    cases sleeps
  · exact ⟨different, probe, before, of_, sleeps⟩

theorem Provides.enter {state : State T} (provides : Provides state) {id : Nat}
    (fresh : id ∉ state.known) {operation : Operation T} (running : operation.phase = .running) :
    Provides (state.enter id operation) := by
  constructor
  case known =>
    intro other probe at_
    rcases State.set_cases at_ with ⟨rfl, rfl⟩ | ⟨_, before⟩
    · exact List.mem_cons_self
    · exact List.mem_cons_of_mem _ (provides.known other probe before)
  case distinct => exact List.nodup_cons.2 ⟨fresh, provides.distinct⟩
  case bounded => exact provides.bounded
  case loaded =>
    intro other probe old arrived guarded side at_ phase of_
    rcases State.set_cases at_ with ⟨rfl, rfl⟩ | ⟨_, before⟩
    · rw [running] at phase
      cases phase
    · exact provides.loaded other probe old arrived guarded side before phase of_
  case enough =>
    intro side other asleep
    rw [State.woken_enter fresh running]
    exact provides.enough side other (asleep.of_enter running).2

theorem Provides.meets_enter {state : State T} (provides : Provides state) {id : Nat}
    (fresh : id ∉ state.known) {operation : Operation T} (running : operation.phase = .running)
    (word : FutexWord) (mask : UInt32) :
    (state.enter id operation).Meets word mask = state.Meets word mask := by
  funext other
  apply propext
  constructor
  · rintro ⟨_, probe, at_, rest⟩
    rcases State.set_cases at_ with ⟨_, rfl⟩ | ⟨_, before⟩
    · have sleeps := rest.2.1
      rw [running] at sleeps
      cases sleeps
    · exact ⟨provides.known other probe before, probe, before, rest⟩
  · rintro ⟨known, probe, at_, rest⟩
    have different : other ≠ id := fun same => fresh (same ▸ known)
    refine ⟨List.mem_cons_of_mem _ known, probe, ?_, rest⟩
    change State.operations (State.set _ id operation) other = some probe
    rw [State.set_other _ different]
    exact at_

theorem State.Heard.enter {state : State T} {available : Bool} {side : Direction}
    (heard : state.Heard available side) {id : Nat} (fresh : id ∉ state.known)
    {operation : Operation T} (running : operation.phase = .running) :
    (state.enter id operation).Heard available side := by
  rcases heard with arrives | nobody | spare
  · exact .inl arrives
  · right
    left
    intro other known asleep
    obtain ⟨different, before⟩ := asleep.of_enter running
    exact nobody other ((List.mem_cons.1 known).resolve_left different) before
  · right
    right
    rw [State.woken_enter fresh running]
    exact spare

theorem Provides.start {state : State T} (provides : Provides state) {id : Nat}
    (fresh : id ∉ state.known) {request : Request T} {timed : Bool} {woken : List Nat}
    {available : Bool} (notifies : Notifies movedFrom available state (.start id request timed woken))
    (noticed : Noticed movedFrom available state (.start id request timed woken)) :
    Provides (state.start movedFrom id request timed woken) := by
  have done : (request.attempt movedFrom state.store).isSome →
      work movedFrom state (.start id request timed woken) = some (request, woken) :=
    fun works => if_pos works
  unfold State.start
  apply (provides.enter fresh rfl).attempt (State.set_same ..)
  · intro old arrived guarded waiting
    cases waiting
  · intro works
    have notified := notifies _ (done works)
    unfold State.Notified at notified ⊢
    rw [funext (provides.meets_enter fresh rfl request.word)]
    exact notified
  · intro works side serves
    exact (noticed _ (done works) side serves).enter fresh rfl

theorem Provides.resume {state : State T} (provides : Provides state) {id : Nat}
    {operation : Operation T} (found : state.operations id = some operation) {woken : List Nat}
    {available : Bool} (notifies : Notifies movedFrom available state (.resume id woken))
    (noticed : Noticed movedFrom available state (.resume id woken)) :
    Provides (state.resume movedFrom id operation woken) := by
  have done : Works movedFrom state operation →
      work movedFrom state (.resume id woken) = some (operation.request, woken) := by
    intro works
    unfold work
    simp only [found, Option.bind_some]
    exact if_pos works
  unfold Works at done
  unfold State.resume
  cases phase : operation.phase with
  | running | waiting _ _ _ | finished => exact provides
  | posted old completion =>
      cases completion with
      | canceled =>
          apply provides.set_awake found
          · nofun
          · intro other posted
            rw [phase] at posted
            cases posted
      | woken =>
          simp only [phase] at done ⊢
          by_cases spurious : state.Spurious operation.request old
          · -- Only the condition variable goes back to sleep, so the call is on the queue.
            have elsewhere : Direction.of operation.request = none := by
              cases request : operation.request with
              | pop | push _ => rfl
              | acquire | release =>
                  rw [request] at spurious
                  cases spurious.1
            rw [if_pos spurious]
            apply provides.set found
            · intro other arrived guarded side waiting of_
              rw [elsewhere] at of_
              cases of_
            · intro side asleep
              obtain ⟨old, guarded, waiting⟩ := asleep.set_same.2.waiting
              cases waiting
            · intro side
              have foreign : Direction.of operation.request ≠ some side := by
                rw [elsewhere]
                nofun
              rw [pending_eq_zero foreign]
              exact .inl (Nat.zero_le _)
          · rw [if_neg spurious]
            apply provides.attempt found
            · intro other arrived guarded waiting
              rw [phase] at waiting
              cases waiting
            · intro works
              exact notifies _ (done ⟨spurious, works⟩)
            · intro works
              exact noticed _ (done ⟨spurious, works⟩)

/-- A call that falls asleep has found the counter at its limit. -/
theorem Provides.arrive {state : State T} (provides : Provides state) {id : Nat}
    {operation : Operation T} (found : state.operations id = some operation) :
    Provides (state.arrive id operation) := by
  unfold State.arrive
  cases phase : operation.phase with
  | running | posted _ _ | finished => exact provides
  | waiting old arrived guarded =>
      have notWoken : ∀ old, operation.phase ≠ .posted old .woken := by
        intro other posted
        rw [phase] at posted
        cases posted
      have limit : ∀ side, Direction.of operation.request = some side →
          old = side.limit state.store.semaphore :=
        fun side of_ => provides.loaded id operation old arrived guarded side found phase of_
      simp only
      by_cases same : state.store.load operation.request.word = old
      · rw [if_pos same]
        apply provides.set found
        · intro other arrived guarded side waiting of_
          cases waiting
          exact limit side of_
        · intro side asleep
          have of_ := asleep.set_same.1
          right
          apply Direction.room_of_limit
          rw [← limit side of_, ← same]
          cases request : operation.request with
          | pop | push _ =>
              simp only [request] at of_
              cases of_
          | acquire | release => rfl
        · intro side
          rw [pending_of_not_woken side notWoken]
          exact .inl (Nat.zero_le _)
      · rw [if_neg same]
        apply provides.set_awake found
        · nofun
        · exact notWoken

theorem Provides.expire {state : State T} (provides : Provides state) {id : Nat}
    {operation : Operation T} (found : state.operations id = some operation) :
    Provides (state.set id { operation with timedOut := true }) := by
  apply provides.set found
  · intro old arrived guarded side waiting of_
    exact provides.loaded id operation old arrived guarded side found waiting of_
  · intro side asleep
    exact .inl ⟨operation, found, asleep.set_same⟩
  · intro side
    exact .inl (Nat.le_refl _)

theorem Provides.cancelArrive {state : State T} (provides : Provides state) {id : Nat}
    {operation : Operation T} (found : state.operations id = some operation) :
    Provides (state.cancelArrive id operation) := by
  unfold State.cancelArrive
  cases phase : operation.phase with
  | running | posted _ _ | finished => exact provides
  | waiting old arrived guarded =>
      cases guarded with
      | false => exact provides
      | true =>
          apply provides.set_awake found
          · nofun
          · intro other posted
            rw [phase] at posted
            cases posted

/-! ### Runs -/

theorem Provides.step {state : State T} {action : Action T} (provides : Provides state)
    (enabled : Enabled state action) {available : Bool}
    (notifies : Notifies movedFrom available state action)
    (noticed : Noticed movedFrom available state action) :
    Provides (next movedFrom state action) := by
  cases action with
  | start id request timed woken => exact provides.start enabled.1 notifies noticed
  | arrive id =>
      rcases found_of_enabled enabled (by simp) with ⟨operation, found, ready⟩
      change state.operations id = _ at found
      simp only [next, found, Option.elim_some]
      exact provides.arrive found
  | resume id woken =>
      rcases found_of_enabled enabled (by simp) with ⟨operation, found, ready⟩
      change state.operations id = _ at found
      simp only [next, found, Option.elim_some]
      exact provides.resume found notifies noticed
  | expire id =>
      rcases found_of_enabled enabled (by simp) with ⟨operation, found, ready⟩
      change state.operations id = _ at found
      simp only [next, found, Option.elim_some]
      exact provides.expire found
  | cancelArrive id =>
      rcases found_of_enabled enabled (by simp) with ⟨operation, found, ready⟩
      change state.operations id = _ at found
      simp only [next, found, Option.elim_some]
      exact provides.cancelArrive found

/-- A coroutine that can go on, or a result that makes one go on. -/
def Phase.Runnable : Phase → Prop
  | .running | .posted _ _ => True
  | .waiting _ _ _ | .finished => False

instance (phase : Phase) : Decidable phase.Runnable :=
  match phase with
  | .running | .posted _ _ => isTrue trivial
  | .waiting _ _ _ | .finished => isFalse id

/-- No coroutine is runnable and no woken waiter is pending. -/
def Quiet (state : State T) : Prop :=
  ∀ id ∈ state.known, ∀ operation ∈ state.operations id, ¬operation.phase.Runnable

instance (state : State T) : Decidable (Quiet state) :=
  inferInstanceAs (Decidable (∀ id ∈ state.known, ∀ operation ∈ state.operations id, _))

theorem Quiet.woken_eq_zero {state : State T} (quiet : Quiet state) (side : Direction) :
    state.woken side = 0 := by
  apply Population.total_eq_zero_iff.2
  intro id member
  cases found : state.operations id with
  | none => rfl
  | some operation =>
      have still := quiet id member operation found
      unfold pending
      simp only
      split
      · rename_i old posted
        rw [posted] at still
        exact absurd trivial still
      · rfl

def NobodyStuck (state : State T) : Prop :=
  (∀ id, Asleep state .acquire id → ¬0 < state.store.semaphore.mCounter) ∧
    ∀ id, Asleep state .release id →
      ¬state.store.semaphore.mCounter < state.store.semaphore.mMaxCount

/-- Any number of calls, timed or not, in any order of the events: when everything has
come to rest, nobody is stuck. -/
theorem nobody_sleeps_when_noticed [Inhabited T] (movedFrom : T → T) (available : Bool)
    (maxSize : Nat) (initialCount maxCount : UInt32) (within : initialCount ≤ maxCount)
    (actions : List (Action T))
    (runs : (machine movedFrom maxSize initialCount maxCount).Runs
      (.initial maxSize initialCount maxCount) actions)
    (notifies : (machine movedFrom maxSize initialCount maxCount).Along
      (Notifies movedFrom available) (.initial maxSize initialCount maxCount) actions)
    (noticed : (machine movedFrom maxSize initialCount maxCount).Along
      (Noticed movedFrom available) (.initial maxSize initialCount maxCount) actions)
    (quiet : Quiet ((machine movedFrom maxSize initialCount maxCount).after
      (.initial maxSize initialCount maxCount) actions)) :
    NobodyStuck ((machine movedFrom maxSize initialCount maxCount).after
      (.initial maxSize initialCount maxCount) actions) := by
  have keeps : ∀ (state : State T) action, Provides state → Enabled state action →
      Notifies movedFrom available state action ∧ Noticed movedFrom available state action →
      Provides (next movedFrom state action) := by
    intro state action provides enabled both
    exact provides.step enabled both.1 both.2
  have provides := Machine.invariant_along Provides keeps (Provides.initial maxSize within) runs
    (notifies.and noticed)
  constructor
  · intro id asleep
    have enough := provides.enough .acquire id asleep
    rw [quiet.woken_eq_zero] at enough
    rw [UInt32.lt_iff_toNat_lt]
    exact Nat.not_lt.2 enough
  · intro id asleep
    have enough := provides.enough .release id asleep
    rw [quiet.woken_eq_zero] at enough
    rw [UInt32.lt_iff_toNat_lt]
    change _ - _ ≤ 0 at enough
    omega

/-- Three acquires sleep, one of them until its timer; the release wakes the first, whose
permit a newcomer takes, and the newcomer's wake for a release goes to the second. -/
def bargingRun : List (Action Nat) :=
  [.start 0 .acquire false [], .arrive 0, .start 1 .acquire false [], .arrive 1,
    .start 2 .acquire true [], .arrive 2, .expire 2, .cancelArrive 2,
    .start 3 .release false [0], .start 4 .acquire false [1], .resume 0 [], .arrive 0,
    .resume 2 [], .resume 1 [], .arrive 1]

theorem nobody_sleeps_when_noticed_barging :
    let state := (machine id 1 0 1).after (.initial 1 0 1) bargingRun
    NobodyStuck state ∧ Asleep state .acquire 0 ∧ Asleep state .acquire 1 ∧
      state.store.semaphore.mCounter = 0 :=
  ⟨nobody_sleeps_when_noticed id true 1 0 1 (by decide) bargingRun (by decide) (by decide)
    (by decide) (by decide), by decide, by decide, by decide⟩

/-- A release sleeps at a full semaphore, and an acquire makes room for it. -/
def missedRun : List (Action Nat) :=
  [.start 0 .release false [], .arrive 0, .start 1 .acquire false []]

/-- The release is not woken, on a kernel with futex_wake or without. -/
theorem release_sleeps_with_room :
    (machine id 1 1 1).Runs (.initial 1 1 1) missedRun ∧
      (machine id 1 1 1).Along (Notifies id true) (.initial 1 1 1) missedRun ∧
      (machine id 1 1 1).Along (Notifies id false) (.initial 1 1 1) missedRun ∧
      Quiet ((machine id 1 1 1).after (.initial 1 1 1) missedRun) ∧
      ¬NobodyStuck ((machine id 1 1 1).after (.initial 1 1 1) missedRun) := by
  refine ⟨by decide, by decide, by decide, by decide, ?_⟩
  intro nobody
  have asleep : Asleep ((machine id 1 1 1).after (.initial 1 1 1) missedRun) .release 0 := by
    decide
  exact nobody.2 0 asleep (by decide)

end TimedOperations

end MCoro
