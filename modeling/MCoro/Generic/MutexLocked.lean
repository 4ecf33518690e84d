/-
MutexImpl::Locked of co_async/generic/mutex.hpp, with the try_lock and the lock that
return it.

The operations follow one another, on any number of Locked objects, which may be of
any number of mutexes. What T the mutex is for plays no part.
-/

import MCoro.Generic.Mutex
import MCoro.Library.Leases

namespace MCoro

open Leases

/-- An exchange that found a mutex free: the address of the MutexImpl and, what no code reads,
how many there were before it. -/
abbrev Acquisition := Lease Nat

namespace MutexImpl

/-- `mMutex` of every MutexImpl. The acquisitions and the calls of `mMutex.unlock()` are for
the proofs. -/
structure Mutexes where
  mMutex : Nat → BasicMutex := fun _ => { mFutex := 0 }
  acquisitions : Registry Nat := {}

structure Locked where
  mImpl : Option Acquisition := none
  deriving DecidableEq, Repr

namespace Mutexes

def setMutex (mutexes : Mutexes) (impl : Nat) (mutex : BasicMutex) : Mutexes :=
  { mutexes with mMutex := Function.update mutexes.mMutex impl mutex }

/-- The exchange in try_lock and in each round of lock, and the Locked that is returned. -/
def tryLock (mutexes : Mutexes) (impl : Nat) : Mutexes × Locked :=
  let (mutex, acquired) := (mutexes.mMutex impl).tryLock
  if acquired then
    ({ mutexes with acquisitions := mutexes.acquisitions.issue impl }.setMutex impl mutex,
      { mImpl := some ⟨impl, mutexes.acquisitions.issued⟩ })
  else (mutexes.setMutex impl mutex, {})

/-- `mMutex.unlock()`. -/
def unlock (mutexes : Mutexes) (acquisition : Acquisition) : Mutexes :=
  { mutexes with acquisitions := mutexes.acquisitions.giveBack acquisition }.setMutex
    acquisition.number (mutexes.mMutex acquisition.number).store

end Mutexes

namespace Locked

def isLocked (locked : Locked) : Bool :=
  locked.mImpl.isSome

def unlock (mutexes : Mutexes) (locked : Locked) : Mutexes × Locked :=
  match locked.mImpl with
  | some acquisition => (mutexes.unlock acquisition, { mImpl := none })
  | none => (mutexes, locked)

/-- `Locked(Locked &&that)`: the new object and the other one. -/
def moveConstruct (that : Locked) : Locked × Locked :=
  ({ mImpl := that.mImpl }, { mImpl := none })

/-- `operator=(Locked &&that)`: both objects. -/
def moveAssign (locked that : Locked) : Locked × Locked :=
  ({ mImpl := that.mImpl }, { mImpl := locked.mImpl })

end Locked

structure State where
  mutexes : Mutexes := {}
  lockeds : Nat → Option Locked := fun _ => none

namespace State

def held (state : State) : Holdings Nat Nat :=
  fun address => (state.lockeds address).bind Locked.mImpl

def setLocked (state : State) (address : Nat) (locked : Option Locked) : State :=
  { state with lockeds := Function.update state.lockeds address locked }

theorem held_setLocked (state : State) (address : Nat) (locked : Option Locked) :
    (state.setLocked address locked).held =
      Function.update state.held address (locked.bind Locked.mImpl) := by
  funext other
  exact Function.apply_update (fun _ kept => kept.bind Locked.mImpl) state.lockeds address
    locked other

end State

def State.at (state : State) (address : Nat) : Locked :=
  (state.lockeds address).getD {}

/-! ### The steps -/

inductive Action where
  /-- `Locked()`. -/
  | construct (address : Nat)
  | tryLock (address impl : Nat)
  /-- A round of lock. One that finds the mutex taken leaves the coroutine to wait, or to
  return the error of the wait, without a Locked. -/
  | lock (address impl : Nat)
  | moveConstruct (address that : Nat)
  | moveAssign (address that : Nat)
  | unlock (address : Nat)
  | destroy (address : Nat)
  deriving DecidableEq

/-- Objects are built in free memory and used while they live. -/
def Enabled (state : State) : Action → Prop
  | .construct address => state.lockeds address = none
  | .tryLock address _ => state.lockeds address = none
  | .lock address _ => state.lockeds address = none
  | .moveConstruct address that =>
      state.lockeds address = none ∧ (state.lockeds that).isSome
  | .moveAssign address that =>
      (state.lockeds address).isSome ∧ (state.lockeds that).isSome
  | .unlock address => (state.lockeds address).isSome
  | .destroy address => (state.lockeds address).isSome

def next (state : State) : Action → State
  | .construct address => state.setLocked address (some {})
  | .tryLock address impl =>
      let (mutexes, locked) := state.mutexes.tryLock impl
      { state with mutexes := mutexes }.setLocked address (some locked)
  | .lock address impl =>
      let (mutexes, locked) := state.mutexes.tryLock impl
      if locked.isLocked then { state with mutexes := mutexes }.setLocked address (some locked)
      else { state with mutexes := mutexes }
  | .moveConstruct address that =>
      let (made, left) := (state.at that).moveConstruct
      (state.setLocked that (some left)).setLocked address (some made)
  | .moveAssign address that =>
      let (assigned, left) := (state.at address).moveAssign (state.at that)
      (state.setLocked that (some left)).setLocked address (some assigned)
  | .unlock address =>
      let (mutexes, locked) := (state.at address).unlock state.mutexes
      { state with mutexes := mutexes }.setLocked address (some locked)
  | .destroy address =>
      let (mutexes, _) := (state.at address).unlock state.mutexes
      { state with mutexes := mutexes }.setLocked address none

def machine : Machine State Action where
  initial := {}
  Enabled := Enabled
  next := next

instance decidableEnabled (state : State) (action : Action) :
    Decidable (machine.Enabled state action) := by
  cases action <;> unfold machine Enabled <;> infer_instance

/-! ### What the steps do to the acquisitions -/

/-- The word of a mutex is set just while an acquisition of it is outstanding. -/
def Mutexes.Agree (mutexes : Mutexes) : Prop :=
  ∀ impl, (mutexes.mMutex impl).mFutex = 0 ↔ mutexes.acquisitions.current impl = none

structure Inv (state : State) : Prop where
  sound : Sound state.mutexes.acquisitions state.held
  agree : state.mutexes.Agree

variable {state : State}

theorem held_alive {address : Nat} (alive : (state.lockeds address).isSome) :
    state.held address = (state.at address).mImpl := by
  obtain ⟨locked, found⟩ := Option.isSome_iff_exists.1 alive
  change (state.lockeds address).bind _ = ((state.lockeds address).getD {}).mImpl
  rw [found]
  rfl

theorem held_free {address : Nat} (free : state.lockeds address = none) :
    state.held address = none := by
  change (state.lockeds address).bind _ = none
  rw [free]
  rfl

theorem Inv.setLocked_empty (inv : Inv state) {address : Nat} (empty : state.held address = none)
    {locked : Option Locked} (none_ : locked.bind Locked.mImpl = none) :
    Inv (state.setLocked address locked) := by
  constructor
  case sound =>
    rw [State.held_setLocked, none_, ← empty, Function.update_eq_self]
    exact inv.sound
  case agree => exact inv.agree

theorem tryLock_free {mutexes : Mutexes} {impl : Nat} (free : (mutexes.mMutex impl).mFutex = 0) :
    mutexes.tryLock impl =
      ({ mutexes with acquisitions := mutexes.acquisitions.issue impl }.setMutex impl { mFutex := 1 },
        { mImpl := some ⟨impl, mutexes.acquisitions.issued⟩ }) := by
  unfold Mutexes.tryLock BasicMutex.tryLock BasicMutex.exchange
  simp [free]

theorem tryLock_taken {mutexes : Mutexes} {impl : Nat}
    (taken : (mutexes.mMutex impl).mFutex ≠ 0) :
    mutexes.tryLock impl = (mutexes.setMutex impl { mFutex := 1 }, {}) := by
  unfold Mutexes.tryLock BasicMutex.tryLock BasicMutex.exchange
  simp [taken]

theorem agree_issue {mutexes : Mutexes} (agree : mutexes.Agree) (impl : Nat) :
    ({ mutexes with acquisitions := mutexes.acquisitions.issue impl }.setMutex impl
      { mFutex := 1 }).Agree := by
  intro other
  change (Function.update mutexes.mMutex impl _ other).mFutex = 0 ↔
    Function.update mutexes.acquisitions.current impl _ other = none
  by_cases same : other = impl
  · subst same
    rw [Function.update_self, Function.update_self]
    exact iff_of_false (by decide) (Option.some_ne_none _)
  · rw [Function.update_of_ne same, Function.update_of_ne same]
    exact agree other

theorem agree_taken {mutexes : Mutexes} (agree : mutexes.Agree) {impl : Nat}
    (taken : (mutexes.mMutex impl).mFutex ≠ 0) :
    (mutexes.setMutex impl { mFutex := 1 }).Agree := by
  intro other
  change (Function.update mutexes.mMutex impl _ other).mFutex = 0 ↔ _
  by_cases same : other = impl
  · subst same
    rw [Function.update_self]
    exact iff_of_false (by decide) fun current => taken ((agree other).2 current)
  · rw [Function.update_of_ne same]
    exact agree other

theorem agree_unlock {mutexes : Mutexes} (agree : mutexes.Agree) (acquisition : Acquisition) :
    (mutexes.unlock acquisition).Agree := by
  intro other
  change (Function.update mutexes.mMutex acquisition.number _ other).mFutex = 0 ↔
    Function.update mutexes.acquisitions.current acquisition.number _ other = none
  by_cases same : other = acquisition.number
  · subst same
    rw [Function.update_self, Function.update_self]
    exact iff_of_true rfl rfl
  · rw [Function.update_of_ne same, Function.update_of_ne same]
    exact agree other

theorem Inv.swap (inv : Inv state) {address that : Nat} {made left : Locked}
    (before : state.held address = left.mImpl) (moved : state.held that = made.mImpl) :
    Inv ((state.setLocked that (some left)).setLocked address (some made)) := by
  have swapped := inv.sound.swap address that
  rw [before, moved] at swapped
  constructor
  case sound =>
    rw [State.held_setLocked, State.held_setLocked]
    exact swapped
  case agree => exact inv.agree

theorem Inv.acquire (inv : Inv state) {address impl : Nat} (free : state.lockeds address = none)
    (word : (state.mutexes.mMutex impl).mFutex = 0) :
    Inv ({ state with mutexes := (state.mutexes.tryLock impl).1 }.setLocked address
      (some (state.mutexes.tryLock impl).2)) := by
  rw [tryLock_free word]
  constructor
  case sound =>
    rw [State.held_setLocked]
    exact inv.sound.issue ((inv.agree impl).1 word) (held_free free)
  case agree => exact agree_issue inv.agree impl

theorem Inv.fail (inv : Inv state) {impl : Nat}
    (taken : (state.mutexes.mMutex impl).mFutex ≠ 0) :
    Inv { state with mutexes := state.mutexes.setMutex impl { mFutex := 1 } } where
  sound := inv.sound
  agree := agree_taken inv.agree taken

theorem Inv.unlock (inv : Inv state) {address : Nat} (alive : (state.lockeds address).isSome)
    {locked : Option Locked} (none_ : locked.bind Locked.mImpl = none) :
    Inv ({ state with mutexes := ((state.at address).unlock state.mutexes).1 }.setLocked address
      locked) := by
  have held := held_alive alive
  unfold Locked.unlock
  cases owns : (state.at address).mImpl with
  | none => exact inv.setLocked_empty (held.trans owns) none_
  | some acquisition =>
      constructor
      case sound =>
        rw [State.held_setLocked, none_]
        exact inv.sound.giveBack (held.trans owns)
      case agree => exact agree_unlock inv.agree acquisition

theorem Locked.unlock_mImpl (mutexes : Mutexes) (locked : Locked) :
    (locked.unlock mutexes).2.mImpl = none := by
  unfold Locked.unlock
  cases owns : locked.mImpl with
  | none => exact owns
  | some acquisition => rfl

theorem Inv.next (inv : Inv state) {action : Action} (enabled : Enabled state action) :
    Inv (next state action) := by
  cases action with
  | construct address => exact inv.setLocked_empty (held_free enabled) rfl
  | tryLock address impl =>
      by_cases word : (state.mutexes.mMutex impl).mFutex = 0
      · exact inv.acquire enabled word
      · change Inv (({ state with mutexes := (state.mutexes.tryLock impl).1 } : State).setLocked
          address (some (state.mutexes.tryLock impl).2))
        rw [tryLock_taken word]
        exact (inv.fail word).setLocked_empty (held_free enabled) rfl
  | lock address impl =>
      change Inv (if (state.mutexes.tryLock impl).2.isLocked then _ else
        { state with mutexes := (state.mutexes.tryLock impl).1 })
      by_cases word : (state.mutexes.mMutex impl).mFutex = 0
      · rw [if_pos (by rw [tryLock_free word]; rfl)]
        exact inv.acquire enabled word
      · rw [if_neg (by rw [tryLock_taken word]; exact Bool.false_ne_true), tryLock_taken word]
        exact inv.fail word
  | moveConstruct address that => exact inv.swap (held_free enabled.1) (held_alive enabled.2)
  | moveAssign address that => exact inv.swap (held_alive enabled.1) (held_alive enabled.2)
  | unlock address => exact inv.unlock enabled (Locked.unlock_mImpl state.mutexes _)
  | destroy address => exact inv.unlock enabled rfl

theorem inv_initial : Inv machine.initial where
  sound := sound_initial
  agree _ := iff_of_true rfl rfl

/-! ### Runs -/

/-- No two objects refer to one mutex, every unlock is of the acquisition that is outstanding,
and every acquisition is either unlocked, once, or in the hands of one object; it is unlocked
where no object is left. The word of a mutex is set just while an object refers to it. -/
structure Exclusive (state : State) : Prop where
  kept : Kept state.mutexes.acquisitions state.held
  finished : (∀ address, state.lockeds address = none) →
    ∀ term < state.mutexes.acquisitions.issued, state.mutexes.acquisitions.timesReturned term = 1
  taken : ∀ impl, (state.mutexes.mMutex impl).mFutex ≠ 0 ↔
    ∃ address term, state.held address = some ⟨impl, term⟩

theorem Inv.exclusive (inv : Inv state) : Exclusive state := by
  have kept := inv.sound.kept
  constructor
  case kept => exact kept
  case finished =>
    intro noObject term issued
    rcases kept.once term issued with ⟨once, _⟩ | ⟨_, address, ⟨acquisition, owns, _⟩, _⟩
    · exact once
    · rw [held_free (noObject address)] at owns
      cases owns
  case taken =>
    intro impl
    rw [Ne, inv.agree impl]
    constructor
    · intro taken
      obtain ⟨term, current⟩ := Option.ne_none_iff_exists'.1 taken
      obtain ⟨address, holds⟩ := (inv.sound.agrees ⟨impl, term⟩).1 current
      exact ⟨address, term, holds⟩
    · rintro ⟨address, term, holds⟩ none_
      have current := inv.sound.current holds
      rw [none_] at current
      cases current

/-- In every state of every run a mutex is unlocked once for each acquisition, by the one
object that refers to it, and only while it is outstanding. -/
theorem unlocked_once (actions : List Action) (runs : machine.Runs machine.initial actions) :
    Exclusive (machine.after machine.initial actions) :=
  Inv.exclusive (Machine.invariant Inv (fun _ _ inv enabled => inv.next enabled) inv_initial
    runs)

/-- The lock moves on, also to itself, and its first object takes the mutex again. -/
theorem unlocked_once_moved :
    Exclusive (machine.after machine.initial
      [.tryLock 0 7, .moveConstruct 1 0, .moveAssign 1 1, .construct 2, .moveAssign 2 1,
        .lock 3 7, .unlock 2, .lock 3 7, .moveAssign 0 3, .destroy 2, .destroy 3, .destroy 1,
        .destroy 0]) :=
  unlocked_once _ (by decide)

end MutexImpl

end MCoro
