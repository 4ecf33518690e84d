/-
ConditionVariable of co_async/generic/condition_variable.hpp, under any interleaving
of atomic steps.

wait loads the word, waits on the futex for the loaded value and looks again; the
notifications add one to the word and then, as another step, call futex_notify. The
forms without a mask are those with the mask that matches any. `increments` counts the
additions and `announced` lists the notify_all calls that have done both of their steps.
-/

import MCoro.Library.Machine
import MCoro.Platform.FutexNotify

namespace MCoro

structure ConditionVariable where
  mFutex : UInt32
  deriving DecidableEq, Repr

namespace ConditionVariable

/-- `mFutex.fetch_add(1)`. -/
def fetchAdd (condition : ConditionVariable) : ConditionVariable :=
  { mFutex := condition.mFutex + 1 }

/-- Where a party is. `stamp` and `index` are the increments there were after its load
or its own addition. -/
inductive Place where
  | outside
  /-- In wait, with `old` loaded; about to call futex_wait. -/
  | loaded (old mask : UInt32) (stamp : Nat)
  | waiting (old mask : UInt32) (stamp : Nat)
  /-- In notify_one or notify_all, between the addition and the call of futex_notify. -/
  | notifying (mask : UInt32) (all : Bool) (index : Nat)
  deriving DecidableEq, Repr

structure Announcement where
  index : Nat
  mask : UInt32
  deriving DecidableEq, Repr

variable {Party : Type}

structure State (Party : Type) where
  condition : ConditionVariable
  place : Party → Place
  waits : Party → Futex.Wait
  increments : Nat
  announced : List Announcement

inductive Action (Party : Type) where
  | load (party : Party) (mask : UInt32)
  | submit (party : Party)
  | compare (party : Party)
  | cancel (party : Party)
  /-- A sleeper returns although nobody woke it. -/
  | spurious (party : Party)
  /-- The futex_wait has returned: the party looks at the word again. -/
  | recheck (party : Party)
  | increment (party : Party) (mask : UInt32) (all : Bool)
  /-- futex_notify; `woken` says whom the kernel chooses. -/
  | wake (party : Party) (woken : List Party)

def State.initial : State Party :=
  { condition := { mFutex := 0 }
    place := fun _ => .outside
    waits := fun _ => .idle
    increments := 0
    announced := [] }

variable [DecidableEq Party]

namespace State

def move (state : State Party) (party : Party) (place : Place) (wait : Futex.Wait) : State Party :=
  { state with
    place := Function.update state.place party place
    waits := Function.update state.waits party wait }

def load (state : State Party) (party : Party) (mask : UInt32) : State Party :=
  state.move party (.loaded state.condition.mFutex mask state.increments) .idle

def submit (state : State Party) (party : Party) : State Party :=
  match state.place party with
  | .loaded old mask stamp => state.move party (.waiting old mask stamp) (.queued old mask)
  | _ => state

def setWait (state : State Party) (party : Party) (wait : Futex.Wait) : State Party :=
  state.move party (state.place party) wait

/-- An error of futex_wait ends the call; EAGAIN is none. -/
def recheck (state : State Party) (party : Party) : State Party :=
  match state.place party, state.waits party with
  | .waiting old mask stamp, .returned .woken | .waiting old mask stamp, .returned .again =>
      if state.condition.mFutex = old then state.move party (.loaded old mask stamp) .idle
      else state.move party .outside .idle
  | _, _ => state.move party .outside .idle

def increment (state : State Party) (party : Party) (mask : UInt32) (all : Bool) : State Party :=
  { state with
    condition := state.condition.fetchAdd
    increments := state.increments + 1 }.move party
      (.notifying mask all (state.increments + 1)) .idle

def wake (state : State Party) (party : Party) (woken : List Party) : State Party :=
  match state.place party with
  | .notifying mask all index =>
      { state with
        place := Function.update state.place party .outside
        waits := Futex.wakeEach state.waits woken
        announced :=
          if all then
            { index := index
              mask := mask } :: state.announced
          else state.announced }
  | _ => state

end State

def Place.IsNotifying : Place → Prop
  | .notifying _ _ _ => True
  | _ => False

def Place.count : Place → UInt64
  | .notifying _ true _ => FutexNotify.futexNotifyAll
  | _ => 1

def Place.mask : Place → UInt32
  | .outside => 0
  | .loaded _ mask _ | .waiting _ mask _ | .notifying mask _ _ => mask

def Place.IsLoaded : Place → Prop
  | .loaded _ _ _ => True
  | _ => False

instance (place : Place) : Decidable place.IsNotifying :=
  match place with
  | .notifying _ _ _ => isTrue trivial
  | .outside | .loaded _ _ _ | .waiting _ _ _ => isFalse id

instance (place : Place) : Decidable place.IsLoaded :=
  match place with
  | .loaded _ _ _ => isTrue trivial
  | .outside | .waiting _ _ _ | .notifying _ _ _ => isFalse id

/-- Whom the call of futex_notify may wake. -/
def State.Notified (state : State Party) (available : Bool) (party : Party)
    (woken : List Party) : Prop :=
  FutexNotify.Notified available (fun mask other => (state.waits other).Meets mask)
    (state.place party).count (state.place party).mask woken

instance [Fintype Party] (state : State Party) (available : Bool) (party : Party)
    (woken : List Party) : Decidable (state.Notified available party woken) :=
  inferInstanceAs (Decidable (FutexNotify.Notified available
    (fun mask other => (state.waits other).Meets mask) (state.place party).count
    (state.place party).mask woken))

/-- `available` says whether the kernel has futex_wake. -/
def Enabled (available : Bool) (state : State Party) : Action Party → Prop
  | .load party _ | .increment party _ _ => state.place party = .outside
  | .submit party => (state.place party).IsLoaded
  | .compare party => (state.waits party).IsQueued
  | .cancel party => (state.waits party).IsQueued ∨ (state.waits party).IsAsleep
  | .spurious party => (state.waits party).IsAsleep
  | .recheck party => (state.waits party).HasReturned
  | .wake party woken =>
      (state.place party).IsNotifying ∧ state.Notified available party woken

instance [Fintype Party] (available : Bool) (state : State Party) (action : Action Party) :
    Decidable (Enabled available state action) :=
  match action with
  | .load party _ | .increment party _ _ =>
      inferInstanceAs (Decidable (state.place party = .outside))
  | .submit party => inferInstanceAs (Decidable (state.place party).IsLoaded)
  | .compare party => inferInstanceAs (Decidable (state.waits party).IsQueued)
  | .cancel party =>
      inferInstanceAs (Decidable ((state.waits party).IsQueued ∨ (state.waits party).IsAsleep))
  | .spurious party => inferInstanceAs (Decidable (state.waits party).IsAsleep)
  | .recheck party => inferInstanceAs (Decidable (state.waits party).HasReturned)
  | .wake party woken =>
      inferInstanceAs (Decidable ((state.place party).IsNotifying ∧
        state.Notified available party woken))

def next (state : State Party) : Action Party → State Party
  | .load party mask => state.load party mask
  | .submit party => state.submit party
  | .compare party =>
      state.setWait party ((state.waits party).compare state.condition.mFutex)
  | .cancel party => state.setWait party (.returned .canceled)
  | .spurious party => state.setWait party (.returned .woken)
  | .recheck party => state.recheck party
  | .increment party mask all => state.increment party mask all
  | .wake party woken => state.wake party woken

def machine (Party : Type) [DecidableEq Party] (available : Bool) :
    Machine (State Party) (Action Party) :=
  { initial := .initial
    Enabled := Enabled available
    next := next }

instance [Fintype Party] (available : Bool) (state : State Party) (action : Action Party) :
    Decidable ((machine Party available).Enabled state action) :=
  inferInstanceAs (Decidable (Enabled available state action))

/-- The increments after the load of a party in wait. -/
def Place.stamp? : Place → Option Nat
  | .loaded _ _ stamp | .waiting _ _ stamp => some stamp
  | .outside | .notifying _ _ _ => none

/-- Fewer than 2^32 additions lie between the load of the party and the comparison. -/
def State.Recent (state : State Party) (party : Party) : Prop :=
  ∀ stamp ∈ (state.place party).stamp?, state.increments < stamp + 2 ^ 32

/-- No comparison comes 2^32 additions after the load it refers to. -/
def NoWrap (state : State Party) : Action Party → Prop
  | .compare party | .recheck party => state.Recent party
  | _ => True

instance (state : State Party) (action : Action Party) : Decidable (NoWrap state action) :=
  match action with
  | .compare party | .recheck party =>
      inferInstanceAs (Decidable (∀ stamp ∈ (state.place party).stamp?, _))
  | .load _ _ | .submit _ | .cancel _ | .spurious _ | .increment _ _ _ | .wake _ _ =>
      isTrue trivial

/-- The party is in a wait whose mask meets that of the notify_all, and it has loaded
the word before the addition of the notify_all. -/
def Told (state : State Party) (announcement : Announcement) (party : Party) : Prop :=
  ∃ old mask stamp, (state.place party = .loaded old mask stamp ∨
      state.place party = .waiting old mask stamp) ∧
    mask &&& announcement.mask ≠ 0 ∧ stamp < announcement.index

/-- The futex_notify of the notify_all reaches all of them that sleep: there are none, or
the kernel is asked for them and for no more than its number. -/
def State.Reached (state : State Party) (available : Bool) (announcement : Announcement) : Prop :=
  (∀ party, (state.waits party).IsAsleep → ¬Told state announcement party) ∨
    available = true ∧
      (∀ party, (state.waits party).IsAsleep → Told state announcement party →
        (state.waits party).Meets FutexNotify.futexNotifyAll.toUInt32) ∧
      ∃ names : List Party, names.length ≤ FutexNotify.atMost announcement.mask.toInt32 ∧
        ∀ party, (state.waits party).Meets FutexNotify.futexNotifyAll.toUInt32 → party ∈ names

/-- No futex_notify of a notify_all misses a sleeper. -/
def Reaches (available : Bool) (state : State Party) : Action Party → Prop
  | .wake party _ => ∀ mask index, state.place party = .notifying mask true index →
      state.Reached available
        { index := index
          mask := mask }
  | _ => True

end ConditionVariable

end MCoro
