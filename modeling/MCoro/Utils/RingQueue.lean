/-
RingQueue of co_async/utils/ring_queue.hpp.

A pointer is its offset from mHead; where nothing is allocated all pointers are null
and all offsets 0. The slots are a total map from offsets, whether or not the offset
was allocated: `accesses` tells which ones are dereferenced. What a move leaves
behind in an object is `movedFrom` of what it held.
-/

import MCoro.Library.CircularSegment

namespace MCoro

structure RingQueue (T : Type) where
  slots : Nat → T
  mTail : Nat
  mRead : Nat
  mWrite : Nat
  readWithin : mRead ≤ mTail
  writeWithin : mWrite ≤ mTail

namespace RingQueue

variable {T : Type}

/-- The constructor, and set_max_size: `maxSize` value-initialised slots. -/
def setMaxSize [Inhabited T] (maxSize : Nat) : RingQueue T :=
  { slots := fun _ => default
    mTail := maxSize
    mRead := 0
    mWrite := 0
    readWithin := Nat.zero_le maxSize
    writeWithin := Nat.zero_le maxSize }

/-- `mTail - mHead`. -/
def maxSize (queue : RingQueue T) : Nat :=
  queue.mTail

/-- The sum is at most twice the number of slots, and does not wrap; `none` is a
division by zero. -/
def size (queue : RingQueue T) : Option Nat :=
  if queue.maxSize = 0 then none
  else some ((queue.mWrite + queue.maxSize - queue.mRead) % queue.maxSize)

def nextWrite (queue : RingQueue T) : Nat :=
  if queue.mWrite = queue.mTail then 0 else queue.mWrite + 1

def nextRead (queue : RingQueue T) : Nat :=
  if queue.mRead = queue.mTail then 0 else queue.mRead + 1

def empty (queue : RingQueue T) : Bool :=
  queue.mRead = queue.mWrite

def full (queue : RingQueue T) : Bool :=
  queue.nextWrite = queue.mRead

variable (movedFrom : T → T)

def popUnchecked (queue : RingQueue T) : RingQueue T × T :=
  ({ queue with
      slots := Function.update queue.slots queue.mRead (movedFrom (queue.slots queue.mRead))
      mRead := queue.nextRead
      readWithin := Circle.advance_le queue.readWithin },
    queue.slots queue.mRead)

def pop (queue : RingQueue T) : RingQueue T × Option T :=
  if queue.mRead = queue.mWrite then (queue, none)
  else ((queue.popUnchecked movedFrom).1, some (queue.popUnchecked movedFrom).2)

/-- The queue, and the argument `value` after the move. -/
def pushUnchecked (queue : RingQueue T) (value : T) : RingQueue T × T :=
  ({ queue with
      slots := Function.update queue.slots queue.mWrite value
      mWrite := queue.nextWrite
      writeWithin := Circle.advance_le queue.writeWithin },
    movedFrom value)

/-- The queue, what push returns, and the argument `value` afterwards. -/
def push (queue : RingQueue T) (value : T) : RingQueue T × Bool × T :=
  if queue.nextWrite = queue.mRead then (queue, false, value)
  else
    ((queue.pushUnchecked movedFrom value).1, true, (queue.pushUnchecked movedFrom value).2)

/-! ### Sequences of calls -/

inductive Operation (T : Type) where
  | push (value : T)
  | pop
  | empty
  | full
  | setMaxSize (maxSize : Nat)
  deriving DecidableEq, Repr

inductive Answer (T : Type) where
  | pushed (ok : Bool) (argument : T)
  | popped (value : Option T)
  | holds (answer : Bool)
  | nothing
  deriving DecidableEq, Repr

def perform [Inhabited T] (queue : RingQueue T) : Operation T → RingQueue T × Answer T
  | .push value =>
      ((queue.push movedFrom value).1,
        .pushed (queue.push movedFrom value).2.1 (queue.push movedFrom value).2.2)
  | .pop => ((queue.pop movedFrom).1, .popped (queue.pop movedFrom).2)
  | .empty => (queue, .holds queue.empty)
  | .full => (queue, .holds queue.full)
  | .setMaxSize maxSize => (setMaxSize maxSize, .nothing)

/-- The offsets at which `*mRead` or `*mWrite` is evaluated. -/
def accesses (queue : RingQueue T) : Operation T → List Nat
  | .push _ => if queue.nextWrite = queue.mRead then [] else [queue.mWrite]
  | .pop => if queue.mRead = queue.mWrite then [] else [queue.mRead]
  | .empty | .full | .setMaxSize _ => []

def InBounds (queue : RingQueue T) (operation : Operation T) : Prop :=
  ∀ position ∈ queue.accesses operation, position < queue.maxSize

instance (queue : RingQueue T) (operation : Operation T) :
    Decidable (queue.InBounds operation) :=
  inferInstanceAs (Decidable (∀ position ∈ queue.accesses operation, position < queue.maxSize))

end RingQueue

/-! ### What the queue is for -/

/-- A first-in first-out list with a bound. -/
structure BoundedFifo (T : Type) where
  capacity : Nat
  items : List T
  bounded : items.length ≤ capacity

namespace BoundedFifo

variable {T : Type}

def ofCapacity (capacity : Nat) : BoundedFifo T :=
  { capacity := capacity
    items := []
    bounded := Nat.zero_le capacity }

/-- The list with one more element, when there is room. -/
def push (fifo : BoundedFifo T) (value : T) : Option (BoundedFifo T) :=
  if room : fifo.items.length < fifo.capacity then
    some
      { capacity := fifo.capacity
        items := fifo.items ++ [value]
        bounded := by
          rw [List.length_append]
          exact room }
  else none

theorem push_refused {fifo : BoundedFifo T} {value : T} (refused : fifo.push value = none) :
    ¬fifo.items.length < fifo.capacity := by
  intro room
  unfold push at refused
  rw [dif_pos room] at refused
  cases refused

theorem push_accepted {fifo longer : BoundedFifo T} {value : T}
    (accepted : fifo.push value = some longer) :
    fifo.items.length < fifo.capacity ∧ longer.capacity = fifo.capacity ∧
      longer.items = fifo.items ++ [value] := by
  unfold push at accepted
  by_cases room : fifo.items.length < fifo.capacity
  · rw [dif_pos room] at accepted
    cases accepted
    exact ⟨room, rfl, rfl⟩
  · rw [dif_neg room] at accepted
    cases accepted

def dropOldest (fifo : BoundedFifo T) : BoundedFifo T :=
  { capacity := fifo.capacity
    items := fifo.items.tail
    bounded := by
      rw [List.length_tail]
      exact (Nat.sub_le ..).trans fifo.bounded }

variable (movedFrom : T → T)

/-- An argument that is taken is moved from, one that is refused is not. -/
def perform (fifo : BoundedFifo T) : RingQueue.Operation T → BoundedFifo T × RingQueue.Answer T
  | .push value =>
      (fifo.push value).elim (fifo, .pushed false value) fun longer =>
        (longer, .pushed true (movedFrom value))
  | .pop => (fifo.dropOldest, .popped fifo.items.head?)
  | .empty => (fifo, .holds (fifo.items.length = 0))
  | .full => (fifo, .holds (fifo.items.length = fifo.capacity))
  | .setMaxSize maxSize => (ofCapacity maxSize, .nothing)

end BoundedFifo

end MCoro
