/-
ConcurrentRingQueue of co_async/utils/concurrent_queue.hpp, for a Capacity other than
0, when its calls do not overlap.

The read and the write position share one atomic word. compare_exchange_weak succeeds
whenever the word is the expected one. What the stamp helpers compute in int before
they return it as a Stamp has the same low bits as in the Stamp itself.
-/

import MCoro.Library.Words
import MCoro.Utils.RingQueue

namespace MCoro

namespace ConcurrentRingQueue

/-- `std::bit_width(Capacity)`. -/
def shift (capacity : Nat) : Nat :=
  if capacity = 0 then 0 else capacity.log2 + 1

/-- The bits of the type that is chosen for Stamp. -/
def stampBits (capacity : Nat) : Nat :=
  if shift capacity ≤ 4 then 8
  else if shift capacity ≤ 8 then 16
  else if shift capacity ≤ 16 then 32
  else 64

abbrev Stamp (capacity : Nat) : Type :=
  BitVec (stampBits capacity)

/-- `1 << Shift`, which is computed as an int. -/
def oneShifted (capacity : Nat) : BitVec 32 :=
  (1 : BitVec 32) <<< shift capacity

/-- The static_asserts; a shift by 32 or more is no constant expression. -/
def Asserted (capacity : Nat) : Prop :=
  shift capacity * 2 ≤ stampBits capacity ∧ shift capacity < 32 ∧
    capacity < ((oneShifted capacity).signExtend 64).toNat

instance (capacity : Nat) : Decidable (Asserted capacity) :=
  inferInstanceAs (Decidable (_ ∧ _ ∧ _))

variable {capacity : Nat}

def kSize : Stamp capacity :=
  (oneShifted capacity).signExtend (stampBits capacity)

/-- There is a queue of that capacity: its `kSize` slots can be allocated. -/
def Fits (capacity : Nat) : Prop :=
  Asserted capacity ∧ (kSize : Stamp capacity).toNat < 2 ^ 63

instance (capacity : Nat) : Decidable (Fits capacity) :=
  inferInstanceAs (Decidable (_ ∧ _))

def offsetRead (s : Stamp capacity) : Stamp capacity :=
  s >>> shift capacity

def offsetWrite (s : Stamp capacity) : Stamp capacity :=
  s &&& (kSize - 1)

def canRead (s : Stamp capacity) : Bool :=
  offsetRead s ≠ offsetWrite s

def canWrite (s : Stamp capacity) : Bool :=
  (offsetRead s &&& (kSize - 1)) ≠
    ((offsetWrite s + (kSize - BitVec.ofNat _ capacity)) &&& (kSize - 1))

def advectRead (s : Stamp capacity) : Stamp capacity :=
  (((s >>> shift capacity) + 1) &&& (kSize - 1)) <<< shift capacity ||| (s &&& (kSize - 1))

def advectWrite (s : Stamp capacity) : Stamp capacity :=
  (((s &&& (kSize - 1)) + 1) &&& (kSize - 1)) ||| (s &&& ((kSize - 1) <<< shift capacity))

end ConcurrentRingQueue

open ConcurrentRingQueue in
/-- The slots are a total map from offsets, of which `kSize` are allocated. -/
structure ConcurrentRingQueue (T : Type) (capacity : Nat) where
  mHead : Nat → T
  mStamp : Stamp capacity

namespace ConcurrentRingQueue

variable {T : Type} {capacity : Nat}

/-- The slots are value-initialised. -/
def initial [Inhabited T] : ConcurrentRingQueue T capacity :=
  { mHead := fun _ => default
    mStamp := 0 }

/-- The queue, what `expected` holds afterwards, and whether the word was exchanged. -/
def compareExchange (queue : ConcurrentRingQueue T capacity) (expected desired : Stamp capacity) :
    ConcurrentRingQueue T capacity × Stamp capacity × Bool :=
  if queue.mStamp = expected then ({ queue with mStamp := desired }, expected, true)
  else (queue, queue.mStamp, false)

/-- The loop of pop: the stamp with which it is left, or none where it returns nullopt.
The whole is none when the fuel is used up. -/
def popLoop (queue : ConcurrentRingQueue T capacity) (s : Stamp capacity) :
    Nat → Option (ConcurrentRingQueue T capacity × Option (Stamp capacity))
  | 0 => none
  | fuel + 1 =>
      match queue.compareExchange s (advectRead s) with
      | (queue, s, true) => some (queue, some s)
      | (queue, s, false) => if !canRead s then some (queue, none) else queue.popLoop s fuel

/-- The loop of push, which goes round again when the exchange succeeds. -/
def pushLoop (queue : ConcurrentRingQueue T capacity) (s : Stamp capacity) :
    Nat → Option (ConcurrentRingQueue T capacity × Option (Stamp capacity))
  | 0 => none
  | fuel + 1 =>
      match queue.compareExchange s (advectWrite s) with
      | (queue, s, true) => if !canWrite s then some (queue, none) else queue.pushLoop s fuel
      | (queue, s, false) => some (queue, some s)

variable (movedFrom : T → T)

def pop (fuel : Nat) (queue : ConcurrentRingQueue T capacity) :
    Option (ConcurrentRingQueue T capacity × Option T) :=
  let s := queue.mStamp
  if !canRead s then some (queue, none)
  else
    match queue.popLoop s fuel with
    | none => none
    | some (queue, none) => some (queue, none)
    | some (queue, some s) =>
        let slot := (offsetRead s).toNat
        some ({ queue with mHead := Function.update queue.mHead slot (movedFrom (queue.mHead slot)) },
          some (queue.mHead slot))

/-- The queue, what push returns, and the argument `value` afterwards. -/
def push (fuel : Nat) (queue : ConcurrentRingQueue T capacity) (value : T) :
    Option (ConcurrentRingQueue T capacity × Bool × T) :=
  let s := queue.mStamp
  if !canWrite s then some (queue, false, value)
  else
    match queue.pushLoop s fuel with
    | none => none
    | some (queue, none) => some (queue, false, value)
    | some (queue, some s) =>
        some ({ queue with mHead := Function.update queue.mHead (offsetWrite s).toNat value },
          true, movedFrom value)

/-! ### Sequences of calls -/

inductive Operation (T : Type) where
  | push (value : T)
  | pop
  deriving DecidableEq, Repr

def Operation.ring : Operation T → RingQueue.Operation T
  | .push value => .push value
  | .pop => .pop

def perform (fuel : Nat) (queue : ConcurrentRingQueue T capacity) :
    Operation T → Option (ConcurrentRingQueue T capacity × RingQueue.Answer T)
  | .push value =>
      (queue.push movedFrom fuel value).map fun (next, ok, argument) =>
        (next, .pushed ok argument)
  | .pop => (queue.pop movedFrom fuel).map fun (next, value) => (next, .popped value)

def answers (fuel : Nat) (queue : ConcurrentRingQueue T capacity) :
    List (Operation T) → Option (List (RingQueue.Answer T))
  | [] => some []
  | operation :: rest =>
      (queue.perform movedFrom fuel operation).bind fun (next, answer) =>
        (next.answers fuel rest).map (answer :: ·)

end ConcurrentRingQueue

end MCoro
