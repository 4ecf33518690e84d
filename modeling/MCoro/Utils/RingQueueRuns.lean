/-
Histories of a RingQueue.

The queue is a bounded first-in first-out list: the stored elements are the segment
of the circle from mRead on, and mWrite is the position after it. The circle has one
position more than there are slots, so a history that goes round it uses that
position too. `Counted` counts the accepted pushes to tell when it does.
-/

import MCoro.Library.Lockstep
import MCoro.Utils.RingQueue

namespace MCoro.RingQueue

variable {T : Type}

/-! ### The stored elements -/

structure Represents (queue : RingQueue T) (fifo : BoundedFifo T) : Prop where
  tail : queue.mTail = fifo.capacity
  write : queue.mWrite = Circle.travel queue.mTail queue.mRead fifo.items.length
  contents : Circle.Holds queue.mTail queue.slots queue.mRead fifo.items

theorem Represents.length_le {queue : RingQueue T} {fifo : BoundedFifo T}
    (represents : Represents queue fifo) : fifo.items.length ≤ queue.mTail := by
  rw [represents.tail]
  exact fifo.bounded

theorem Represents.setMaxSize [Inhabited T] (maxSize : Nat) :
    Represents (setMaxSize maxSize : RingQueue T) (BoundedFifo.ofCapacity maxSize) :=
  { tail := rfl
    write := rfl
    contents := trivial }

theorem Represents.read_eq_write_iff {queue : RingQueue T} {fifo : BoundedFifo T}
    (represents : Represents queue fifo) :
    queue.mRead = queue.mWrite ↔ fifo.items.length = 0 := by
  rw [represents.write, eq_comm]
  exact Circle.travel_eq_self queue.readWithin represents.length_le

theorem Represents.nextWrite_eq_read_iff {queue : RingQueue T} {fifo : BoundedFifo T}
    (represents : Represents queue fifo) :
    queue.nextWrite = queue.mRead ↔ fifo.items.length = fifo.capacity := by
  rw [← represents.tail]
  change Circle.advance queue.mTail queue.mWrite = queue.mRead ↔ _
  rw [represents.write]
  exact Circle.advance_travel_eq_self queue.readWithin represents.length_le

theorem Represents.nextWrite_ne_read {queue : RingQueue T} {fifo : BoundedFifo T}
    (represents : Represents queue fifo) :
    queue.nextWrite ≠ queue.mRead ↔ fifo.items.length < fifo.capacity := by
  have bounded := fifo.bounded
  rw [Ne, represents.nextWrite_eq_read_iff]
  omega

theorem Represents.pushUnchecked {queue : RingQueue T} {fifo : BoundedFifo T}
    (represents : Represents queue fifo) (movedFrom : T → T) {value : T} {longer : BoundedFifo T}
    (accepted : fifo.push value = some longer) :
    Represents (queue.pushUnchecked movedFrom value).1 longer := by
  rcases BoundedFifo.push_accepted accepted with ⟨room, capacity, items⟩
  constructor
  case tail =>
    rw [capacity]
    exact represents.tail
  case write =>
    change Circle.advance queue.mTail queue.mWrite =
      Circle.travel queue.mTail queue.mRead longer.items.length
    rw [items, List.length_append, represents.write]
    exact (Circle.travel_succ ..).symm
  case contents =>
    change Circle.Holds queue.mTail (Function.update queue.slots queue.mWrite value) queue.mRead
      longer.items
    rw [items, represents.write]
    exact represents.contents.append queue.readWithin represents.length_le value

theorem Represents.popUnchecked {queue : RingQueue T} {fifo : BoundedFifo T}
    (represents : Represents queue fifo) (movedFrom : T → T) {item : T} {rest : List T}
    (stored : fifo.items = item :: rest) :
    (queue.popUnchecked movedFrom).2 = item ∧
      Represents (queue.popUnchecked movedFrom).1 fifo.dropOldest := by
  have contents := represents.contents
  have write := represents.write
  have short := represents.length_le
  rw [stored] at contents write short
  have outside : ∀ distance, distance < rest.length →
      Circle.travel queue.mTail (Circle.advance queue.mTail queue.mRead) distance ≠
        queue.mRead := by
    intro distance less same
    have round : distance + 1 ≤ queue.mTail := less.trans short
    have back := (Circle.travel_eq_self queue.readWithin round).1 same
    cases back
  constructor
  · exact contents.1
  · constructor
    case tail => exact represents.tail
    case write =>
      change queue.mWrite = Circle.travel queue.mTail queue.nextRead fifo.items.tail.length
      rw [stored]
      exact write
    case contents =>
      change Circle.Holds queue.mTail
        (Function.update queue.slots queue.mRead (movedFrom (queue.slots queue.mRead)))
        (Circle.advance queue.mTail queue.mRead) fifo.items.tail
      rw [stored]
      exact contents.2.update outside _

/-! ### The machines -/

/-- A queue of that capacity, before the first call. -/
def machine [Inhabited T] (movedFrom : T → T) (maxSize : Nat) :
    Machine (RingQueue T) (Operation T) :=
  { initial := setMaxSize maxSize
    Enabled := fun _ _ => True
    next := fun queue operation => (queue.perform movedFrom operation).1 }

def fifoMachine (movedFrom : T → T) (maxSize : Nat) : Machine (BoundedFifo T) (Operation T) :=
  { initial := .ofCapacity maxSize
    Enabled := fun _ _ => True
    next := fun fifo operation => (fifo.perform movedFrom operation).1 }

theorem Represents.perform [Inhabited T] {queue : RingQueue T} {fifo : BoundedFifo T}
    (represents : Represents queue fifo) (movedFrom : T → T) (operation : Operation T) :
    Represents (queue.perform movedFrom operation).1 (fifo.perform movedFrom operation).1 ∧
      (queue.perform movedFrom operation).2 = (fifo.perform movedFrom operation).2 := by
  cases operation with
  | push value =>
      unfold RingQueue.perform BoundedFifo.perform push
      simp only
      cases accepted : fifo.push value with
      | none =>
          have refused : queue.nextWrite = queue.mRead := by
            by_contra free
            exact BoundedFifo.push_refused accepted (represents.nextWrite_ne_read.1 free)
          rw [if_pos refused]
          exact ⟨represents, rfl⟩
      | some longer =>
          have free : queue.nextWrite ≠ queue.mRead :=
            represents.nextWrite_ne_read.2 (BoundedFifo.push_accepted accepted).1
          rw [if_neg free]
          exact ⟨represents.pushUnchecked movedFrom accepted, rfl⟩
  | pop =>
      unfold RingQueue.perform BoundedFifo.perform pop
      simp only
      cases stored : fifo.items with
      | nil =>
          have nothing : queue.mRead = queue.mWrite := by
            rw [represents.read_eq_write_iff, stored]
            rfl
          have same : fifo.dropOldest = fifo := by
            cases fifo
            cases stored
            rfl
          rw [if_pos nothing, same]
          exact ⟨represents, rfl⟩
      | cons item rest =>
          have something : queue.mRead ≠ queue.mWrite := by
            rw [Ne, represents.read_eq_write_iff, stored]
            exact Nat.succ_ne_zero _
          rw [if_neg something]
          rcases represents.popUnchecked movedFrom stored with ⟨oldest, shorter⟩
          constructor
          · exact shorter
          · exact congrArg (fun value => Answer.popped (some value)) oldest
  | empty =>
      constructor
      · exact represents
      · exact congrArg Answer.holds (decide_eq_decide.2 represents.read_eq_write_iff)
  | full =>
      constructor
      · exact represents
      · exact congrArg Answer.holds (decide_eq_decide.2 represents.nextWrite_eq_read_iff)
  | setMaxSize maxSize => exact ⟨Represents.setMaxSize maxSize, rfl⟩

/-- What each call does on a queue that stores these elements. -/
structure BehavesAs (movedFrom : T → T) (queue : RingQueue T) (fifo : BoundedFifo T) : Prop where
  accepts : ∀ value, (queue.push movedFrom value).2.1 = true ↔ fifo.items.length < fifo.capacity
  refuses : ∀ value, ¬fifo.items.length < fifo.capacity →
    queue.push movedFrom value = (queue, false, value)
  oldest : (queue.pop movedFrom).2 = fifo.items.head?
  empty : queue.empty = true ↔ fifo.items.length = 0
  full : queue.full = true ↔ fifo.items.length = fifo.capacity

theorem Represents.behaves [Inhabited T] {queue : RingQueue T} {fifo : BoundedFifo T}
    (represents : Represents queue fifo) (movedFrom : T → T) :
    BehavesAs movedFrom queue fifo := by
  constructor
  case accepts =>
    intro value
    rw [← represents.nextWrite_ne_read]
    unfold push
    by_cases blocked : queue.nextWrite = queue.mRead
    · rw [if_pos blocked]
      simp [blocked]
    · rw [if_neg blocked]
      simp [blocked]
  case refuses =>
    intro value noRoom
    rw [← represents.nextWrite_ne_read, not_not] at noRoom
    unfold push
    rw [if_pos noRoom]
  case oldest =>
    have answers := (represents.perform movedFrom .pop).2
    exact Answer.popped.inj answers
  case empty =>
    rw [← represents.read_eq_write_iff]
    exact decide_eq_true_iff
  case full =>
    rw [← represents.nextWrite_eq_read_iff]
    exact decide_eq_true_iff

/-- Every history of calls is one of the bounded list of that capacity. -/
theorem histories_are_fifo [Inhabited T] (movedFrom : T → T) (maxSize : Nat)
    (operations : List (Operation T)) :
    (machine movedFrom maxSize).trace (fun queue operation => (queue.perform movedFrom operation).2)
        (setMaxSize maxSize) operations =
      (fifoMachine movedFrom maxSize).trace
        (fun fifo operation => (fifo.perform movedFrom operation).2) (.ofCapacity maxSize)
        operations ∧
      BehavesAs movedFrom ((machine movedFrom maxSize).after (setMaxSize maxSize) operations)
        ((fifoMachine movedFrom maxSize).after (.ofCapacity maxSize) operations) := by
  have keeps : ∀ (queue : RingQueue T) fifo operation, Represents queue fifo →
      Represents ((machine movedFrom maxSize).next queue operation)
        ((fifoMachine movedFrom maxSize).next fifo operation) := by
    intro queue fifo operation represents
    exact (represents.perform movedFrom operation).1
  have start : Represents (setMaxSize maxSize : RingQueue T) (.ofCapacity maxSize) :=
    Represents.setMaxSize maxSize
  constructor
  · apply Machine.trace_related keeps ?_ start
    intro queue fifo operation represents
    exact (represents.perform movedFrom operation).2
  · exact (Machine.after_related keeps start operations).behaves movedFrom

/-! ### How many elements are stored -/

/-- The length of the segment from mRead to mWrite. -/
def stored (queue : RingQueue T) : Nat :=
  (queue.mWrite + (queue.mTail + 1) - queue.mRead) % (queue.mTail + 1)

def Consistent (queue : RingQueue T) : Prop :=
  ∃ fifo, Represents queue fifo

/-- mWrite by the number of stored elements: it is still behind mRead, or has gone round. -/
theorem Represents.write_cases {queue : RingQueue T} {fifo : BoundedFifo T}
    (represents : Represents queue fifo) :
    queue.mRead + fifo.items.length = queue.mWrite ∨
      queue.mRead + fifo.items.length = queue.mWrite + (queue.mTail + 1) := by
  have short := represents.length_le
  have within := queue.readWithin
  have write := represents.write
  rw [Circle.travel_eq within] at write
  by_cases straight : queue.mRead + fifo.items.length < queue.mTail + 1
  · left
    rw [write, Nat.mod_eq_of_lt straight]
  · right
    rw [write, Nat.mod_eq_sub_mod (by omega), Nat.mod_eq_of_lt (by omega)]
    omega

theorem Represents.stored {queue : RingQueue T} {fifo : BoundedFifo T}
    (represents : Represents queue fifo) : queue.stored = fifo.items.length := by
  have short := represents.length_le
  have within := queue.readWithin
  unfold RingQueue.stored
  rcases represents.write_cases with straight | round
  · have onward : queue.mWrite + (queue.mTail + 1) - queue.mRead =
        fifo.items.length + (queue.mTail + 1) := by omega
    rw [onward, Nat.add_mod_right]
    exact Nat.mod_eq_of_lt (by omega)
  · have back : queue.mWrite + (queue.mTail + 1) - queue.mRead = fifo.items.length := by omega
    rw [back]
    exact Nat.mod_eq_of_lt (by omega)

theorem Consistent.setMaxSize [Inhabited T] (maxSize : Nat) :
    (RingQueue.setMaxSize maxSize : RingQueue T).Consistent :=
  ⟨_, Represents.setMaxSize maxSize⟩

theorem Consistent.empty_iff {queue : RingQueue T} (consistent : queue.Consistent) :
    queue.empty = true ↔ queue.stored = 0 := by
  rcases consistent with ⟨fifo, represents⟩
  rw [represents.stored, ← represents.read_eq_write_iff]
  exact decide_eq_true_iff

theorem Consistent.full_iff {queue : RingQueue T} (consistent : queue.Consistent) :
    queue.full = true ↔ queue.stored = queue.maxSize := by
  rcases consistent with ⟨fifo, represents⟩
  have tail : queue.maxSize = fifo.capacity := represents.tail
  rw [represents.stored, tail, ← represents.nextWrite_eq_read_iff]
  exact decide_eq_true_iff

theorem Consistent.stored_le {queue : RingQueue T} (consistent : queue.Consistent) :
    queue.stored ≤ queue.maxSize := by
  rcases consistent with ⟨fifo, represents⟩
  rw [represents.stored]
  exact represents.length_le

/-- A push is refused by a full queue, and stores one element more in any other. -/
theorem Consistent.push_cases {queue : RingQueue T} (consistent : queue.Consistent)
    (movedFrom : T → T) (value : T) :
    (queue.stored = queue.maxSize ∧ queue.push movedFrom value = (queue, false, value)) ∨
      (queue.stored < queue.maxSize ∧ (queue.push movedFrom value).2.1 = true ∧
        (queue.push movedFrom value).1.Consistent ∧
        (queue.push movedFrom value).1.stored = queue.stored + 1 ∧
        (queue.push movedFrom value).1.maxSize = queue.maxSize) := by
  have full := consistent.full_iff
  have bounded := consistent.stored_le
  rcases consistent with ⟨fifo, represents⟩
  unfold push
  by_cases blocked : queue.nextWrite = queue.mRead
  · rw [if_pos blocked]
    exact .inl ⟨full.1 (decide_eq_true blocked), rfl⟩
  · rw [if_neg blocked]
    have room := represents.nextWrite_ne_read.1 blocked
    have different : queue.stored ≠ queue.maxSize := by
      intro same
      exact blocked (of_decide_eq_true (full.2 same))
    cases accepted : fifo.push value with
    | none => exact absurd room (BoundedFifo.push_refused accepted)
    | some longer =>
        have after := represents.pushUnchecked movedFrom accepted
        rcases BoundedFifo.push_accepted accepted with ⟨_, _, items⟩
        refine .inr ⟨by omega, rfl, ⟨longer, after⟩, ?_, rfl⟩
        rw [after.stored, represents.stored, items, List.length_append]
        rfl

theorem Consistent.pop_cases {queue : RingQueue T} (consistent : queue.Consistent)
    (movedFrom : T → T) :
    (queue.stored = 0 ∧ queue.pop movedFrom = (queue, none)) ∨
      ((queue.pop movedFrom).2.isSome ∧ (queue.pop movedFrom).1.Consistent ∧
        (queue.pop movedFrom).1.stored + 1 = queue.stored ∧
        (queue.pop movedFrom).1.maxSize = queue.maxSize) := by
  have empty := consistent.empty_iff
  rcases consistent with ⟨fifo, represents⟩
  unfold pop
  by_cases nothing : queue.mRead = queue.mWrite
  · rw [if_pos nothing]
    exact .inl ⟨empty.1 (decide_eq_true nothing), rfl⟩
  · rw [if_neg nothing]
    cases items : fifo.items with
    | nil =>
        rw [represents.read_eq_write_iff, items] at nothing
        exact absurd rfl nothing
    | cons item rest =>
        have after := (represents.popUnchecked movedFrom items).2
        refine .inr ⟨rfl, ⟨_, after⟩, ?_, rfl⟩
        rw [after.stored, represents.stored, items]
        unfold BoundedFifo.dropOldest
        simp only [items]
        rfl

/-! ### size -/

/-- What size is to say of a queue that stores `count` elements. -/
structure SizeCounts (queue : RingQueue T) (count : Nat) : Prop where
  counts : queue.size = some count
  empty : queue.size = some 0 ↔ queue.empty = true
  full : queue.size = some queue.maxSize ↔ queue.full = true

/-- size has one residue less than there can be numbers of elements, and counts from mTail
back to mHead one step too few. -/
theorem Represents.size_iff {queue : RingQueue T} {fifo : BoundedFifo T}
    (represents : Represents queue fifo) :
    queue.size = some fifo.items.length ↔
      0 < queue.maxSize ∧ queue.mRead ≤ queue.mWrite ∧ queue.full = false := by
  have short := represents.length_le
  have readWithin := queue.readWithin
  have writeWithin := queue.writeWithin
  have tail : queue.maxSize = queue.mTail := rfl
  have full : queue.full = false ↔ fifo.items.length ≠ queue.mTail := by
    rw [represents.tail, Ne, ← represents.nextWrite_eq_read_iff]
    exact decide_eq_false_iff_not
  rw [full]
  unfold size
  rw [tail]
  by_cases none : queue.mTail = 0
  · rw [if_pos none]
    constructor
    · nofun
    · intro condition
      exact absurd none (Nat.ne_of_gt condition.1)
  · rw [if_neg none, Option.some.injEq]
    rcases represents.write_cases with straight | round
    · have onward : queue.mWrite + queue.mTail - queue.mRead =
          fifo.items.length + queue.mTail := by omega
      rw [onward, Nat.add_mod_right]
      constructor
      · intro same
        have less := Nat.mod_lt fifo.items.length (Nat.pos_of_ne_zero none)
        omega
      · intro condition
        apply Nat.mod_eq_of_lt
        omega
    · have back : queue.mWrite + queue.mTail - queue.mRead = fifo.items.length - 1 := by omega
      rw [back, Nat.mod_eq_of_lt (by omega)]
      constructor
      · intro same
        omega
      · intro condition
        omega

def behind [Inhabited T] (movedFrom : T → T) (maxSize : Nat) (operations : List (Operation T)) :
    RingQueue T :=
  (machine movedFrom maxSize).after (setMaxSize maxSize) operations

/-- size counts the elements just while there are slots, mWrite has not gone round to
positions before mRead, and the queue is not full. -/
theorem size_counts_iff [Inhabited T] (movedFrom : T → T) (maxSize : Nat)
    (operations : List (Operation T)) :
    SizeCounts (behind movedFrom maxSize operations)
        ((fifoMachine movedFrom maxSize).after (.ofCapacity maxSize) operations).items.length ↔
      0 < (behind movedFrom maxSize operations).maxSize ∧
        (behind movedFrom maxSize operations).mRead ≤
          (behind movedFrom maxSize operations).mWrite ∧
        (behind movedFrom maxSize operations).full = false := by
  have represents : Represents (behind movedFrom maxSize operations)
      ((fifoMachine movedFrom maxSize).after (.ofCapacity maxSize) operations) := by
    apply Machine.after_related _ (Represents.setMaxSize maxSize)
    intro queue fifo operation represents
    exact (represents.perform movedFrom operation).1
  have behaves := represents.behaves movedFrom
  have tail : RingQueue.maxSize _ = _ := represents.tail
  constructor
  · intro counts
    exact represents.size_iff.1 counts.counts
  · intro condition
    have counts := represents.size_iff.2 condition
    constructor
    case counts => exact counts
    case empty => rw [counts, Option.some.injEq, behaves.empty]
    case full => rw [counts, Option.some.injEq, tail, behaves.full]

/-- A full queue of two slots counts no element, and without slots size divides by zero. -/
theorem size_miscounts :
    ((behind id 2 [.push 1, .push 2] : RingQueue Nat).size = some 0 ∧
        (behind id 2 [.push 1, .push 2] : RingQueue Nat).full = true ∧
        ¬SizeCounts (behind id 2 [.push 1, .push 2] : RingQueue Nat) 2) ∧
      (behind id 0 [] : RingQueue Nat).size = none := by
  refine ⟨⟨rfl, rfl, ?_⟩, rfl⟩
  intro counts
  cases counts.counts

/-! ### The position after the last slot -/

/-- The list, and how many pushes it has accepted since the slots were allocated. -/
structure Counted (T : Type) where
  fifo : BoundedFifo T
  accepted : Nat

namespace Counted

def Accepts (counted : Counted T) : Operation T → Prop
  | .push _ => counted.fifo.items.length < counted.fifo.capacity
  | _ => False

instance (counted : Counted T) (operation : Operation T) : Decidable (counted.Accepts operation) :=
  match operation with
  | .push _ => inferInstanceAs (Decidable (counted.fifo.items.length < counted.fifo.capacity))
  | .pop | .empty | .full | .setMaxSize _ => isFalse id

def next (movedFrom : T → T) (counted : Counted T) (operation : Operation T) : Counted T :=
  { fifo := (counted.fifo.perform movedFrom operation).1
    accepted :=
      match operation with
      | .setMaxSize _ => 0
      | operation => if counted.Accepts operation then counted.accepted + 1 else counted.accepted }

def machine (movedFrom : T → T) (maxSize : Nat) : Machine (Counted T) (Operation T) :=
  { initial :=
      { fifo := .ofCapacity maxSize
        accepted := 0 }
    Enabled := fun _ _ => True
    next := next movedFrom }

/-- There is still a slot that has not been written. -/
def Fresh (counted : Counted T) (operation : Operation T) : Prop :=
  counted.Accepts operation → counted.accepted < counted.fifo.capacity

instance (counted : Counted T) (operation : Operation T) : Decidable (counted.Fresh operation) :=
  inferInstanceAs (Decidable (_ → _))

end Counted

/-- As long as every accepted push wrote a slot of its own, nothing has gone round. -/
structure Straight (queue : RingQueue T) (counted : Counted T) : Prop where
  represents : Represents queue counted.fifo
  read : queue.mRead + counted.fifo.items.length = counted.accepted
  within : counted.accepted ≤ queue.mTail

theorem Straight.write {queue : RingQueue T} {counted : Counted T}
    (straight : Straight queue counted) : queue.mWrite = counted.accepted := by
  have within := straight.within
  rw [straight.represents.write, Circle.travel_eq queue.readWithin, straight.read]
  exact Nat.mod_eq_of_lt (by omega)

theorem Straight.inBounds_iff {queue : RingQueue T} {counted : Counted T}
    (straight : Straight queue counted) (operation : Operation T) :
    queue.InBounds operation ↔ counted.Fresh operation := by
  have within := straight.within
  have read := straight.read
  cases operation with
  | push value =>
      unfold InBounds accesses Counted.Fresh Counted.Accepts
      simp only
      rw [← straight.represents.nextWrite_ne_read, ← straight.represents.tail]
      by_cases blocked : queue.nextWrite = queue.mRead
      · simp [blocked]
      · simp [blocked, straight.write, maxSize]
  | pop =>
      unfold InBounds accesses Counted.Fresh Counted.Accepts
      simp only [false_imp_iff, iff_true]
      intro position member
      by_cases nothing : queue.mRead = queue.mWrite
      · rw [if_pos nothing] at member
        cases member
      · rw [if_neg nothing, List.mem_singleton] at member
        rw [straight.represents.read_eq_write_iff] at nothing
        subst member
        change queue.mRead < queue.mTail
        omega
  | empty | full | setMaxSize _ => simp [InBounds, accesses, Counted.Fresh, Counted.Accepts]

theorem Straight.push {queue : RingQueue T} {counted : Counted T}
    (straight : Straight queue counted) (movedFrom : T → T) (value : T)
    (fresh : counted.Fresh (.push value)) :
    (queue.push movedFrom value).1.mRead + (counted.next movedFrom (.push value)).fifo.items.length =
        (counted.next movedFrom (.push value)).accepted ∧
      (counted.next movedFrom (.push value)).accepted ≤ (queue.push movedFrom value).1.mTail := by
  have within := straight.within
  have read := straight.read
  have tail := straight.represents.tail
  have room := straight.represents.nextWrite_ne_read
  unfold Counted.next BoundedFifo.perform RingQueue.push
  simp only
  cases accepted : counted.fifo.push value with
  | none =>
      have full : ¬counted.Accepts (.push value) := BoundedFifo.push_refused accepted
      have blocked : queue.nextWrite = queue.mRead := by
        by_contra free
        exact full (room.1 free)
      rw [if_pos blocked, if_neg full]
      exact ⟨read, within⟩
  | some longer =>
      rcases BoundedFifo.push_accepted accepted with ⟨short, capacity, items⟩
      have accepts : counted.Accepts (.push value) := short
      rw [if_neg (room.2 short), if_pos accepts]
      have below := fresh short
      change queue.mRead + longer.items.length = _ ∧ counted.accepted + 1 ≤ queue.mTail
      rw [items, List.length_append]
      change queue.mRead + (counted.fifo.items.length + 1) = counted.accepted + 1 ∧ _
      omega

theorem Straight.pop {queue : RingQueue T} {counted : Counted T}
    (straight : Straight queue counted) (movedFrom : T → T) :
    (queue.pop movedFrom).1.mRead + counted.fifo.dropOldest.items.length = counted.accepted ∧
      counted.accepted ≤ (queue.pop movedFrom).1.mTail := by
  have within := straight.within
  have read := straight.read
  have stored := straight.represents.read_eq_write_iff
  unfold RingQueue.pop BoundedFifo.dropOldest
  simp only
  rw [List.length_tail]
  by_cases nothing : queue.mRead = queue.mWrite
  · rw [if_pos nothing]
    have none_ := stored.1 nothing
    change queue.mRead + _ = _ ∧ counted.accepted ≤ queue.mTail
    omega
  · rw [if_neg nothing]
    have some_ : counted.fifo.items.length ≠ 0 := fun none_ => nothing (stored.2 none_)
    have before : queue.mRead ≠ queue.mTail := by omega
    change queue.nextRead + _ = _ ∧ counted.accepted ≤ queue.mTail
    unfold nextRead
    rw [if_neg before]
    omega

theorem Straight.perform [Inhabited T] {queue : RingQueue T} {counted : Counted T}
    (straight : Straight queue counted) (movedFrom : T → T) {operation : Operation T}
    (fresh : counted.Fresh operation) :
    Straight (queue.perform movedFrom operation).1 (counted.next movedFrom operation) := by
  have represents := (straight.represents.perform movedFrom operation).1
  cases operation with
  | push value =>
      rcases straight.push movedFrom value fresh with ⟨read, within⟩
      exact ⟨represents, read, within⟩
  | pop =>
      rcases straight.pop movedFrom with ⟨read, within⟩
      exact ⟨represents, read, within⟩
  | empty | full => exact ⟨represents, straight.read, straight.within⟩
  | setMaxSize maxSize => exact ⟨represents, rfl, Nat.zero_le _⟩

/-- The position after the last slot is used exactly by the histories that, without a
reset in between, accept more pushes than there are slots. -/
theorem in_bounds_iff_fresh [Inhabited T] (movedFrom : T → T) (maxSize : Nat)
    (operations : List (Operation T)) :
    (machine movedFrom maxSize).Along InBounds (setMaxSize maxSize) operations ↔
      (Counted.machine movedFrom maxSize).Along Counted.Fresh
        (Counted.machine movedFrom maxSize).initial operations := by
  have keeps : ∀ (queue : RingQueue T) counted operation, Straight queue counted →
      counted.Fresh operation →
      Straight ((machine movedFrom maxSize).next queue operation)
        ((Counted.machine movedFrom maxSize).next counted operation) := by
    intro queue counted operation straight fresh
    exact straight.perform movedFrom fresh
  apply Machine.along_related keeps
  · intro queue counted operation straight
    exact straight.inBounds_iff operation
  · exact ⟨Represents.setMaxSize maxSize, rfl, Nat.zero_le _⟩

/-- One slot: the second push writes the position after it. -/
theorem second_push_out_of_bounds :
    ¬∀ (maxSize : Nat) (operations : List (Operation Nat)),
      (machine id maxSize).Along InBounds (setMaxSize maxSize) operations := by
  intro claimed
  exact absurd (claimed 1 [.push 7, .pop, .push 8]) (by decide)

end MCoro.RingQueue
