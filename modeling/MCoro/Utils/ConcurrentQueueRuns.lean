/-
Histories of a ConcurrentRingQueue whose calls do not overlap.

push leaves its loop with the stamp it has stored, so it writes the slot after the one
that is its own, while pop reads the slot that is its own. The elements therefore lie
one slot behind the read position, and each pop returns what the pop before it should
have returned; the first one returns a slot as it was initialised.
-/

import MCoro.Utils.ConcurrentQueue

namespace MCoro.ConcurrentRingQueue

open PackedWord

/-! ### The stamp -/

section Stamps

variable {capacity : Nat}

theorem lt_two_pow_shift (capacity : Nat) : capacity < 2 ^ shift capacity := by
  unfold shift
  by_cases zero : capacity = 0
  · rw [if_pos zero, zero]
    decide
  · rw [if_neg zero]
    exact Nat.lt_log2_self

theorem shift_lt_stampBits (asserted : Asserted capacity) :
    shift capacity < stampBits capacity := by
  have wide : 8 ≤ stampBits capacity := by
    unfold stampBits
    split
    · decide
    · split
      · decide
      · split <;> decide
  have half := asserted.1
  omega

theorem kSize_toNat_of_shift (asserted : Asserted capacity) (positive : shift capacity < 31) :
    (kSize : Stamp capacity).toNat = 2 ^ shift capacity := by
  have int : 2 ^ shift capacity < 2 ^ 31 := Nat.pow_lt_pow_right (by decide) positive
  have value : (oneShifted capacity).toNat = 2 ^ shift capacity := by
    unfold oneShifted
    rw [BitVec.toNat_shiftLeft, Nat.shiftLeft_eq]
    change 1 * _ % _ = _
    rw [one_mul]
    exact Nat.mod_eq_of_lt (int.trans (by decide))
  have msb : (oneShifted capacity).msb = false := by
    rw [BitVec.msb_eq_decide, value]
    exact decide_eq_false (Nat.not_le.2 int)
  unfold kSize
  rw [BitVec.signExtend_eq_setWidth_of_msb_false msb, BitVec.toNat_setWidth, value]
  exact Nat.mod_eq_of_lt (Nat.pow_lt_pow_right (by decide) (shift_lt_stampBits asserted))

/-- With a shift of 31 the int is negative, and its sign goes into the word. -/
theorem kSize_of_shift_31 (shifted : shift capacity = 31) :
    stampBits capacity = 64 ∧ (kSize : Stamp capacity).toNat = 2 ^ 64 - 2 ^ 31 := by
  have bits : stampBits capacity = 64 := by
    unfold stampBits
    rw [shifted]
    rfl
  have value (width : Nat) (wide : width = 64) :
      (((1 : BitVec 32) <<< 31).signExtend width).toNat = 2 ^ 64 - 2 ^ 31 := by
    rw [wide]
    decide
  refine ⟨bits, ?_⟩
  unfold kSize oneShifted
  rw [shifted]
  exact value _ bits

theorem Fits.shift_lt (fits : Fits capacity) : shift capacity < 31 := by
  have below := fits.1.2.1
  by_contra large
  have slots := fits.2
  rw [(kSize_of_shift_31 (by omega)).2] at slots
  exact absurd slots (by decide)

theorem Fits.narrow (fits : Fits capacity) : shift capacity < stampBits capacity :=
  shift_lt_stampBits fits.1

theorem Fits.toNat_lt (fits : Fits capacity) {value : Nat} (small : value < 2 ^ shift capacity) :
    value < 2 ^ stampBits capacity :=
  small.trans (Nat.pow_lt_pow_right (by decide) fits.narrow)

theorem Fits.wide (fits : Fits capacity) : 2 * shift capacity ≤ stampBits capacity := by
  rw [Nat.mul_comm]
  exact fits.1.1

theorem kSize_toNat (fits : Fits capacity) :
    (kSize : Stamp capacity).toNat = 2 ^ shift capacity :=
  kSize_toNat_of_shift fits.1 fits.shift_lt

theorem Fits.kSize_eq (fits : Fits capacity) :
    (kSize : Stamp capacity) = (1 : Stamp capacity) <<< shift capacity := by
  have narrow := fits.narrow
  have unit : (1 : Stamp capacity).toNat = 1 := by
    change 1 % 2 ^ stampBits capacity = 1
    exact Nat.mod_eq_of_lt (Nat.one_lt_two_pow (by omega))
  have small : 2 ^ shift capacity < 2 ^ stampBits capacity :=
    Nat.pow_lt_pow_right (by decide) narrow
  apply BitVec.eq_of_toNat_eq
  rw [kSize_toNat fits, BitVec.toNat_shiftLeft, unit, Nat.shiftLeft_eq, one_mul]
  exact (Nat.mod_eq_of_lt small).symm

theorem and_kSize (fits : Fits capacity) (s : Stamp capacity) :
    (s &&& (kSize - 1)).toNat = s.toNat % 2 ^ shift capacity := by
  rw [fits.kSize_eq]
  exact and_mask_toNat fits.narrow s

theorem mod_of_lt_twice {sum size : Nat} (short : sum < 2 * size) :
    sum % size = if sum < size then sum else sum - size := by
  split
  · exact Nat.mod_eq_of_lt ‹_›
  · rw [Nat.mod_eq_sub_mod (by omega)]
    exact Nat.mod_eq_of_lt (by omega)

variable {s : Stamp capacity} {read write : Nat}

theorem offsetRead_toNat (packed : Packed (shift capacity) s read write) :
    (offsetRead s).toNat = read :=
  packed.shiftRight

theorem offsetWrite_toNat (fits : Fits capacity) (packed : Packed (shift capacity) s read write) :
    (offsetWrite s).toNat = write := by
  unfold offsetWrite
  rw [fits.kSize_eq]
  exact packed.and_mask fits.narrow

theorem canRead_iff (fits : Fits capacity) (packed : Packed (shift capacity) s read write) :
    canRead s = true ↔ read ≠ write := by
  unfold canRead
  rw [decide_eq_true_eq, Ne, ← BitVec.toNat_inj, offsetRead_toNat packed,
    offsetWrite_toNat fits packed]

theorem canWrite_iff (fits : Fits capacity) (packed : Packed (shift capacity) s read write) :
    canWrite s = true ↔
      read ≠ (write + (2 ^ shift capacity - capacity)) % 2 ^ shift capacity := by
  have below := lt_two_pow_shift capacity
  have count : (BitVec.ofNat (stampBits capacity) capacity).toNat = capacity :=
    Nat.mod_eq_of_lt (fits.toNat_lt below)
  have gap : (kSize - BitVec.ofNat _ capacity : Stamp capacity).toNat =
      2 ^ shift capacity - capacity := by
    rw [BitVec.toNat_sub_of_le, kSize_toNat fits, count]
    rw [BitVec.le_def, kSize_toNat fits, count]
    exact below.le
  have free : ((offsetWrite s + (kSize - BitVec.ofNat _ capacity)) &&& (kSize - 1)).toNat =
      (write + (2 ^ shift capacity - capacity)) % 2 ^ shift capacity := by
    have divides : 2 ^ shift capacity ∣ 2 ^ stampBits capacity :=
      pow_dvd_pow 2 fits.narrow.le
    rw [and_kSize fits, BitVec.toNat_add, offsetWrite_toNat fits packed, gap, Nat.mod_mod_of_dvd _ divides]
  have own : (offsetRead s &&& (kSize - 1)).toNat = read := by
    rw [and_kSize fits, offsetRead_toNat packed]
    exact Nat.mod_eq_of_lt packed.high_lt
  unfold canWrite
  rw [decide_eq_true_eq, Ne, ← BitVec.toNat_inj, free, own]

theorem next_toNat (fits : Fits capacity) (offset : Stamp capacity) :
    ((offset + 1) &&& (kSize - 1)).toNat = (offset.toNat + 1) % 2 ^ shift capacity := by
  have divides : 2 ^ shift capacity ∣ 2 ^ stampBits capacity := pow_dvd_pow 2 fits.narrow.le
  rw [and_kSize fits, BitVec.toNat_add]
  change (offset.toNat + 1 % 2 ^ stampBits capacity) % 2 ^ stampBits capacity % _ = _
  rw [Nat.add_mod_mod, Nat.mod_mod_of_dvd _ divides]

theorem advectRead_packed (fits : Fits capacity) (packed : Packed (shift capacity) s read write) :
    Packed (shift capacity) (advectRead s) ((read + 1) % 2 ^ shift capacity) write := by
  have high : (((s >>> shift capacity) + 1) &&& (kSize - 1)).toNat =
      (read + 1) % 2 ^ shift capacity := by
    rw [next_toNat fits, packed.shiftRight]
  have low : (s &&& (kSize - 1)).toNat = write := offsetWrite_toNat fits packed
  have high_lt := Nat.mod_lt (read + 1) (Nat.two_pow_pos (shift capacity))
  have low_lt := packed.low_lt
  rw [← high] at high_lt
  rw [← low] at low_lt
  have result := packed_or fits.wide high_lt low_lt
  rw [high, low] at result
  exact result

theorem advectWrite_packed (fits : Fits capacity) (packed : Packed (shift capacity) s read write) :
    Packed (shift capacity) (advectWrite s) read ((write + 1) % 2 ^ shift capacity) := by
  have low : (((s &&& (kSize - 1)) + 1) &&& (kSize - 1)).toNat =
      (write + 1) % 2 ^ shift capacity := by
    have own : (s &&& (kSize - 1)).toNat = write := offsetWrite_toNat fits packed
    rw [next_toNat fits, own]
  have high : ((s >>> shift capacity) &&& (kSize - 1)).toNat = read := by
    rw [and_kSize fits, packed.shiftRight]
    exact Nat.mod_eq_of_lt packed.high_lt
  have high_lt := packed.high_lt
  have low_lt := Nat.mod_lt (write + 1) (Nat.two_pow_pos (shift capacity))
  rw [← high] at high_lt
  rw [← low] at low_lt
  have result := packed_or fits.wide high_lt low_lt
  rw [high, low, ← and_shiftLeft, BitVec.or_comm] at result
  exact result

def lastSlot (capacity : Nat) : Nat :=
  2 ^ shift capacity - 1

theorem lastSlot_succ (capacity : Nat) : lastSlot capacity + 1 = 2 ^ shift capacity :=
  Nat.sub_add_cancel Nat.one_le_two_pow

theorem capacity_le_lastSlot (capacity : Nat) : capacity ≤ lastSlot capacity := by
  have below := lt_two_pow_shift capacity
  have whole := lastSlot_succ capacity
  omega

/-- The stamp of a queue that stores `count` elements. -/
structure Counts (s : Stamp capacity) (read count : Nat) : Prop where
  packed : Packed (shift capacity) s read (Circle.travel (lastSlot capacity) read count)
  bounded : count ≤ capacity

variable {count : Nat}

theorem Counts.initial (capacity : Nat) : Counts (0 : Stamp capacity) 0 0 := by
  have room := Nat.two_pow_pos (shift capacity)
  refine ⟨⟨?_, room, room⟩, Nat.zero_le capacity⟩
  change 0 = 0 * 2 ^ shift capacity + 0
  omega

theorem Counts.within (counts : Counts s read count) : read ≤ lastSlot capacity := by
  have below := counts.packed.high_lt
  have whole := lastSlot_succ capacity
  omega

theorem Counts.write_eq (counts : Counts s read count) :
    Circle.travel (lastSlot capacity) read count =
      if read + count < 2 ^ shift capacity then read + count
      else read + count - 2 ^ shift capacity := by
  have below := lt_two_pow_shift capacity
  have bounded := counts.bounded
  have high := counts.packed.high_lt
  rw [Circle.travel_eq counts.within, lastSlot_succ]
  exact mod_of_lt_twice (by omega)

theorem Counts.canRead_iff (fits : Fits capacity) (counts : Counts s read count) :
    canRead s = true ↔ count ≠ 0 := by
  rw [ConcurrentRingQueue.canRead_iff fits counts.packed, ne_comm, Ne, Ne,
    Circle.travel_eq_self counts.within (counts.bounded.trans (capacity_le_lastSlot capacity))]

theorem Counts.canWrite_iff (fits : Fits capacity) (counts : Counts s read count) :
    canWrite s = true ↔ count < capacity := by
  have below := lt_two_pow_shift capacity
  have bounded := counts.bounded
  have high := counts.packed.high_lt
  have low := counts.packed.low_lt
  rw [ConcurrentRingQueue.canWrite_iff fits counts.packed, mod_of_lt_twice (by omega)]
  rw [counts.write_eq] at low ⊢
  split <;> split <;> omega

theorem Counts.advectRead (fits : Fits capacity) (counts : Counts s read (count + 1)) :
    Counts (advectRead s) (Circle.advance (lastSlot capacity) read) count := by
  have next := Circle.travel_eq counts.within 1
  rw [lastSlot_succ] at next
  have packed := advectRead_packed fits counts.packed
  rw [← next] at packed
  exact ⟨packed, (Nat.le_succ count).trans counts.bounded⟩

theorem Counts.advectWrite (fits : Fits capacity) (counts : Counts s read count)
    (room : count < capacity) : Counts (advectWrite s) read (count + 1) := by
  have within : Circle.travel (lastSlot capacity) read count ≤ lastSlot capacity := by
    have low := counts.packed.low_lt
    have whole := lastSlot_succ capacity
    omega
  have next := Circle.travel_eq within 1
  rw [lastSlot_succ] at next
  have packed := advectWrite_packed fits counts.packed
  rw [← next] at packed
  change Packed _ _ read (Circle.advance _ _) at packed
  rw [← Circle.travel_succ] at packed
  exact ⟨packed, room⟩

theorem Counts.advectWrite_ne (fits : Fits capacity) (counts : Counts s read count)
    (room : count < capacity) : ConcurrentRingQueue.advectWrite s ≠ s := by
  intro same
  have old := offsetWrite_toNat fits counts.packed
  have new := offsetWrite_toNat fits (counts.advectWrite fits room).packed
  have short := room.trans_le (capacity_le_lastSlot capacity)
  rw [same, old] at new
  have equal := Circle.travel_injective counts.within short.le short new
  omega

end Stamps

/-! ### The calls -/

section Calls

variable {T : Type} {capacity : Nat} {queue : ConcurrentRingQueue T capacity} {read count : Nat}

theorem popLoop_swaps (fuel : Nat) :
    queue.popLoop queue.mStamp (fuel + 1) =
      some ({ queue with mStamp := advectRead queue.mStamp }, some queue.mStamp) := by
  unfold popLoop compareExchange
  rw [if_pos rfl]

/-- The first exchange succeeds, the second one fails and reads the new stamp. -/
theorem pushLoop_swaps (fits : Fits capacity) (counts : Counts queue.mStamp read count)
    (room : count < capacity) (fuel : Nat) :
    queue.pushLoop queue.mStamp (fuel + 2) =
      some ({ queue with mStamp := advectWrite queue.mStamp }, some (advectWrite queue.mStamp)) := by
  have writable := (counts.canWrite_iff fits).2 room
  unfold pushLoop compareExchange
  rw [if_pos rfl]
  change (if !canWrite queue.mStamp then _ else _) = _
  rw [writable]
  change pushLoop _ _ (fuel + 1) = _
  unfold pushLoop compareExchange
  rw [if_neg (counts.advectWrite_ne fits room)]

variable (movedFrom : T → T)

theorem push_full (fits : Fits capacity) (counts : Counts queue.mStamp read count)
    (full : ¬count < capacity) (fuel : Nat) (value : T) :
    queue.push movedFrom fuel value = some (queue, false, value) := by
  have blocked : canWrite queue.mStamp = false := by
    rw [← Bool.not_eq_true, counts.canWrite_iff fits]
    exact full
  unfold push
  dsimp only
  rw [blocked]
  rfl

theorem push_room (fits : Fits capacity) (counts : Counts queue.mStamp read count)
    (room : count < capacity) (fuel : Nat) (value : T) :
    queue.push movedFrom (fuel + 2) value =
      some ({ mHead := Function.update queue.mHead
                (Circle.travel (lastSlot capacity) read (count + 1)) value
              mStamp := advectWrite queue.mStamp }, true, movedFrom value) := by
  have writable := (counts.canWrite_iff fits).2 room
  have slot := offsetWrite_toNat fits (counts.advectWrite fits room).packed
  unfold push
  dsimp only
  rw [writable, pushLoop_swaps fits counts room]
  change some (_, true, _) = _
  rw [slot]

theorem pop_empty (fits : Fits capacity) (counts : Counts queue.mStamp read 0) (fuel : Nat) :
    queue.pop movedFrom fuel = some (queue, none) := by
  have unreadable : canRead queue.mStamp = false := by
    rw [← Bool.not_eq_true, counts.canRead_iff fits]
    exact not_not_intro rfl
  unfold pop
  dsimp only
  rw [unreadable]
  rfl

theorem pop_nonempty (fits : Fits capacity) (counts : Counts queue.mStamp read (count + 1))
    (fuel : Nat) :
    queue.pop movedFrom (fuel + 1) =
      some ({ mHead := Function.update queue.mHead read (movedFrom (queue.mHead read))
              mStamp := advectRead queue.mStamp }, some (queue.mHead read)) := by
  have readable := (counts.canRead_iff fits).2 (Nat.succ_ne_zero count)
  unfold pop
  dsimp only
  rw [readable, popLoop_swaps]
  change some (_, some _) = _
  rw [offsetRead_toNat counts.packed]

end Calls

/-! ### The list that is one element late -/

variable {T : Type}

/-- A bounded list, and the element that the last pop should have returned. -/
structure Late (T : Type) where
  fifo : BoundedFifo T
  previous : T

namespace Late

def ofCapacity [Inhabited T] (capacity : Nat) : Late T :=
  { fifo := .ofCapacity capacity
    previous := default }

variable (movedFrom : T → T)

def perform (late : Late T) : Operation T → Late T × RingQueue.Answer T
  | .push value =>
      ({ late with fifo := (late.fifo.perform movedFrom (.push value)).1 },
        (late.fifo.perform movedFrom (.push value)).2)
  | .pop =>
      match late.fifo.items with
      | [] => (late, .popped none)
      | oldest :: _ =>
          ({ fifo := late.fifo.dropOldest
             previous := oldest }, .popped (some late.previous))

theorem push_refused (late : Late T) {value : T} (refused : late.fifo.push value = none) :
    late.perform movedFrom (.push value) = (late, .pushed false value) := by
  have same : late.fifo.perform movedFrom (.push value) = (late.fifo, .pushed false value) := by
    change (late.fifo.push value).elim _ _ = _
    rw [refused]
    rfl
  unfold perform
  dsimp only
  rw [same]

theorem push_accepted (late : Late T) {value : T} {longer : BoundedFifo T}
    (accepted : late.fifo.push value = some longer) :
    late.perform movedFrom (.push value) =
      ({ late with fifo := longer }, .pushed true (movedFrom value)) := by
  have same : late.fifo.perform movedFrom (.push value) =
      (longer, .pushed true (movedFrom value)) := by
    change (late.fifo.push value).elim _ _ = _
    rw [accepted]
    rfl
  unfold perform
  dsimp only
  rw [same]

theorem pop_nil (late : Late T) (empty : late.fifo.items = []) :
    late.perform movedFrom .pop = (late, .popped none) := by
  unfold perform
  dsimp only
  rw [empty]

theorem pop_cons (late : Late T) {oldest : T} {rest : List T}
    (stored : late.fifo.items = oldest :: rest) :
    late.perform movedFrom .pop =
      ({ fifo := late.fifo.dropOldest
         previous := oldest }, .popped (some late.previous)) := by
  unfold perform
  dsimp only
  rw [stored]

def answers (late : Late T) : List (Operation T) → List (RingQueue.Answer T)
  | [] => []
  | operation :: rest =>
      (late.perform movedFrom operation).2 :: (late.perform movedFrom operation).1.answers rest

end Late

/-- What the list of the source's contract answers. -/
def fifoAnswers (movedFrom : T → T) (fifo : BoundedFifo T) :
    List (Operation T) → List (RingQueue.Answer T)
  | [] => []
  | operation :: rest =>
      (fifo.perform movedFrom operation.ring).2 ::
        fifoAnswers movedFrom (fifo.perform movedFrom operation.ring).1 rest

/-- The elements that the list hands out, in order. -/
def handedOut (movedFrom : T → T) (fifo : BoundedFifo T) : List (Operation T) → List T
  | [] => []
  | .push value :: rest => handedOut movedFrom (fifo.perform movedFrom (.push value)).1 rest
  | .pop :: rest => fifo.items.head?.toList ++ handedOut movedFrom fifo.dropOldest rest

/-! ### The queue is late -/

structure Represents {capacity : Nat} (queue : ConcurrentRingQueue T capacity) (late : Late T)
    (read : Nat) : Prop where
  size : late.fifo.capacity = capacity
  counts : Counts queue.mStamp read late.fifo.items.length
  /-- The slot of the read position is one behind. -/
  contents : Circle.Holds (lastSlot capacity) queue.mHead read (late.previous :: late.fifo.items)

section Refinement

variable {capacity : Nat} {queue : ConcurrentRingQueue T capacity} {late : Late T} {read : Nat}
  (movedFrom : T → T)

theorem Represents.initial [Inhabited T] (capacity : Nat) :
    Represents (initial : ConcurrentRingQueue T capacity) (.ofCapacity capacity) 0 := by
  constructor
  case size => rfl
  case counts => exact Counts.initial capacity
  case contents => exact ⟨rfl, trivial⟩

omit movedFrom in
theorem Represents.room_iff (represents : Represents queue late read) :
    late.fifo.items.length < late.fifo.capacity ↔ late.fifo.items.length < capacity := by
  rw [represents.size]

theorem Represents.push (represents : Represents queue late read) (fits : Fits capacity)
    (fuel : Nat) (value : T) :
    ∃ next, queue.perform movedFrom (fuel + 2) (.push value) =
        some (next, (late.perform movedFrom (.push value)).2) ∧
      Represents next (late.perform movedFrom (.push value)).1 read := by
  have counts := represents.counts
  cases accepted : late.fifo.push value with
  | none =>
      have full := BoundedFifo.push_refused accepted
      rw [represents.room_iff] at full
      refine ⟨queue, ?_, ?_⟩
      · rw [late.push_refused movedFrom accepted]
        change (queue.push movedFrom (fuel + 2) value).map _ = _
        rw [push_full movedFrom fits counts full]
        rfl
      · rw [late.push_refused movedFrom accepted]
        exact represents
  | some longer =>
      obtain ⟨room, sameCapacity, items⟩ := BoundedFifo.push_accepted accepted
      rw [represents.room_iff] at room
      rw [late.push_accepted movedFrom accepted]
      have performs := congrArg (Option.map fun reply =>
        (reply.1, RingQueue.Answer.pushed reply.2.1 reply.2.2))
        (push_room movedFrom fits counts room fuel value)
      refine ⟨_, performs, ?_⟩
      constructor
      case size => exact sameCapacity.trans represents.size
      case counts =>
        change Counts _ read longer.items.length
        rw [items, List.length_append]
        exact counts.advectWrite fits room
      case contents =>
        change Circle.Holds _ _ read (late.previous :: longer.items)
        rw [items, ← List.cons_append]
        exact represents.contents.append counts.within
          (Nat.succ_le_of_lt (room.trans_le (capacity_le_lastSlot capacity))) value

theorem Represents.pop (represents : Represents queue late read) (fits : Fits capacity)
    (fuel : Nat) :
    ∃ next position, queue.perform movedFrom (fuel + 2) .pop =
        some (next, (late.perform movedFrom .pop).2) ∧
      Represents next (late.perform movedFrom .pop).1 position := by
  have counts := represents.counts
  have contents := represents.contents
  cases stored : late.fifo.items with
  | nil =>
      rw [stored] at counts
      rw [late.pop_nil movedFrom stored]
      refine ⟨queue, read, ?_, represents⟩
      change (queue.pop movedFrom (fuel + 2)).map _ = _
      rw [pop_empty movedFrom fits counts]
      rfl
  | cons oldest rest =>
      rw [stored] at counts contents
      rw [late.pop_cons movedFrom stored]
      have outside : ∀ distance, distance < (oldest :: rest).length →
          Circle.travel (lastSlot capacity) (Circle.advance (lastSlot capacity) read) distance ≠
            read := by
        intro distance short back
        have round : distance + 1 ≤ lastSlot capacity := by
          have bounded := counts.bounded.trans (capacity_le_lastSlot capacity)
          rw [List.length_cons] at bounded short
          omega
        have none := (Circle.travel_eq_self counts.within round).1 back
        cases none
      have performs := congrArg (Option.map fun reply =>
        (reply.1, RingQueue.Answer.popped reply.2)) (pop_nonempty movedFrom fits counts (fuel + 1))
      rw [contents.1] at performs
      refine ⟨_, Circle.advance (lastSlot capacity) read, performs, ?_⟩
      constructor
      case size => exact represents.size
      case counts =>
        change Counts _ _ late.fifo.items.tail.length
        rw [stored]
        exact counts.advectRead fits
      case contents =>
        change Circle.Holds _ _ _ (oldest :: late.fifo.items.tail)
        rw [stored]
        exact contents.2.update outside _

theorem Represents.answers (represents : Represents queue late read) (fits : Fits capacity)
    (fuel : Nat) (operations : List (Operation T)) :
    queue.answers movedFrom (fuel + 2) operations = some (late.answers movedFrom operations) := by
  induction operations generalizing queue late read with
  | nil => rfl
  | cons operation rest ih =>
      have step : ∃ next position, queue.perform movedFrom (fuel + 2) operation =
            some (next, (late.perform movedFrom operation).2) ∧
          Represents next (late.perform movedFrom operation).1 position := by
        cases operation with
        | push value =>
            obtain ⟨next, performs, kept⟩ := represents.push movedFrom fits fuel value
            exact ⟨next, read, performs, kept⟩
        | pop => exact represents.pop movedFrom fits fuel
      obtain ⟨next, position, performs, kept⟩ := step
      unfold ConcurrentRingQueue.answers
      rw [performs]
      change (next.answers movedFrom (fuel + 2) rest).map _ = _
      rw [ih kept]
      rfl

end Refinement

theorem dropOldest_empty {fifo : BoundedFifo T} (empty : fifo.items = []) :
    fifo.dropOldest = fifo := by
  cases fifo with
  | mk capacity items bounded =>
      cases empty
      rfl

/-- The late list answers as the list does when every element handed out is the one
before it. -/
theorem late_answers_iff (movedFrom : T → T) (late : Late T) (operations : List (Operation T)) :
    late.answers movedFrom operations = fifoAnswers movedFrom late.fifo operations ↔
      ∀ value ∈ handedOut movedFrom late.fifo operations, value = late.previous := by
  induction operations generalizing late with
  | nil => exact ⟨nofun, fun _ => rfl⟩
  | cons operation rest ih =>
      cases operation with
      | push value =>
          have later := ih (late.perform movedFrom (.push value)).1
          change _ :: _ = _ :: _ ↔ _
          rw [List.cons.injEq]
          exact ⟨fun same => later.1 same.2, fun every => ⟨rfl, later.2 every⟩⟩
      | pop =>
          change _ :: _ = (RingQueue.Answer.popped late.fifo.items.head?) :: _ ↔
            ∀ value ∈ late.fifo.items.head?.toList ++ _, _
          rw [List.cons.injEq]
          have later := ih (late.perform movedFrom .pop).1
          cases stored : late.fifo.items with
          | nil =>
              have same : late.fifo.dropOldest = late.fifo := dropOldest_empty stored
              change (_ = RingQueue.Answer.popped none ∧ _ = fifoAnswers _ late.fifo.dropOldest _) ↔
                ∀ value ∈ handedOut movedFrom late.fifo.dropOldest rest, _
              rw [late.pop_nil movedFrom stored] at later ⊢
              rw [same]
              exact ⟨fun both => later.1 both.2, fun every => ⟨rfl, later.2 every⟩⟩
          | cons oldest items =>
              change (_ = RingQueue.Answer.popped (some oldest) ∧
                _ = fifoAnswers _ late.fifo.dropOldest _) ↔
                ∀ value ∈ oldest :: handedOut movedFrom late.fifo.dropOldest rest, _
              rw [late.pop_cons movedFrom stored] at later ⊢
              constructor
              · intro both
                have same : late.previous = oldest :=
                  Option.some.inj (RingQueue.Answer.popped.inj both.1)
                intro value met
                rw [same]
                rcases List.mem_cons.1 met with first | further
                · exact first
                · exact later.1 both.2 value further
              · intro every
                have same : oldest = late.previous := every oldest List.mem_cons_self
                rw [← same]
                refine ⟨rfl, later.2 ?_⟩
                intro value further
                exact (every value (List.mem_cons_of_mem oldest further)).trans same.symm

/-- A history is one of the bounded list of that capacity just when every element that
the list hands out equals a value-initialised slot. -/
theorem answers_fifo_iff [Inhabited T] (movedFrom : T → T) (capacity : Nat) (fits : Fits capacity)
    (operations : List (Operation T)) (fuel : Nat) (enough : 2 ≤ fuel) :
    (initial : ConcurrentRingQueue T capacity).answers movedFrom fuel operations =
        some (fifoAnswers movedFrom (.ofCapacity capacity) operations) ↔
      ∀ value ∈ handedOut movedFrom (.ofCapacity capacity) operations, value = default := by
  obtain ⟨more, rfl⟩ := Nat.exists_eq_add_of_le' enough
  rw [(Represents.initial capacity).answers movedFrom fits, Option.some.injEq]
  exact late_answers_iff movedFrom (.ofCapacity capacity) operations

theorem answers_fifo_iff_three :
    (initial : ConcurrentRingQueue Nat 3).answers id 2 [.push 0, .push 7, .pop] =
      some (fifoAnswers id (.ofCapacity 3) [.push 0, .push 7, .pop]) :=
  (answers_fifo_iff id 3 (by decide) [.push 0, .push 7, .pop] 2 (Nat.le_refl 2)).2 (by decide)

theorem first_pop_is_default :
    Fits 1 ∧
      (initial : ConcurrentRingQueue Nat 1).answers id 2 [.push 7, .pop] =
        some [.pushed true 7, .popped (some 0)] ∧
      (initial : ConcurrentRingQueue Nat 1).answers id 2 [.push 7, .pop] ≠
        some (fifoAnswers id (.ofCapacity 1) [.push 7, .pop]) := by
  decide

end MCoro.ConcurrentRingQueue
