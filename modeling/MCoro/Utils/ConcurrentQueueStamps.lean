/-
The stamps that advectRead and advectWrite lead to.

As long as `1 << Shift` is a positive int, a stamp holds two indices that move on
their own. From a capacity of 2^30 on it is negative, the mask that is made of it
leaves the carry of the read index in the write index, and a queue that is empty
again seems to hold something.
-/

import MCoro.Utils.ConcurrentQueueRuns

namespace MCoro.ConcurrentRingQueue

open PackedWord

variable {capacity : Nat}

/-- The stamps reached from 0, with the numbers of writes and of reads so far. -/
inductive Reaches : Stamp capacity → Nat → Nat → Prop
  | initial : Reaches 0 0 0
  | write {s : Stamp capacity} {writes reads : Nat} (reached : Reaches s writes reads)
      (room : canWrite s = true) : Reaches (advectWrite s) (writes + 1) reads
  | read {s : Stamp capacity} {writes reads : Nat} (reached : Reaches s writes reads)
      (some : canRead s = true) : Reaches (advectRead s) writes (reads + 1)

/-- The stamp holds the two indices of a queue with that many writes and reads. -/
structure Decodes (s : Stamp capacity) (writes reads : Nat) : Prop where
  ordered : reads ≤ writes
  bounded : writes - reads ≤ capacity
  read_lt : (offsetRead s).toNat < (kSize : Stamp capacity).toNat
  write_lt : (offsetWrite s).toNat < (kSize : Stamp capacity).toNat
  difference : ((offsetWrite s).toNat + (kSize : Stamp capacity).toNat - (offsetRead s).toNat) %
    (kSize : Stamp capacity).toNat = writes - reads
  canRead_iff : canRead s = true ↔ 0 < writes - reads
  canWrite_iff : canWrite s = true ↔ writes - reads < capacity
  advectRead : canRead s = true → offsetWrite (advectRead s) = offsetWrite s ∧
    (offsetRead (advectRead s)).toNat =
      ((offsetRead s).toNat + 1) % (kSize : Stamp capacity).toNat
  advectWrite : canWrite s = true → offsetRead (advectWrite s) = offsetRead s ∧
    (offsetWrite (advectWrite s)).toNat =
      ((offsetWrite s).toNat + 1) % (kSize : Stamp capacity).toNat

variable {s : Stamp capacity} {writes reads : Nat}

theorem Reaches.counts (fits : Fits capacity) (reached : Reaches s writes reads) :
    reads ≤ writes ∧ ∃ position, Counts s position (writes - reads) := by
  induction reached with
  | initial => exact ⟨Nat.le_refl 0, 0, .initial capacity⟩
  | write reached room ih =>
      obtain ⟨ordered, position, counts⟩ := ih
      have next := counts.advectWrite fits ((counts.canWrite_iff fits).1 room)
      rw [← Nat.sub_add_comm ordered] at next
      exact ⟨Nat.le_succ_of_le ordered, position, next⟩
  | read reached readable ih =>
      obtain ⟨ordered, position, counts⟩ := ih
      have nonempty := (counts.canRead_iff fits).1 readable
      obtain ⟨less, stored⟩ := Nat.exists_eq_succ_of_ne_zero nonempty
      rw [stored] at counts
      have next := counts.advectRead fits
      refine ⟨by omega, Circle.advance (lastSlot capacity) position, ?_⟩
      rw [Nat.sub_add_eq, stored]
      exact next

theorem Counts.decodes (fits : Fits capacity) {position : Nat} (ordered : reads ≤ writes)
    (counts : Counts s position (writes - reads)) : Decodes s writes reads := by
  have packed := counts.packed
  have size := kSize_toNat fits
  have read := offsetRead_toNat packed
  have write := offsetWrite_toNat fits packed
  constructor
  case ordered => exact ordered
  case bounded => exact counts.bounded
  case read_lt =>
    rw [read, size]
    exact packed.high_lt
  case write_lt =>
    rw [write, size]
    exact packed.low_lt
  case difference =>
    have below := lt_two_pow_shift capacity
    have bounded := counts.bounded
    have high := packed.high_lt
    rw [read, write, size, counts.write_eq, mod_of_lt_twice (by split <;> omega)]
    split <;> split <;> omega
  case canRead_iff =>
    rw [counts.canRead_iff fits]
    exact Nat.pos_iff_ne_zero.symm
  case canWrite_iff => exact counts.canWrite_iff fits
  case advectRead =>
    intro _
    have next := advectRead_packed fits packed
    constructor
    · apply BitVec.eq_of_toNat_eq
      rw [offsetWrite_toNat fits next, write]
    · rw [offsetRead_toNat next, read, size]
  case advectWrite =>
    intro _
    have next := advectWrite_packed fits packed
    constructor
    · apply BitVec.eq_of_toNat_eq
      rw [offsetRead_toNat next, read]
    · rw [offsetWrite_toNat fits next, write, size]

/-! ### A shift of 31 -/

theorem shift_of_large (large : 2 ^ 30 ≤ capacity) (asserted : Asserted capacity) :
    shift capacity = 31 := by
  have below := lt_two_pow_shift capacity
  have limit := asserted.2.1
  by_contra other
  have small : shift capacity ≤ 30 := by omega
  have power : 2 ^ shift capacity ≤ 2 ^ 30 := Nat.pow_le_pow_right (by decide) small
  omega

theorem fits_of_small (positive : 1 ≤ capacity) (small : capacity < 2 ^ 30)
    (asserted : Asserted capacity) : Fits capacity := by
  have narrow : shift capacity < 31 := by
    unfold shift
    rw [if_neg (by omega)]
    have log : capacity.log2 < 30 := (Nat.log2_lt (by omega)).2 small
    omega
  refine ⟨asserted, ?_⟩
  rw [kSize_toNat_of_shift asserted narrow]
  exact Nat.pow_lt_pow_right (by decide) (by omega)

/-- kSize with a negative int. -/
def signedSize : BitVec 64 :=
  0xFFFFFFFF80000000

theorem free_index_ne {read write : BitVec 64} (small : write.toNat ≤ 2)
    (lower : (read &&& (signedSize - 1)).getLsbD 40 = false) (below : capacity < 2 ^ 31) :
    decide ((read &&& (signedSize - 1)) ≠
      ((write + (signedSize - BitVec.ofNat 64 capacity)) &&& (signedSize - 1))) = true := by
  have sum : (write + (signedSize - BitVec.ofNat 64 capacity)).toNat =
      write.toNat + (0xFFFFFFFF80000000 - capacity) := by
    unfold signedSize
    bv_omega
  have mask : (signedSize - 1).getLsbD 40 = true := by decide
  have upper : ((write + (signedSize - BitVec.ofNat 64 capacity)) &&&
      (signedSize - 1)).getLsbD 40 = true := by
    rw [BitVec.getLsbD_and, mask, Bool.and_true, BitVec.getLsbD, sum,
      Nat.testBit_eq_decide_div_mod_eq, decide_eq_true_eq]
    omega
  rw [decide_eq_true_eq]
  intro same
  rw [same, upper] at lower
  cases lower

/-- Two writes and two reads: the stamp is 2^32 + 2, whose write index is not 2. -/
theorem stamps_of_shift_31 (below : capacity < 2 ^ 31) (shifted : shift capacity = 31) :
    canWrite (0 : Stamp capacity) = true ∧
      canRead (advectWrite 0 : Stamp capacity) = true ∧
      canWrite (advectRead (advectWrite 0) : Stamp capacity) = true ∧
      canRead (advectWrite (advectRead (advectWrite 0)) : Stamp capacity) = true ∧
      canRead (advectRead (advectWrite (advectRead (advectWrite 0))) : Stamp capacity) = true := by
  obtain ⟨bits, value⟩ := kSize_of_shift_31 shifted
  unfold canWrite canRead advectRead advectWrite offsetRead offsetWrite
  rw [shifted]
  -- nothing else depends on the capacity than the width and kSize
  generalize (kSize : Stamp capacity) = size at value ⊢
  unfold Stamp at size ⊢
  generalize stampBits capacity = width at bits size value ⊢
  subst bits
  have same : size = signedSize := BitVec.eq_of_toNat_eq value
  rw [same]
  refine ⟨?_, by decide, ?_, by decide, by decide⟩
  · exact free_index_ne (by decide) (by decide) below
  · exact free_index_ne (by decide) (by decide) below

theorem Reaches.shift_31 (below : capacity < 2 ^ 31) (shifted : shift capacity = 31) :
    ∃ s : Stamp capacity, Reaches s 2 2 ∧ canRead s = true := by
  obtain ⟨first, second, third, fourth, readable⟩ := stamps_of_shift_31 below shifted
  exact ⟨_, .read (.write (.read (.write .initial first) second) third) fourth, readable⟩

/-! ### What the stamps promise -/

/-- Every stamp that is reached holds the two indices just below a capacity of 2^30. -/
theorem stamps_decode_iff (capacity : Nat) (positive : 1 ≤ capacity)
    (asserted : Asserted capacity) :
    (∀ (s : Stamp capacity) (writes reads : Nat), Reaches s writes reads →
        Decodes s writes reads) ↔
      capacity < 2 ^ 30 := by
  have below := lt_two_pow_shift capacity
  have limit := asserted.2.1
  constructor
  · intro decodes
    by_contra large
    have shifted := shift_of_large (Nat.le_of_not_lt large) asserted
    rw [shifted] at below
    obtain ⟨s, reached, readable⟩ := Reaches.shift_31 below shifted
    exact absurd ((decodes s 2 2 reached).canRead_iff.1 readable) (Nat.lt_irrefl 0)
  · intro small s writes reads reached
    have fits := fits_of_small positive small asserted
    obtain ⟨ordered, position, counts⟩ := reached.counts fits
    exact counts.decodes fits ordered

theorem stamps_decode_iff_three :
    3 < 2 ^ 30 ∧
      ∀ (s : Stamp 3) (writes reads : Nat), Reaches s writes reads → Decodes s writes reads :=
  ⟨by decide, (stamps_decode_iff 3 (by decide) (by decide)).2 (by decide)⟩

/-- Two writes and two reads with a capacity of 2^30. -/
theorem empty_stamp_is_readable :
    1 ≤ 2 ^ 30 ∧ Asserted (2 ^ 30) ∧
      ∃ s : Stamp (2 ^ 30), Reaches s 2 2 ∧ canRead s = true ∧ ¬Decodes s 2 2 := by
  refine ⟨by decide, by decide, ?_⟩
  obtain ⟨s, reached, readable⟩ :=
    Reaches.shift_31 (by decide : 2 ^ 30 < 2 ^ 31) (by decide : shift (2 ^ 30) = 31)
  refine ⟨s, reached, readable, ?_⟩
  intro decodes
  exact absurd (decodes.canRead_iff.1 readable) (Nat.lt_irrefl 0)

end MCoro.ConcurrentRingQueue
