/-
Words that count, and words of two fields.
-/

import Mathlib

namespace MCoro

theorem toNat_sub_one {counter : UInt32} (positive : counter ≠ 0) :
    (counter - 1).toNat + 1 = counter.toNat := by
  have nonzero : counter.toNat ≠ 0 := by
    intro zero
    exact positive (UInt32.toNat_inj.1 zero)
  have least : 1 ≤ counter := by
    rw [UInt32.le_iff_toNat_le]
    change 1 ≤ counter.toNat
    omega
  rw [UInt32.toNat_sub_of_le _ _ least]
  change counter.toNat - 1 + 1 = counter.toNat
  omega

theorem toNat_add_one {counter limit : UInt32} (within : counter ≤ limit)
    (below : counter ≠ limit) :
    counter + 1 ≤ limit ∧ (counter + 1).toNat = counter.toNat + 1 := by
  have different : counter.toNat ≠ limit.toNat := by
    intro same
    exact below (UInt32.toNat_inj.1 same)
  have small := limit.toNat_lt
  rw [UInt32.le_iff_toNat_le] at within
  have sum : (counter + 1).toNat = counter.toNat + 1 := by
    rw [UInt32.toNat_add]
    exact Nat.mod_eq_of_lt (by change counter.toNat + 1 < _; omega)
  constructor
  · rw [UInt32.le_iff_toNat_le, sum]
    omega
  · exact sum

/-- Within 2^32 additions the word does not come back. -/
theorem eq_of_recent {increments stamp : Nat} (older : stamp ≤ increments)
    (recent : increments < stamp + 2 ^ 32)
    (same : UInt32.ofNat increments = UInt32.ofNat stamp) : increments = stamp := by
  have words := congrArg UInt32.toNat same
  rw [UInt32.toNat_ofNat', UInt32.toNat_ofNat'] at words
  omega

/-! ### The distance of two wrapping counters -/

theorem toNat_sub_add {front behind steps : UInt32} (within : steps ≤ front - behind) :
    (front - (behind + steps)).toNat = (front - behind).toNat - steps.toNat := by
  have front_lt := front.toNat_lt
  have behind_lt := behind.toNat_lt
  rw [UInt32.le_iff_toNat_le, UInt32.toNat_sub] at within
  rw [UInt32.toNat_sub, UInt32.toNat_add, UInt32.toNat_sub]
  omega

theorem toNat_add_one_sub {front behind : UInt32} (within : (front - behind).toNat + 1 < 2 ^ 32) :
    (front + 1 - behind).toNat = (front - behind).toNat + 1 := by
  have front_lt := front.toNat_lt
  have behind_lt := behind.toNat_lt
  rw [UInt32.toNat_sub] at within
  rw [UInt32.toNat_sub, UInt32.toNat_add, UInt32.toNat_sub]
  change (2 ^ 32 - behind.toNat + (front.toNat + 1) % 2 ^ 32) % 2 ^ 32 = _
  omega

theorem sub_lt_add_one_sub {front behind : UInt32} (some_ : 0 < (front + 1 - behind).toNat) :
    front - behind < front + 1 - behind := by
  have front_lt := front.toNat_lt
  have behind_lt := behind.toNat_lt
  rw [UInt32.toNat_sub, UInt32.toNat_add] at some_
  rw [UInt32.lt_iff_toNat_lt, UInt32.toNat_sub, UInt32.toNat_sub, UInt32.toNat_add]
  change 0 < (2 ^ 32 - behind.toNat + (front.toNat + 1) % 2 ^ 32) % 2 ^ 32 at some_
  change _ < (2 ^ 32 - behind.toNat + (front.toNat + 1) % 2 ^ 32) % 2 ^ 32
  omega

theorem and_mask_ne {size position : UInt32} {bits : Nat} (power : size.toNat = 2 ^ bits)
    (narrow : bits < 32) (two : 2 ≤ size.toNat) :
    position &&& (size - 1) ≠ position + 1 &&& (size - 1) := by
  have mask : (size - 1).toNat = 2 ^ bits - 1 := by
    have least : 1 ≤ size := by
      rw [UInt32.le_iff_toNat_le]
      exact Nat.le_of_lt two
    rw [UInt32.toNat_sub_of_le _ _ least, power]
    rfl
  intro same
  have words := congrArg UInt32.toNat same
  rw [UInt32.toNat_and, UInt32.toNat_and, mask, Nat.and_two_pow_sub_one_eq_mod,
    Nat.and_two_pow_sub_one_eq_mod, UInt32.toNat_add,
    Nat.mod_mod_of_dvd _ (Nat.pow_dvd_pow 2 narrow.le)] at words
  change position.toNat % 2 ^ bits = (position.toNat + 1) % 2 ^ bits at words
  rw [power] at two
  have divides := (Nat.modEq_iff_dvd' (Nat.le_add_right _ 1)).1 words
  rw [Nat.add_sub_cancel_left, Nat.dvd_one] at divides
  omega

/-! ### Two fields of equal size -/

namespace PackedWord

variable {width : Nat}

/-- The word holds `high` and, in its lowest `bits` bits, `low`. -/
structure Packed (bits : Nat) (word : BitVec width) (high low : Nat) : Prop where
  value : word.toNat = high * 2 ^ bits + low
  high_lt : high < 2 ^ bits
  low_lt : low < 2 ^ bits

variable {bits : Nat}

theorem mask_toNat (narrow : bits < width) :
    (BitVec.ofNat width 1 <<< bits - BitVec.ofNat width 1).toNat = 2 ^ bits - 1 := by
  have small : 2 ^ bits < 2 ^ width := Nat.pow_lt_pow_right (by decide) narrow
  have unit : (BitVec.ofNat width 1).toNat = 1 := by
    rw [BitVec.toNat_ofNat]
    exact Nat.mod_eq_of_lt (Nat.one_lt_two_pow (by omega))
  have bit : (BitVec.ofNat width 1 <<< bits).toNat = 2 ^ bits := by
    rw [BitVec.toNat_shiftLeft, unit, Nat.shiftLeft_eq, one_mul]
    exact Nat.mod_eq_of_lt small
  have least : BitVec.ofNat width 1 ≤ BitVec.ofNat width 1 <<< bits := by
    rw [BitVec.le_def, unit, bit]
    exact Nat.one_le_two_pow
  rw [BitVec.toNat_sub_of_le least, bit, unit]

theorem and_mask_toNat (narrow : bits < width) (word : BitVec width) :
    (word &&& (BitVec.ofNat width 1 <<< bits - BitVec.ofNat width 1)).toNat = word.toNat % 2 ^ bits := by
  rw [BitVec.toNat_and, mask_toNat narrow, Nat.and_two_pow_sub_one_eq_mod]

theorem and_shiftLeft (word mask : BitVec width) :
    word &&& (mask <<< bits) = ((word >>> bits) &&& mask) <<< bits := by
  ext position _
  simp
  grind

theorem packed_or (wide : 2 * bits ≤ width) {high low : BitVec width} (high_lt : high.toNat < 2 ^ bits)
    (low_lt : low.toNat < 2 ^ bits) : Packed bits (high <<< bits ||| low) high.toNat low.toNat := by
  have fits : high.toNat * 2 ^ bits < 2 ^ width := by
    calc high.toNat * 2 ^ bits < 2 ^ bits * 2 ^ bits :=
          (Nat.mul_lt_mul_right (Nat.two_pow_pos bits)).2 high_lt
      _ = 2 ^ (2 * bits) := by rw [← Nat.pow_add, two_mul]
      _ ≤ 2 ^ width := Nat.pow_le_pow_right (by decide) wide
  constructor
  case value =>
    rw [BitVec.toNat_or, BitVec.toNat_shiftLeft, Nat.shiftLeft_eq, Nat.mod_eq_of_lt fits,
      ← Nat.shiftLeft_eq, ← Nat.shiftLeft_add_eq_or_of_lt low_lt]
  case high_lt => exact high_lt
  case low_lt => exact low_lt

variable {word : BitVec width} {high low : Nat}

theorem Packed.shiftRight (packed : Packed bits word high low) : (word >>> bits).toNat = high := by
  rw [BitVec.toNat_ushiftRight, Nat.shiftRight_eq_div_pow, packed.value, Nat.mul_comm,
    Nat.mul_add_div (Nat.two_pow_pos bits), Nat.div_eq_of_lt packed.low_lt, Nat.add_zero]

theorem Packed.and_mask (packed : Packed bits word high low) (narrow : bits < width) :
    (word &&& (BitVec.ofNat width 1 <<< bits - BitVec.ofNat width 1)).toNat = low := by
  rw [and_mask_toNat narrow, packed.value, Nat.mul_comm, Nat.mul_add_mod,
    Nat.mod_eq_of_lt packed.low_lt]

end PackedWord

end MCoro
