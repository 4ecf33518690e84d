/-
Numbers as bytes, the lowest byte first.
-/

import Mathlib

namespace MCoro.LittleEndian

def store : Nat → Nat → List UInt8
  | 0, _ => []
  | width + 1, n => UInt8.ofNat n :: store width (n / 256)

def load : List UInt8 → Nat
  | [] => 0
  | byte :: rest => byte.toNat + 256 * load rest

/-- The number of a field of the width in a block. -/
def field (block : List UInt8) (offset width : Nat) : Nat :=
  load ((block.drop offset).take width)

@[simp]
theorem length_store (width n : Nat) : (store width n).length = width := by
  induction width generalizing n with
  | zero => rfl
  | succ width ih =>
      rw [store, List.length_cons, ih]

theorem load_store {width n : Nat} (fits : n < 256 ^ width) : load (store width n) = n := by
  induction width generalizing n with
  | zero =>
      rw [pow_zero] at fits
      rw [Nat.lt_one_iff.1 fits]
      rfl
  | succ width ih =>
      have rest : n / 256 < 256 ^ width := by
        rw [Nat.div_lt_iff_lt_mul (by decide), ← pow_succ]
        exact fits
      rw [store, load, ih rest, UInt8.toNat_ofNat']
      exact Nat.mod_add_div n 256

theorem field_store {front back : List UInt8} {offset width n : Nat}
    (before : front.length = offset) (fits : n < 256 ^ width) :
    field (front ++ (store width n ++ back)) offset width = n := by
  unfold field
  rw [List.drop_left' before, List.take_left' (length_store width n)]
  exact load_store fits

end MCoro.LittleEndian
