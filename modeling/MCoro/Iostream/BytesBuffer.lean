/-
co_async/iostream/bytes_buffer.hpp, with every access checked.

A buffer without its block has size zero and no valid index. The bytes of a new
block are indeterminate in the source and zero here; nothing reads them.
-/

import MCoro.Library.Faults
import MCoro.Library.Segments

namespace MCoro

open Segments

abbrev Bytes := List UInt8

/-- What must not happen: an access outside the block, or a loop that outlives
the fuel it was given. -/
inductive BufferFault where
  | outOfBounds
  | outOfFuel
  deriving DecidableEq, Repr

structure BytesBuffer where
  mData : Option Bytes := none
  deriving DecidableEq, Repr

namespace BytesBuffer

def allocate (size : Nat) : BytesBuffer :=
  { mData := some (List.replicate size 0) }

def data (buffer : BytesBuffer) : Bytes :=
  buffer.mData.getD []

def size (buffer : BytesBuffer) : Nat :=
  buffer.data.length

/-- `operator[]`. -/
def get (buffer : BytesBuffer) (index : Nat) : Except BufferFault UInt8 :=
  match buffer.data[index]? with
  | some byte => .ok byte
  | none => .error .outOfBounds

/-- The bytes read through a pointer to `start` and a count. -/
def read (buffer : BytesBuffer) (start count : Nat) : Except BufferFault Bytes :=
  if start + count ≤ buffer.size then .ok ((buffer.data.drop start).take count)
  else .error .outOfBounds

/-- The bytes stored through a pointer to `start`. -/
def write (buffer : BytesBuffer) (start : Nat) (bytes : Bytes) :
    Except BufferFault BytesBuffer :=
  if start + bytes.length ≤ buffer.size then
    .ok { mData := buffer.mData.map fun block => overwrite block start bytes }
  else
    .error .outOfBounds

/-! ### Accesses inside the block -/

theorem read_eq {buffer : BytesBuffer} {start stop : Nat} (ordered : start ≤ stop)
    (bound : stop ≤ buffer.size) :
    buffer.read start (stop - start) = .ok (slice buffer.data start stop) := by
  have whole : start + (stop - start) = stop := Nat.add_sub_of_le ordered
  unfold read
  rw [if_pos (by omega), take_drop_eq_slice, whole]

theorem read_length {buffer : BytesBuffer} {start count : Nat} {bytes : Bytes}
    (done : buffer.read start count = .ok bytes) : bytes.length = count := by
  unfold read size at done
  split at done
  · cases done
    rw [List.length_take, List.length_drop]
    omega
  · cases done

theorem write_eq {buffer : BytesBuffer} {start : Nat} {bytes : Bytes}
    (bound : start + bytes.length ≤ buffer.size) :
    ∃ next, buffer.write start bytes = .ok next ∧ next.size = buffer.size ∧
      (next.mData = none ↔ buffer.mData = none) ∧
      slice next.data start (start + bytes.length) = bytes ∧
      next.data.take (start + bytes.length) = buffer.data.take start ++ bytes := by
  refine ⟨_, if_pos bound, ?_⟩
  cases allocated : buffer.mData with
  | none =>
      have noData : buffer.data = [] := by
        unfold data
        rw [allocated]
        rfl
      have nothing : bytes = [] := by
        unfold size at bound
        rw [noData, List.length_nil] at bound
        apply List.length_eq_zero_iff.1
        omega
      subst nothing
      simp [size, data, allocated]
  | some block =>
      have same : buffer.data = block := by
        unfold data
        rw [allocated]
        rfl
      unfold size at bound ⊢
      rw [same] at bound ⊢
      exact ⟨overwrite_length bound, by simp, slice_overwrite bound, take_overwrite bound⟩

theorem write_ok {buffer next : BytesBuffer} {start : Nat} {bytes : Bytes}
    (stored : buffer.write start bytes = .ok next) :
    start + bytes.length ≤ buffer.size ∧ next.size = buffer.size ∧
      (next.mData = none ↔ buffer.mData = none) := by
  by_cases bound : start + bytes.length ≤ buffer.size
  · obtain ⟨other, same, size, allocated, _⟩ := write_eq bound
    cases stored.symm.trans same
    exact ⟨bound, size, allocated⟩
  · unfold write at stored
    rw [if_neg bound] at stored
    cases stored

end BytesBuffer

end MCoro
