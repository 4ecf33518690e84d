/-
fs_read, fs_write and fs_splice of co_async/platform/fs.hpp, with the lengths that
prep_read, prep_write and prep_splice of platform_io.hpp put in an entry of the ring.

An entry has 32 bits for the length and the sizes of the callers have 64. What is handed
over is never more than was asked for, and it is nothing just where the size is a
multiple of 2^32; the kernel then has nothing to do and answers with a zero, which the
callers take for the end of the file. The overloads with a token prepare the same entry.
-/

import MCoro.Iostream.BytesBuffer
import MCoro.Platform.Fallbacks

namespace MCoro

open Fallbacks

/-- An entry of the ring; `buffer` is the memory at the address that it holds. -/
inductive TransferEntry where
  | read (fd : Int) (len offset : Nat)
  | write (fd : Int) (buffer : Bytes) (len offset : Nat)
  | splice (fdIn offIn fdOut offOut : Int) (len flags : Nat)
  deriving DecidableEq, Repr

def TransferEntry.len : TransferEntry → Nat
  | .read _ len _ => len
  | .write _ _ len _ => len
  | .splice _ _ _ _ len _ => len

namespace UringOp

/-- `static_cast<unsigned int>`. -/
def unsignedInt (size : Nat) : Nat :=
  size % 2 ^ 32

/-- `size` is the length of the span. -/
def prepRead (fd : Int) (size offset : Nat) : TransferEntry :=
  .read fd (unsignedInt size) offset

def prepWrite (fd : Int) (buffer : Bytes) (offset : Nat) : TransferEntry :=
  .write fd buffer (unsignedInt buffer.length) offset

def prepSplice (fdIn offIn fdOut offOut : Int) (nbytes flags : Nat) : TransferEntry :=
  .splice fdIn offIn fdOut offOut (unsignedInt nbytes) flags

theorem unsignedInt_le (size : Nat) : unsignedInt size ≤ size :=
  Nat.mod_le _ _

theorem unsignedInt_eq_zero (size : Nat) : unsignedInt size = 0 ↔ 2 ^ 32 ∣ size :=
  Nat.dvd_iff_mod_eq_zero.symm

theorem unsignedInt_of_lt {size : Nat} (small : size < 2 ^ 32) : unsignedInt size = size :=
  Nat.mod_eq_of_lt small

end UringOp

namespace FileTransfers

/-- The offset that stands for the position of the file. -/
def currentPosition : Nat :=
  2 ^ 64 - 1

/-- The system below: the result of an entry with the bytes that it stores, and those of
the functions of libc. Without an offset these are read and write, with one pread64 and
pwrite64. -/
structure FileKernel (State : Type) where
  complete : State → TransferEntry → Int × Bytes × State
  read : State → (fd : Int) → (size : Nat) → (offset : Option Nat) → Int × Bytes × State
  write : State → (fd : Int) → Bytes → (offset : Option Nat) → Int × State
  /-- There is nothing to read at the offset. -/
  atEnd : State → (fd : Int) → (offset : Nat) → Prop

/-- What the manual pages say of reads and writes. A zero means the end, or that nothing
was asked for; libc transfers no more than 0x7ffff000 bytes. -/
structure FileKernel.Documented {State : Type} (kernel : FileKernel State) : Prop where
  readStores : ∀ state fd len offset, 0 ≤ (kernel.complete state (.read fd len offset)).1 →
    (kernel.complete state (.read fd len offset)).1 =
      (kernel.complete state (.read fd len offset)).2.1.length
  readWithin : ∀ state fd len offset, (kernel.complete state (.read fd len offset)).1 ≤ len
  readEnds : ∀ state fd len offset, (kernel.complete state (.read fd len offset)).1 = 0 →
    len = 0 ∨ kernel.atEnd state fd offset
  writeWithin : ∀ state fd buffer len offset,
    (kernel.complete state (.write fd buffer len offset)).1 ≤ len
  writeMoves : ∀ state fd buffer len offset,
    (kernel.complete state (.write fd buffer len offset)).1 = 0 → len = 0
  /-- The ring leaves the file as it is where it refuses the opcode. -/
  refused : ∀ state request, (kernel.complete state request).1 = -invalidArgument →
    (kernel.complete state request).2.2 = state
  libcReadStores : ∀ state fd size offset, 0 ≤ (kernel.read state fd size offset).1 →
    (kernel.read state fd size offset).1 = (kernel.read state fd size offset).2.1.length
  libcReadWithin : ∀ state fd size offset,
    -1 ≤ (kernel.read state fd size offset).1 ∧
      (kernel.read state fd size offset).1 ≤ min size 0x7ffff000
  libcReadEnds : ∀ state fd size offset, (kernel.read state fd size offset).1 = 0 →
    size = 0 ∨ kernel.atEnd state fd (offset.getD currentPosition)
  libcWriteWithin : ∀ state fd bytes offset,
    -1 ≤ (kernel.write state fd bytes offset).1 ∧
      (kernel.write state fd bytes offset).1 ≤ min bytes.length 0x7ffff000
  libcWriteMoves : ∀ state fd bytes offset, (kernel.write state fd bytes offset).1 = 0 →
    bytes = []

variable {State : Type} (kernel : FileKernel State)

/-- What the lambdas pass on. -/
def libcOffset (offset : Nat) : Option Nat :=
  if offset = currentPosition then none else some offset

/-- The result of the ring, or that of libc where the ring refuses the opcode, as a size;
beside each what it leaves. -/
def retried {Left : Type} (ring libc : Int × Left) : Expected Nat × Left :=
  if expectError ring.1 = .error (.errc invalidArgument) then
    ((expectError (toInt libc.1)).transform Int.toNat, libc.2)
  else ((expectError ring.1).transform Int.toNat, ring.2)

/-- The number, the bytes stored in the span, and the system behind it. -/
def fsRead (state : State) (file : Int) (size offset : Nat) : Expected Nat × Bytes × State :=
  let ring := kernel.complete state (UringOp.prepRead file size offset)
  retried ring (kernel.read ring.2.2 file size (libcOffset offset))

def fsWrite (state : State) (file : Int) (buffer : Bytes) (offset : Nat) : Expected Nat × State :=
  let ring := kernel.complete state (UringOp.prepWrite file buffer offset)
  retried (ring.1, ring.2.2) (kernel.write ring.2.2 file buffer (libcOffset offset))

def fsSplice (state : State) (fileIn fileOut : Int) (size : Nat) (offsetIn offsetOut : Int) :
    Expected Nat × State :=
  let (res, _, state) :=
    kernel.complete state (UringOp.prepSplice fileIn offsetIn fileOut offsetOut size 0)
  ((expectError res).transform Int.toNat, state)

/-! ### What the numbers say -/

theorem transform_toNat_ok {res : Int} {n : Nat}
    (ended : (expectError res).transform Int.toNat = .ok n) : res = n := by
  unfold expectError at ended
  by_cases failed : res < 0
  · rw [if_pos failed] at ended
    cases ended
  · rw [if_neg failed] at ended
    have number : res.toNat = n := Except.ok.inj ended
    omega

theorem toInt_eq {n : Int} (lower : -1 ≤ n) (upper : n ≤ 0x7ffff000) : toInt n = n := by
  unfold toInt
  apply Int.bmod_eq_of_le <;> omega

theorem libcOffset_getD (offset : Nat) : (libcOffset offset).getD currentPosition = offset := by
  unfold libcOffset
  by_cases here : offset = currentPosition
  · rw [if_pos here, here]
    rfl
  · rw [if_neg here]
    rfl

theorem retried_cases {Left : Type} (ring libc : Int × Left) :
    (ring.1 = -invalidArgument ∧
      retried ring libc = ((expectError (toInt libc.1)).transform Int.toNat, libc.2)) ∨
    retried ring libc = ((expectError ring.1).transform Int.toNat, ring.2) := by
  unfold retried
  by_cases refused : expectError ring.1 = .error (.errc invalidArgument)
  · left
    rw [if_pos refused]
    refine ⟨?_, rfl⟩
    unfold expectError at refused
    split at refused
    case isTrue =>
      have code := ErrorCode.errc.inj (Except.error.inj refused)
      omega
    case isFalse => cases refused
  · right
    rw [if_neg refused]

theorem retried_ne_eof {Left : Type} (ring libc : Int × Left) :
    (retried ring libc).1 ≠ .error .eofError := by
  have number : ∀ res, (expectError res).transform Int.toNat ≠ .error .eofError := by
    intro res
    unfold expectError
    split <;> exact fun same => by cases same
  rcases retried_cases ring libc with ⟨_, called⟩ | direct
  · rw [called]
    exact number _
  · rw [direct]
    exact number _

variable {kernel} {state : State} {file : Int} {size offset : Nat} {buffer : Bytes}

theorem fsRead_zero (documented : kernel.Documented)
    (zero : (fsRead kernel state file size offset).1 = .ok 0) :
    2 ^ 32 ∣ size ∨ kernel.atEnd state file offset := by
  unfold fsRead at zero
  dsimp only at zero
  rcases retried_cases (kernel.complete state (UringOp.prepRead file size offset)) _ with
    ⟨refused, called⟩ | direct
  · have same := documented.refused _ _ refused
    rw [called, same] at zero
    have bounds := documented.libcReadWithin state file size (libcOffset offset)
    have number := transform_toNat_ok zero
    rw [toInt_eq bounds.1 (by omega)] at number
    rcases documented.libcReadEnds _ _ _ _ number with nothing | ended
    · left
      rw [nothing]
      exact Nat.dvd_zero _
    · right
      rw [libcOffset_getD] at ended
      exact ended
  · rw [direct] at zero
    rcases documented.readEnds _ _ _ _ (transform_toNat_ok zero) with nothing | ended
    · left
      exact (UringOp.unsignedInt_eq_zero size).1 nothing
    · right
      exact ended

theorem fsRead_stores (documented : kernel.Documented) {n : Nat}
    (read : (fsRead kernel state file size offset).1 = .ok n) :
    (fsRead kernel state file size offset).2.1.length = n := by
  unfold fsRead at read ⊢
  dsimp only at read ⊢
  rcases retried_cases (kernel.complete state (UringOp.prepRead file size offset)) _ with
    ⟨refused, called⟩ | direct
  · have same := documented.refused _ _ refused
    rw [called, same] at read ⊢
    have bounds := documented.libcReadWithin state file size (libcOffset offset)
    have number := transform_toNat_ok read
    rw [toInt_eq bounds.1 (by omega)] at number
    have stored := documented.libcReadStores state file size (libcOffset offset) (by omega)
    dsimp only
    omega
  · rw [direct] at read ⊢
    have number := transform_toNat_ok read
    have stored := documented.readStores state file (UringOp.unsignedInt size) offset
      (number ▸ Int.natCast_nonneg n)
    exact Int.ofNat.inj (stored.symm.trans number)

theorem fsRead_multiple (documented : kernel.Documented) (multiple : 2 ^ 32 ∣ size)
    (taken : 0 ≤ (kernel.complete state (UringOp.prepRead file size offset)).1) :
    (fsRead kernel state file size offset).1 = .ok 0 := by
  have nothing := (UringOp.unsignedInt_eq_zero size).2 multiple
  have within := documented.readWithin state file (UringOp.unsignedInt size) offset
  have zero : (kernel.complete state (UringOp.prepRead file size offset)).1 = 0 := by
    unfold UringOp.prepRead at taken ⊢
    rw [nothing] at within taken ⊢
    omega
  unfold fsRead retried
  dsimp only
  rw [zero]
  rfl

theorem fsWrite_zero (documented : kernel.Documented)
    (zero : (fsWrite kernel state file buffer offset).1 = .ok 0) : 2 ^ 32 ∣ buffer.length := by
  unfold fsWrite at zero
  dsimp only at zero
  rcases retried_cases ((kernel.complete state (UringOp.prepWrite file buffer offset)).1,
    (kernel.complete state (UringOp.prepWrite file buffer offset)).2.2) _ with
    ⟨refused, called⟩ | direct
  · have same := documented.refused _ _ refused
    rw [called, same] at zero
    have bounds := documented.libcWriteWithin state file buffer (libcOffset offset)
    have number := transform_toNat_ok zero
    rw [toInt_eq bounds.1 (by omega)] at number
    rw [documented.libcWriteMoves _ _ _ _ number]
    exact Nat.dvd_zero _
  · rw [direct] at zero
    have nothing := documented.writeMoves _ _ _ _ _ (transform_toNat_ok zero)
    exact (UringOp.unsignedInt_eq_zero buffer.length).1 nothing

/-- A ring that takes the entry writes a part of what it is handed, and nothing only if it is
handed nothing. -/
theorem fsWrite_taken (documented : kernel.Documented)
    (taken : 0 ≤ (kernel.complete state (UringOp.prepWrite file buffer offset)).1) :
    ∃ n, (fsWrite kernel state file buffer offset).1 = .ok n ∧
      n ≤ UringOp.unsignedInt buffer.length ∧
      (n = 0 → UringOp.unsignedInt buffer.length = 0) := by
  have within := documented.writeWithin state file buffer (UringOp.unsignedInt buffer.length) offset
  have moves := documented.writeMoves state file buffer (UringOp.unsignedInt buffer.length) offset
  obtain ⟨n, number⟩ := Int.eq_ofNat_of_zero_le taken
  refine ⟨n, ?_, ?_, ?_⟩
  · unfold fsWrite retried
    dsimp only
    rw [number, expectError_result, if_neg (by intro refused; cases refused)]
    rfl
  · unfold UringOp.prepWrite at number
    omega
  · intro zero
    rw [zero] at number
    exact moves number

/-! ### A file -/

def maxTransfer : Nat :=
  0x7ffff000

/-- A file that is the bytes behind its position; what is written is put behind them. -/
def plainFile : FileKernel Bytes where
  complete file
    | .read _ len _ =>
        let count := min len maxTransfer
        ((min count file.length : Nat), file.take count, file.drop count)
    | .write _ buffer len _ =>
        let count := min len maxTransfer
        (count, [], file ++ buffer.take count)
    | .splice _ _ _ _ _ _ => (0, [], file)
  read file _ size _ :=
    let count := min size maxTransfer
    ((min count file.length : Nat), file.take count, file.drop count)
  write file _ bytes _ :=
    let count := min bytes.length maxTransfer
    (count, file ++ bytes.take count)
  atEnd file _ _ := file = []

theorem plainFile_stores (file : Bytes) (count : Nat) :
    ((min count file.length : Nat) : Int) = (file.take count).length := by
  rw [List.length_take]

theorem plainFile_ends {file : Bytes} {size : Nat}
    (zero : ((min (min size maxTransfer) file.length : Nat) : Int) = 0) : size = 0 ∨ file = [] := by
  unfold maxTransfer at zero
  cases file with
  | nil => exact .inr rfl
  | cons first file =>
      left
      rw [List.length_cons] at zero
      omega

theorem plainFile_moves {size : Nat} (zero : ((min size maxTransfer : Nat) : Int) = 0) : size = 0 := by
  unfold maxTransfer at zero
  omega

theorem plainFile_takes (file : Bytes) (request : TransferEntry) :
    0 ≤ (plainFile.complete file request).1 := by
  cases request with
  | read fd len offset => exact Int.natCast_nonneg (min (min len maxTransfer) file.length)
  | write fd buffer len offset => exact Int.natCast_nonneg (min len maxTransfer)
  | splice fdIn offIn fdOut offOut len flags => exact Int.le_refl 0

theorem plainFile_documented : plainFile.Documented := by
  constructor
  case readStores =>
    intro file fd len offset _
    exact plainFile_stores file _
  case readWithin =>
    intro file fd len offset
    change ((min (min len maxTransfer) file.length : Nat) : Int) ≤ len
    omega
  case readEnds =>
    intro file fd len offset zero
    exact plainFile_ends zero
  case writeWithin =>
    intro file fd buffer len offset
    change ((min len maxTransfer : Nat) : Int) ≤ len
    omega
  case writeMoves =>
    intro file fd buffer len offset zero
    exact plainFile_moves zero
  case refused =>
    intro file request refused
    have taken := plainFile_takes file request
    rw [refused] at taken
    exact absurd taken (by decide)
  case libcReadStores =>
    intro file fd size offset _
    exact plainFile_stores file _
  case libcReadWithin =>
    intro file fd size offset
    change -1 ≤ ((min (min size maxTransfer) file.length : Nat) : Int) ∧
      ((min (min size maxTransfer) file.length : Nat) : Int) ≤ min size 0x7ffff000
    unfold maxTransfer
    omega
  case libcReadEnds =>
    intro file fd size offset zero
    exact plainFile_ends zero
  case libcWriteWithin =>
    intro file fd bytes offset
    change -1 ≤ ((min bytes.length maxTransfer : Nat) : Int) ∧
      ((min bytes.length maxTransfer : Nat) : Int) ≤ min bytes.length 0x7ffff000
    unfold maxTransfer
    omega
  case libcWriteMoves =>
    intro file fd bytes offset zero
    exact List.eq_nil_of_length_eq_zero (plainFile_moves zero)

end FileTransfers

end MCoro
