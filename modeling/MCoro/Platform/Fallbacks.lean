/-
The operations of co_async/platform/fs.hpp and socket.cpp that try again with a plain
system call when the ring does not know the opcode.

The ring reports an error as its negative number. A function of libc returns −1 and
leaves the number in errno, which no fallback reads. The overloads with a timeout or a
token have the fallback of the plain one. What the calls store through pointers, the
metadata of a file or the address of a peer, is left out.
-/

import MCoro.Utils.Expected

namespace MCoro

namespace Expected

variable {T : Type}

/-- `or_else(e, f)` with the value or the error that `f` returns. -/
def orElseCall (code : ErrorCode) (called : Expected T) : Expected T → Expected T
  | .error other => if other = code then called else .error other
  | .ok value => .ok value

end Expected

namespace Fallbacks

open Expected

def expectError (res : Int) : Expected Int :=
  if res < 0 then .error (.errc (-res)) else .ok res

def operationNotPermitted : Nat := 1

def badFileDescriptor : Nat := 9

def invalidArgument : Nat := 22

def toInt (n : Int) : Int :=
  n.bmod (2 ^ 32)

inductive Returned where
  | fileHandle (fileNo : Int)
  | socketHandle (fileNo : Int)
  | fileStat
  | size (n : UInt64)
  deriving DecidableEq, Repr

/-- What an operation is given: the opcode's error that makes it try again, what the
lambda makes of the result of libc, and what the task makes of the number. -/
structure Retried where
  trigger : Nat
  fallback : Int → Expected Int
  finish : Int → Returned

/-- The result of the ring, or the one of libc if it is asked. -/
def Retried.number (op : Retried) (res libc : Int) : Expected Int :=
  orElseCall (.errc op.trigger) (op.fallback libc) (expectError res)

def Retried.run (op : Retried) (res libc : Int) : Expected Returned :=
  (op.number res libc).transform op.finish

/-- The task as it is where the ring knows the opcode. -/
def Retried.direct (op : Retried) (res : Int) : Expected Returned :=
  (expectError res).transform op.finish

/-! ### The operations -/

def fsOpen : Retried :=
  { trigger := badFileDescriptor
    fallback := expectError
    finish := .fileHandle }

def fsOpenat : Retried :=
  { trigger := badFileDescriptor
    fallback := expectError
    finish := .fileHandle }

def fsStat : Retried :=
  { trigger := badFileDescriptor
    fallback := expectError
    finish := fun _ => .fileStat }

/-- read, or pread64 with an offset. -/
def fsRead : Retried :=
  { trigger := invalidArgument
    fallback := fun n => expectError (toInt n)
    finish := fun n => .size (UInt64.ofInt n) }

/-- write, or pwrite64 with an offset. -/
def fsWrite : Retried :=
  { trigger := invalidArgument
    fallback := fun n => expectError (toInt n)
    finish := fun n => .size (UInt64.ofInt n) }

/-- The lambda returns the int of socket as the value. -/
def createSocket : Retried :=
  { trigger := invalidArgument
    fallback := fun fd => .ok fd
    finish := .socketHandle }

/-- The lambda returns the int of connect as the value, which the task drops. -/
def socketConnect (sock : Int) : Retried :=
  { trigger := invalidArgument
    fallback := fun status => .ok status
    finish := fun _ => .socketHandle sock }

/-- The overloads with an address; those without one do not try again. -/
def listenerAccept : Retried :=
  { trigger := invalidArgument
    fallback := expectError
    finish := .socketHandle }

def socketWrite : Retried :=
  { trigger := invalidArgument
    fallback := fun n => expectError (toInt n)
    finish := fun n => .size (UInt64.ofInt n) }

def socketWriteZc : Retried :=
  { trigger := invalidArgument
    fallback := fun n => expectError (toInt n)
    finish := fun n => .size (UInt64.ofInt n) }

def socketRead : Retried :=
  { trigger := invalidArgument
    fallback := fun n => expectError (toInt n)
    finish := fun n => .size (UInt64.ofInt n) }

inductive Operation where
  | fsOpen
  | fsOpenat
  | fsStat
  | fsRead
  | fsWrite
  | createSocket
  | socketConnect (sock : Int)
  | listenerAccept
  | socketWrite
  | socketWriteZc
  | socketRead
  deriving DecidableEq, Repr

def Operation.task : Operation → Retried
  | .fsOpen => Fallbacks.fsOpen
  | .fsOpenat => Fallbacks.fsOpenat
  | .fsStat => Fallbacks.fsStat
  | .fsRead => Fallbacks.fsRead
  | .fsWrite => Fallbacks.fsWrite
  | .createSocket => Fallbacks.createSocket
  | .socketConnect sock => Fallbacks.socketConnect sock
  | .listenerAccept => Fallbacks.listenerAccept
  | .socketWrite => Fallbacks.socketWrite
  | .socketWriteZc => Fallbacks.socketWriteZc
  | .socketRead => Fallbacks.socketRead

/-- How the kernel completes a call: with a number that fits its 32 bits, or an error. -/
inductive Outcome where
  | result (n : Nat) (fits : n < 2 ^ 31)
  | failed (errno : Nat) (positive : 0 < errno)
  deriving DecidableEq, Repr

namespace Outcome

/-- In the completion entry. -/
def ring : Outcome → Int
  | .result n _ => n
  | .failed errno _ => -errno

def libc : Outcome → Int
  | .result n _ => n
  | .failed _ _ => -1

end Outcome

/-! ### Agreement -/

theorem expectError_result (n : Nat) : expectError n = .ok (n : Int) :=
  if_neg (Int.not_lt.2 (Int.natCast_nonneg n))

theorem expectError_failed {errno : Nat} (positive : 0 < errno) :
    expectError (-errno) = .error (.errc errno) := by
  unfold expectError
  rw [if_pos (by omega), neg_neg]

/-- A ring that knows the opcode is not helped, but for an error of the same number. -/
theorem number_known (op : Retried) {res : Int} (libc : Int) (known : res ≠ -op.trigger) :
    op.number res libc = expectError res := by
  unfold Retried.number expectError
  by_cases negative : res < 0
  · have other : ErrorCode.errc (-res) ≠ .errc op.trigger := by
      intro same
      have numbers := ErrorCode.errc.inj same
      omega
    rw [if_pos negative, orElseCall, if_neg other]
  · rw [if_neg negative]
    rfl

theorem number_unsupported (op : Retried) (positive : 0 < op.trigger) (libc : Int) :
    op.number (-op.trigger) libc = op.fallback libc := by
  unfold Retried.number
  rw [expectError_failed positive, orElseCall, if_pos rfl]

theorem toInt_of_fits {n : Nat} (fits : n < 2 ^ 31) : toInt n = n := by
  unfold toInt
  apply Int.bmod_eq_of_le <;> omega

/-- The operations whose lambda puts the result of libc through expectError. -/
def Operation.Converts : Operation → Prop
  | .createSocket | .socketConnect _ => False
  | _ => True

instance (op : Operation) : Decidable op.Converts := by
  unfold Operation.Converts
  split <;> infer_instance

theorem Operation.trigger_positive (op : Operation) : 0 < op.task.trigger := by
  cases op <;> exact Nat.succ_pos _

theorem Operation.fallback_result (op : Operation) {n : Nat} (fits : n < 2 ^ 31) :
    op.task.fallback n = .ok (n : Int) := by
  have same := toInt_of_fits fits
  have whole := expectError_result n
  have cast : expectError (toInt n) = .ok (n : Int) := by
    rw [same, whole]
  cases op with
  | fsOpen => exact whole
  | fsOpenat => exact whole
  | fsStat => exact whole
  | fsRead =>
      dsimp only [Operation.task, Fallbacks.fsRead]
      exact cast
  | fsWrite =>
      dsimp only [Operation.task, Fallbacks.fsWrite]
      exact cast
  | createSocket => rfl
  | socketConnect sock => rfl
  | listenerAccept => exact whole
  | socketWrite =>
      dsimp only [Operation.task, Fallbacks.socketWrite]
      exact cast
  | socketWriteZc =>
      dsimp only [Operation.task, Fallbacks.socketWriteZc]
      exact cast
  | socketRead =>
      dsimp only [Operation.task, Fallbacks.socketRead]
      exact cast

theorem Operation.fallback_failed (op : Operation) :
    op.task.fallback (-1) =
      if op.Converts then .error (.errc operationNotPermitted) else .ok (-1) := by
  cases op <;> rfl

/-- The result through the fallback is that of the ring for the calls that succeed, and
for those that fail with EPERM and are converted. -/
theorem run_agrees_iff (op : Operation) (outcome : Outcome) :
    op.task.run (-op.task.trigger) outcome.libc = op.task.direct outcome.ring ↔
      match outcome with
      | .result _ _ => True
      | .failed errno _ => op.Converts ∧ errno = operationNotPermitted := by
  unfold Retried.run Retried.direct
  rw [number_unsupported op.task op.trigger_positive]
  cases outcome with
  | result n fits =>
      change (op.task.fallback n).transform op.task.finish =
        (expectError n).transform op.task.finish ↔ True
      rw [op.fallback_result fits, expectError_result]
      exact iff_of_true rfl trivial
  | failed errno positive =>
      change (op.task.fallback (-1)).transform op.task.finish =
        (expectError (-errno)).transform op.task.finish ↔ _
      rw [op.fallback_failed, expectError_failed positive]
      by_cases converts : op.Converts
      · rw [if_pos converts]
        constructor
        · intro same
          have codes := ErrorCode.errc.inj (Except.error.inj same)
          exact ⟨converts, Int.ofNat_inj.1 codes.symm⟩
        · intro allowed
          rw [allowed.2]
      · rw [if_neg converts]
        constructor
        · intro same
          cases same
        · intro allowed
          exact absurd allowed.1 converts

/-- open with ENOENT, and socket with EMFILE. -/
theorem run_disagrees :
    Operation.fsOpen.task.run (-9) (Outcome.failed 2 (Nat.succ_pos 1)).libc ≠
        Operation.fsOpen.task.direct (Outcome.failed 2 (Nat.succ_pos 1)).ring ∧
      Operation.createSocket.task.run (-22) (Outcome.failed 24 (Nat.succ_pos 23)).libc ≠
        Operation.createSocket.task.direct (Outcome.failed 24 (Nat.succ_pos 23)).ring := by
  constructor
  · intro same
    cases same
  · intro same
    cases same

end Fallbacks

end MCoro
