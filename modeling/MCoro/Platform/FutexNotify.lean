/-
futex_notify_sync of co_async/platform/futex.hpp, for a futex of 32 bits, on a kernel
that has the system call futex_wake and on one that does not.

The kernel declares futex_wake with the mask before the number, sys_futex_wake(uaddr, mask,
nr, flags); the code passes the count and then the mask. The other call, FUTEX_WAKE_BITSET,
is to be made where the first one is missing. The function syscall of libc reports an
error as −1 and puts its number in errno, so the comparison with −ENOSYS never holds.
-/

import MCoro.Library.Futex
import MCoro.Platform.Fallbacks

namespace MCoro

namespace FutexNotify

open Fallbacks

structure Waiter (Party : Type) where
  party : Party
  mask : UInt32
  deriving DecidableEq, Repr

variable {Party : Type}

/-- The waiters of a futex whose mask meets the given one. -/
def overlapping (mask : UInt32) (waiters : List (Waiter Party)) : List (Waiter Party) :=
  waiters.filter fun waiter => waiter.mask &&& mask ≠ 0

/-- What the kernel returns from a call, and whom it has woken. -/
abbrev Call (Party : Type) := Int × List (Waiter Party)

structure FutexKernel (Party : Type) where
  futexWake : List (Waiter Party) → (mask : UInt64) → (nr : Int32) → Call Party
  wakeBitset : List (Waiter Party) → (val : Int32) → (bitset : UInt32) → Call Party

/-- A loop that stops once it has woken `nr` waiters has woken one before it compares. -/
def atMost (nr : Int32) : Nat :=
  (max 1 nr.toInt).toNat

/-- Some of the waiters that the mask meets, as many as there are up to a number. -/
structure Wakes (waiters : List (Waiter Party)) (mask : UInt32) (count : Nat)
    (woken : List (Waiter Party)) : Prop where
  among : woken.Sublist (overlapping mask waiters)
  number : woken.length = min count (overlapping mask waiters).length

/-- Both calls refuse an empty mask. futex_wake also refuses one that the futex is too small
for, and wakes nobody for the number 0. -/
structure FutexKernel.Documented (kernel : FutexKernel Party) : Prop where
  refuses : ∀ waiters mask nr, mask = 0 ∨ 2 ^ 32 ≤ mask.toNat →
    kernel.futexWake waiters mask nr = (-22, [])
  nothing : ∀ waiters mask, mask ≠ 0 → mask.toNat < 2 ^ 32 →
    kernel.futexWake waiters mask 0 = (0, [])
  wakes : ∀ waiters mask nr, mask ≠ 0 → mask.toNat < 2 ^ 32 → nr ≠ 0 →
    (kernel.futexWake waiters mask nr).1 = (kernel.futexWake waiters mask nr).2.length ∧
      Wakes waiters mask.toUInt32 (atMost nr) (kernel.futexWake waiters mask nr).2
  bitsetRefuses : ∀ waiters val, kernel.wakeBitset waiters val 0 = (-22, [])
  bitsetWakes : ∀ waiters val bitset, bitset ≠ 0 →
    (kernel.wakeBitset waiters val bitset).1 = (kernel.wakeBitset waiters val bitset).2.length ∧
      Wakes waiters bitset (atMost val) (kernel.wakeBitset waiters val bitset).2

/-- The function of libc. -/
def syscall (call : Call Party) : Call Party :=
  (if call.1 < 0 then -1 else call.1, call.2)

def ebadf : Int := 9

def enosys : Int := 38

/-- `available` says whether the kernel has futex_wake. -/
def futexNotifySync (kernel : FutexKernel Party) (available : Bool) (waiters : List (Waiter Party))
    (count : UInt64) (mask : UInt32) : Expected Int × List (Waiter Party) :=
  let call := syscall
    (if available then kernel.futexWake waiters count mask.toInt32 else (-enosys, []))
  if call.1 = -ebadf ∨ call.1 = -enosys then
    let call := syscall (kernel.wakeBitset waiters count.toUInt32.toInt32 mask)
    (expectError (toInt call.1), call.2)
  else (expectError (toInt call.1), call.2)

/-- `kFutexNotifyAll`. -/
def futexNotifyAll : UInt64 := 0x7fffffff

/-! ### The two ways -/

variable {kernel : FutexKernel Party} {waiters : List (Waiter Party)} {count : UInt64}
  {mask : UInt32}

/-- No result of libc is an error number below −1, so the second call is never made. -/
theorem futexNotifySync_eq (kernel : FutexKernel Party) (available : Bool)
    (waiters : List (Waiter Party)) (count : UInt64) (mask : UInt32) :
    futexNotifySync kernel available waiters count mask =
      let call := syscall
        (if available then kernel.futexWake waiters count mask.toInt32 else (-enosys, []))
      (expectError (toInt call.1), call.2) := by
  have reported : ∀ call : Call Party, -1 ≤ (syscall call).1 := by
    intro call
    unfold syscall
    dsimp only
    split <;> omega
  unfold futexNotifySync
  dsimp only
  have lower := reported
    (if available then kernel.futexWake waiters count mask.toInt32 else (-enosys, []))
  unfold ebadf enosys at *
  rw [if_neg (by omega)]

theorem futexNotifySync_missing (kernel : FutexKernel Party) (waiters : List (Waiter Party))
    (count : UInt64) (mask : UInt32) :
    futexNotifySync kernel false waiters count mask = (.error (.errc 1), []) := by
  rw [futexNotifySync_eq]
  rfl

theorem futexNotifySync_available (kernel : FutexKernel Party) (waiters : List (Waiter Party))
    (count : UInt64) (mask : UInt32) :
    (futexNotifySync kernel true waiters count mask).2 =
      (kernel.futexWake waiters count mask.toInt32).2 := by
  rw [futexNotifySync_eq]
  rfl

/-- What the call is to do: the count is the number and the mask the mask. -/
def Notifies (kernel : FutexKernel Party) (available : Bool) (waiters : List (Waiter Party))
    (count : UInt64) (mask : UInt32) : Prop :=
  Wakes waiters mask count.toNat (futexNotifySync kernel available waiters count mask).2

theorem wakes_nobody_iff : Wakes waiters mask count.toNat [] ↔
    count = 0 ∨ overlapping mask waiters = [] := by
  constructor
  · intro wakes
    have number := wakes.number
    rw [List.length_nil] at number
    rcases Nat.min_eq_zero_iff.1 number.symm with zero | none_
    · exact .inl (UInt64.toNat_inj.1 zero)
    · exact .inr (List.eq_nil_of_length_eq_zero none_)
  · intro nobody
    constructor
    case among => exact List.nil_sublist _
    case number =>
      rcases nobody with zero | none_
      · rw [zero]
        exact (Nat.zero_min _).symm
      · rw [none_]
        exact (Nat.min_zero _).symm

theorem toInt32_eq_zero : mask.toInt32 = 0 ↔ mask = 0 := by
  constructor
  · intro zero
    apply UInt32.toBitVec_inj.1
    exact congrArg Int32.toBitVec zero
  · intro zero
    rw [zero]
    rfl

theorem atMost_pos (nr : Int32) : 0 < atMost nr := by
  unfold atMost
  omega

/-- futex_wake meets the count as its mask and the mask as its number. -/
theorem available_nobody_iff (documented : kernel.Documented) :
    (futexNotifySync kernel true waiters count mask).2 = [] ↔
      count = 0 ∨ 2 ^ 32 ≤ count.toNat ∨ mask = 0 ∨ overlapping count.toUInt32 waiters = [] := by
  rw [futexNotifySync_available]
  by_cases refused : count = 0 ∨ 2 ^ 32 ≤ count.toNat
  · rw [documented.refuses _ _ _ refused]
    constructor
    · intro _
      exact refused.imp_right .inl
    · intro _
      rfl
  · obtain ⟨some_, small⟩ := not_or.1 refused
    rw [Nat.not_le] at small
    by_cases zero : mask = 0
    · rw [toInt32_eq_zero.2 zero, documented.nothing _ _ some_ small]
      exact ⟨fun _ => .inr (.inr (.inl zero)), fun _ => rfl⟩
    · have wakes := (documented.wakes waiters count mask.toInt32 some_ small
        fun none_ => zero (toInt32_eq_zero.1 none_)).2
      constructor
      · intro nobody
        have number := wakes.number
        rw [nobody, List.length_nil] at number
        rcases Nat.min_eq_zero_iff.1 number.symm with never | none_
        · exact absurd never (Nat.ne_of_gt (atMost_pos _))
        · exact .inr (.inr (.inr (List.eq_nil_of_length_eq_zero none_)))
      · rintro (none_ | large | none_ | nobody)
        · exact absurd none_ some_
        · exact absurd large (Nat.not_le.2 small)
        · exact absurd none_ zero
        · have among := wakes.among
          rw [nobody] at among
          exact List.sublist_nil.1 among

/-! ### Whom it wakes -/

/-- Whom futex_notify_sync wakes where `Meets` says whom a mask meets: the count is the mask,
and the mask the number. -/
def Notified (available : Bool) (Meets : UInt32 → Party → Prop) (count : UInt64) (mask : UInt32)
    (woken : List Party) : Prop :=
  if available = true ∧ count ≠ 0 ∧ count.toNat < 2 ^ 32 ∧ mask ≠ 0 then
    Futex.WakesUpTo (Meets count.toUInt32) (atMost mask.toInt32) woken
  else woken = []

instance [DecidableEq Party] (available : Bool) (Meets : UInt32 → Party → Prop) (count : UInt64)
    (mask : UInt32) (woken : List Party)
    [Decidable (Futex.WakesUpTo (Meets count.toUInt32) (atMost mask.toInt32) woken)] :
    Decidable (Notified available Meets count mask woken) :=
  inferInstanceAs (Decidable
    (if available = true ∧ count ≠ 0 ∧ count.toNat < 2 ^ 32 ∧ mask ≠ 0 then
      Futex.WakesUpTo (Meets count.toUInt32) (atMost mask.toInt32) woken
    else woken = []))

theorem Wakes.wakesUpTo {number : Nat} {woken : List (Waiter Party)}
    (wakes : Wakes waiters mask number woken)
    (distinct : (waiters.map Waiter.party).Nodup) :
    Futex.WakesUpTo (fun party => ∃ own, ⟨party, own⟩ ∈ waiters ∧ own &&& mask ≠ 0) number
      (woken.map Waiter.party) := by
  have among : ∀ waiter ∈ woken, waiter ∈ waiters ∧ waiter.mask &&& mask ≠ 0 := by
    intro waiter member
    have kept := wakes.among.subset member
    unfold overlapping at kept
    rw [List.mem_filter] at kept
    exact ⟨kept.1, of_decide_eq_true kept.2⟩
  have sub : woken.Sublist waiters := wakes.among.trans List.filter_sublist
  constructor
  case distinct => exact distinct.sublist (sub.map Waiter.party)
  case meets =>
    intro party member
    obtain ⟨waiter, here, rfl⟩ := List.mem_map.1 member
    exact ⟨waiter.mask, among waiter here⟩
  case within =>
    rw [List.length_map, wakes.number]
    exact Nat.min_le_left _ _
  case all =>
    rw [List.length_map, wakes.number]
    rintro fewer party ⟨own, there, meets⟩
    have whole : woken = overlapping mask waiters := by
      apply wakes.among.eq_of_length
      rw [wakes.number]
      omega
    apply List.mem_map.2
    refine ⟨⟨party, own⟩, ?_, rfl⟩
    rw [whole]
    exact List.mem_filter.2 ⟨there, decide_eq_true meets⟩

/-- This is what the call does, on either kernel. -/
theorem notified_futexNotifySync (documented : kernel.Documented) (available : Bool)
    (distinct : (waiters.map Waiter.party).Nodup) :
    Notified available (fun mask party => ∃ own, ⟨party, own⟩ ∈ waiters ∧ own &&& mask ≠ 0) count
      mask ((futexNotifySync kernel available waiters count mask).2.map Waiter.party) := by
  unfold Notified
  cases available with
  | false =>
      rw [if_neg (fun wrong => Bool.false_ne_true wrong.1), futexNotifySync_missing]
      rfl
  | true =>
      by_cases called : count ≠ 0 ∧ count.toNat < 2 ^ 32 ∧ mask ≠ 0
      · obtain ⟨some_, small, positive⟩ := called
        rw [if_pos ⟨rfl, some_, small, positive⟩, futexNotifySync_available]
        exact (documented.wakes waiters count mask.toInt32 some_ small
          fun zero => positive (toInt32_eq_zero.1 zero)).2.wakesUpTo distinct
      · rw [if_neg (fun all => called all.2)]
        have refused : count = 0 ∨ 2 ^ 32 ≤ count.toNat ∨ mask = 0 ∨
            overlapping count.toUInt32 waiters = [] := by
          by_contra fails
          simp only [not_or, Nat.not_le] at fails
          exact called ⟨fails.1, fails.2.1, fails.2.2.1⟩
        rw [(available_nobody_iff documented).2 refused]
        rfl

/-! ### When a notify does what it is to do -/

/-- A kernel without futex_wake leaves every waiter asleep. So both kernels do what the call
is to do just where there is nobody to wake, and where the call with the count for its mask
finds nobody either. -/
theorem notifies_iff (documented : kernel.Documented) (waiters : List (Waiter Party))
    (count : UInt64) (mask : UInt32) :
    (Notifies kernel false waiters count mask ↔ count = 0 ∨ overlapping mask waiters = []) ∧
      (Notifies kernel false waiters count mask ∧ Notifies kernel true waiters count mask ↔
        count = 0 ∨
          overlapping mask waiters = [] ∧
            (2 ^ 32 ≤ count.toNat ∨ mask = 0 ∨ overlapping count.toUInt32 waiters = [])) := by
  have missing : Notifies kernel false waiters count mask ↔
      count = 0 ∨ overlapping mask waiters = [] := by
    unfold Notifies
    rw [futexNotifySync_missing]
    exact wakes_nobody_iff
  -- Where there is nobody to wake, the other kernel is right if it wakes nobody.
  have available : count = 0 ∨ overlapping mask waiters = [] →
      (Notifies kernel true waiters count mask ↔
        (futexNotifySync kernel true waiters count mask).2 = []) := by
    intro nobody
    unfold Notifies
    constructor
    · intro wakes
      have number := wakes.number
      rcases nobody with zero | none_
      · rw [zero, UInt64.toNat_zero, Nat.zero_min] at number
        rw [zero]
        exact List.eq_nil_of_length_eq_zero number
      · rw [none_, List.length_nil, Nat.min_zero] at number
        exact List.eq_nil_of_length_eq_zero number
    · intro nothing
      rw [nothing]
      exact wakes_nobody_iff.2 nobody
  refine ⟨missing, ?_⟩
  rw [missing, or_and_left]
  constructor
  · rintro ⟨nobody, notifies⟩
    have nothing := (available_nobody_iff documented).1 ((available nobody).1 notifies)
    exact ⟨nobody, nothing⟩
  · rintro ⟨nobody, nothing⟩
    exact ⟨nobody, (available nobody).2 ((available_nobody_iff documented).2 nothing)⟩

/-- A kernel that wakes the waiters in their order. -/
def inOrder : FutexKernel Party where
  futexWake waiters mask nr :=
    if mask = 0 ∨ 2 ^ 32 ≤ mask.toNat then (-22, [])
    else if nr = 0 then (0, [])
    else
      let woken := (overlapping mask.toUInt32 waiters).take (atMost nr)
      (woken.length, woken)
  wakeBitset waiters val bitset :=
    if bitset = 0 then (-22, [])
    else
      let woken := (overlapping bitset waiters).take (atMost val)
      (woken.length, woken)

theorem wakes_take (waiters : List (Waiter Party)) (mask : UInt32) (count : Nat) :
    Wakes waiters mask count ((overlapping mask waiters).take count) where
  among := List.take_sublist _ _
  number := List.length_take

theorem inOrder_documented : (inOrder : FutexKernel Party).Documented where
  refuses waiters mask nr refused := if_pos refused
  nothing waiters mask some_ small := by
    change (if _ then _ else _) = _
    rw [if_neg (not_or.2 ⟨some_, Nat.not_le.2 small⟩)]
    rfl
  wakes waiters mask nr some_ small positive := by
    have called : inOrder.futexWake waiters mask nr =
        ((((overlapping mask.toUInt32 waiters).take (atMost nr)).length : Int),
          (overlapping mask.toUInt32 waiters).take (atMost nr)) := by
      change (if _ then _ else _) = _
      rw [if_neg (not_or.2 ⟨some_, Nat.not_le.2 small⟩), if_neg positive]
    rw [called]
    exact ⟨rfl, wakes_take _ _ _⟩
  bitsetRefuses waiters val := rfl
  bitsetWakes waiters val bitset some_ := by
    have called : inOrder.wakeBitset waiters val bitset =
        ((((overlapping bitset waiters).take (atMost val)).length : Int),
          (overlapping bitset waiters).take (atMost val)) := if_neg some_
    rw [called]
    exact ⟨rfl, wakes_take _ _ _⟩

/-- A waiter that is not meant, by the mask or by the count. -/
theorem notifies_other : Notifies inOrder false [⟨0, 4⟩] 1 2 ∧
    Notifies (inOrder : FutexKernel Nat) true [⟨0, 4⟩] 1 2 :=
  (notifies_iff inOrder_documented [⟨0, 4⟩] 1 2).2.2 (.inr ⟨by decide, .inr (.inr (by decide))⟩)

/-- The unlock of a mutex with one waiter, on a kernel without futex_wake; and a notify of
everybody with three waiters, on one that has it. -/
theorem notify_lost :
    futexNotifySync (inOrder : FutexKernel Nat) false [⟨0, 0xffffffff⟩] 1 0xffffffff =
        (.error (.errc 1), []) ∧
      ¬Notifies (inOrder : FutexKernel Nat) false [⟨0, 0xffffffff⟩] 1 0xffffffff ∧
      (futexNotifySync (inOrder : FutexKernel Nat) true
        [⟨0, 0xffffffff⟩, ⟨1, 0xffffffff⟩, ⟨2, 0xffffffff⟩] futexNotifyAll 0xffffffff).2 =
        [⟨0, 0xffffffff⟩] := by
  refine ⟨by decide, ?_, by decide⟩
  intro notifies
  exact absurd notifies.number (by decide)

end FutexNotify

end MCoro
