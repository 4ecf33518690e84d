/-
The submission queue behind co_async/platform/platform_io.hpp, with the functions of
3rd/liburing that it uses.

The counters are 32-bit words that wrap around, and an entry is named by the value
of sqe_tail at which it was obtained. Without a polling thread the kernel takes
entries only inside io_uring_enter, whose answers are a list given beforehand. Each
argument of link_ops obtains its entry when it is evaluated, the link flag is set in
the body.
-/

import MCoro.Library.Words
import MCoro.Platform.PlatformIO

namespace MCoro.SubmissionQueue

/-- io_uring_sqe, as far as user_data and flags go. -/
structure Sqe (Op : Type) where
  userData : Option Op
  flags : UInt8
  deriving DecidableEq, Repr

/-- `IOSQE_IO_LINK` -/
def iosqeIoLink : UInt8 :=
  (1 : UInt8) <<< 2

/-- io_uring_sq, where the kernel's counters are read through pointers. -/
structure Ring (Op : Type) where
  khead : UInt32
  ktail : UInt32
  sqeHead : UInt32
  sqeTail : UInt32
  ringEntries : UInt32
  sqes : UInt32 → Sqe Op
  /-- The kernel rounds the size up to a power of two. -/
  entries : ∃ bits < 32, ringEntries.toNat = 2 ^ bits
  published : ktail = sqeHead
  fits : sqeTail - khead ≤ ringEntries

variable {Op : Type}

namespace Ring

/-- `sqe_tail & ring_mask` -/
def slot (ring : Ring Op) (position : UInt32) : UInt32 :=
  position &&& (ring.ringEntries - 1)

def sqe (ring : Ring Op) (position : UInt32) : Sqe Op :=
  ring.sqes (ring.slot position)

/-- io_uring_sq_ready -/
def sqReady (ring : Ring Op) : UInt32 :=
  ring.sqeTail - ring.khead

/-- io_uring_sq_space_left -/
def sqSpaceLeft (ring : Ring Op) : UInt32 :=
  ring.ringEntries - ring.sqReady

/-- io_uring_get_sqe -/
def getSqe (ring : Ring Op) : Option (UInt32 × Ring Op) :=
  if fits : ring.sqeTail + 1 - ring.khead ≤ ring.ringEntries then
    some (ring.sqeTail,
      { ring with
        sqeTail := ring.sqeTail + 1
        fits := fits })
  else none

/-- __io_uring_flush_sq -/
def flushSq (ring : Ring Op) : Ring Op :=
  if ring.sqeHead ≠ ring.sqeTail then
    { ring with
      sqeHead := ring.sqeTail
      ktail := ring.sqeTail
      published := rfl }
  else ring

/-- Through the pointer to an entry. -/
def modify (ring : Ring Op) (position : UInt32) (change : Sqe Op → Sqe Op) : Ring Op :=
  { ring with
    sqes := Function.update ring.sqes (ring.slot position) (change (ring.sqe position)) }

@[simp] theorem modify_sqe (ring : Ring Op) (position : UInt32) (change : Sqe Op → Sqe Op) :
    (ring.modify position change).sqe position = change (ring.sqe position) :=
  Function.update_self ..

theorem modify_sqe_of_ne {ring : Ring Op} {position other : UInt32}
    (apart : ring.slot other ≠ ring.slot position) (change : Sqe Op → Sqe Op) :
    (ring.modify position change).sqe other = ring.sqe other :=
  Function.update_of_ne apart ..

/-- How many entries io_uring_enter takes when it is to take `count`: not more than there are. -/
def taken (ring : Ring Op) (count : UInt32) : UInt32 :=
  if count ≤ ring.sqReady then count else ring.sqReady

theorem taken_le (ring : Ring Op) (count : UInt32) : ring.taken count ≤ ring.sqReady := by
  unfold taken
  split
  · assumption
  · exact UInt32.le_refl _

theorem fits_taken (ring : Ring Op) (count : UInt32) :
    ring.sqeTail - (ring.khead + ring.taken count) ≤ ring.ringEntries := by
  have fits := ring.fits
  have few := ring.taken_le count
  rw [UInt32.le_iff_toNat_le, toNat_sub_add few]
  rw [UInt32.le_iff_toNat_le] at fits
  omega

def take (ring : Ring Op) (count : UInt32) : Ring Op :=
  { ring with
    khead := ring.khead + ring.taken count
    fits := ring.fits_taken count }

end Ring

/-- What io_uring_enter answers. -/
inductive Enter where
  /-- It took so many entries, at most. -/
  | took (count : UInt32)
  | failed (errno : Nat)
  deriving DecidableEq, Repr

def EINTR : Nat :=
  4

structure RingContext (Op : Type) extends PlatformIOContext where
  mRing : Ring Op
  /-- The queue at each io_uring_submit, as the kernel gets to see it. -/
  submits : List (Ring Op)

inductive NoSqe where
  /-- `throw std::system_error` -/
  | thrown (errno : Nat)
  | waiting
  deriving DecidableEq, Repr

structure Reserved (Op : Type) where
  sqe : Except NoSqe UInt32
  context : RingContext Op
  answers : List Enter

namespace RingContext

/-- The first part of io_uring_submit. -/
def flush (context : RingContext Op) : RingContext Op :=
  { context with
    mRing := context.mRing.flushSq
    submits := context.submits ++ [context.mRing.flushSq] }

/-- The end of getSqe. -/
def reserve (context : RingContext Op) (position : UInt32) (ring : Ring Op)
    (answers : List Enter) : Reserved Op :=
  { sqe := .ok position
    context :=
      { context with
        toPlatformIOContext := context.toPlatformIOContext.getSqe
        mRing := ring }
    answers := answers }

/-- The loop of getSqe, entered with a null sqe. -/
def getSqeLoop (context : RingContext Op) : List Enter → Reserved Op
  | [] =>
      { sqe := .error .waiting
        context := context.flush
        answers := [] }
  | .failed errno :: answers =>
      if errno = EINTR then context.flush.getSqeLoop answers
      else
        { sqe := .error (.thrown errno)
          context := context.flush
          answers := answers }
  | .took count :: answers =>
      let ring := context.flush.mRing.take count
      match ring.getSqe with
      | some (position, ring) => context.flush.reserve position ring answers
      | none => { context.flush with mRing := ring }.getSqeLoop answers

theorem getSqeLoop_of_null {context : RingContext Op} {count : UInt32} (answers : List Enter)
    (null : (context.flush.mRing.take count).getSqe = none) :
    context.getSqeLoop (.took count :: answers) =
      getSqeLoop { context.flush with mRing := context.flush.mRing.take count } answers := by
  simp only [getSqeLoop, null]

theorem getSqeLoop_of_entry {context : RingContext Op} {count position : UInt32} {ring : Ring Op}
    (answers : List Enter)
    (entry : (context.flush.mRing.take count).getSqe = some (position, ring)) :
    context.getSqeLoop (.took count :: answers) =
      context.flush.reserve position ring answers := by
  simp only [getSqeLoop, entry]

def getSqe (context : RingContext Op) (answers : List Enter) : Reserved Op :=
  match context.mRing.getSqe with
  | some (position, ring) => context.reserve position ring answers
  | none => context.getSqeLoop answers

def modify (context : RingContext Op) (position : UInt32) (change : Sqe Op → Sqe Op) :
    RingContext Op :=
  { context with mRing := context.mRing.modify position change }

/-- io_uring_sqe_set_data in the constructor of UringOp, and io_uring_prep_rw in the prep_
function called on it. -/
def prepare (context : RingContext Op) (position : UInt32) (op : Op) :
    RingContext Op :=
  (context.modify position fun sqe => { sqe with userData := some op }).modify position
    fun sqe => { sqe with flags := 0 }

/-- `UringOp().prep_...(...)`, an argument of link_ops. -/
def argument (context : RingContext Op) (answers : List Enter) (op : Op) : Reserved Op :=
  let reserved := context.getSqe answers
  match reserved.sqe with
  | .ok position => { reserved with context := reserved.context.prepare position op }
  | .error _ => reserved

end RingContext

/-- Which argument of link_ops is evaluated first. -/
inductive Order where
  | lhsFirst
  | rhsFirst
  deriving DecidableEq, Repr

/-- The entries that were obtained, by the arguments in the order of their evaluation. -/
structure Arguments (Op : Type) where
  first : Option UInt32
  second : Option UInt32
  context : RingContext Op

/-- An exception in an argument ends the evaluation. -/
def arguments (first second : Op) (context : RingContext Op) (answers : List Enter) :
    Arguments Op :=
  let one := context.argument answers first
  match one.sqe with
  | .error _ =>
      { first := none
        second := none
        context := one.context }
  | .ok position =>
      let two := one.context.argument one.answers second
      { first := some position
        second := two.sqe.toOption
        context := two.context }

structure Linked (Op : Type) where
  lhs : Option UInt32
  rhs : Option UInt32
  context : RingContext Op

/-- `lhs.mSqe->flags |= IOSQE_IO_LINK`, the body of link_ops, which needs both arguments. -/
def linkOpsBody (linked : Linked Op) : Linked Op :=
  match linked.lhs, linked.rhs with
  | some position, some _ =>
      { linked with
        context := linked.context.modify position fun sqe =>
          { sqe with flags := sqe.flags ||| iosqeIoLink } }
  | _, _ => linked

def linkOps (order : Order) (lhs rhs : Op) (context : RingContext Op)
    (answers : List Enter) : Linked Op :=
  match order with
  | .lhsFirst =>
      let evaluated := arguments lhs rhs context answers
      linkOpsBody
        { lhs := evaluated.first
          rhs := evaluated.second
          context := evaluated.context }
  | .rhsFirst =>
      let evaluated := arguments rhs lhs context answers
      linkOpsBody
        { lhs := evaluated.second
          rhs := evaluated.first
          context := evaluated.context }

end MCoro.SubmissionQueue
