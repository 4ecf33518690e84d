/-
link_ops: where the two entries stand, and whether the kernel sees the first of them
before it carries the link flag.

An argument obtains its entry without io_uring_submit as long as there is space left.
So all depends on which argument comes first and on the space behind its entry.
-/

import MCoro.Platform.SubmissionQueue

namespace MCoro.SubmissionQueue

variable {Op : Type}

/-! ### One entry -/

namespace Ring

theorem sqReady_le (ring : Ring Op) : ring.sqReady.toNat ≤ ring.ringEntries.toNat :=
  UInt32.le_iff_toNat_le.1 ring.fits

theorem ringEntries_pos (ring : Ring Op) : 0 < ring.ringEntries.toNat := by
  obtain ⟨bits, _, power⟩ := ring.entries
  rw [power]
  exact Nat.two_pow_pos bits

theorem ringEntries_le (ring : Ring Op) : ring.ringEntries.toNat ≤ 2 ^ 31 := by
  obtain ⟨bits, narrow, power⟩ := ring.entries
  rw [power]
  exact Nat.pow_le_pow_right (by decide) (by omega)

/-- The ring after io_uring_get_sqe, or with what was read and written in between. -/
structure Advanced (ring next : Ring Op) : Prop where
  khead : next.khead = ring.khead
  sqeTail : next.sqeTail = ring.sqeTail + 1
  ringEntries : next.ringEntries = ring.ringEntries
  sqes : next.sqes = ring.sqes

theorem Advanced.sqReady {ring next : Ring Op} (advanced : Advanced ring next) :
    next.sqReady.toNat = ring.sqReady.toNat + 1 := by
  have few := ring.sqReady_le
  have most := ring.ringEntries_le
  unfold Ring.sqReady
  rw [advanced.khead, advanced.sqeTail]
  apply toNat_add_one_sub
  change ring.sqReady.toNat + 1 < _
  omega

theorem getSqe_cases (ring : Ring Op) :
    (ring.sqReady.toNat < ring.ringEntries.toNat ∧
        ∃ next, ring.getSqe = some (ring.sqeTail, next) ∧ Advanced ring next) ∨
      (ring.sqReady.toNat = ring.ringEntries.toNat ∧ ring.getSqe = none) := by
  have few := ring.sqReady_le
  have most := ring.ringEntries_le
  have ready : (ring.sqeTail + 1 - ring.khead).toNat = ring.sqReady.toNat + 1 := by
    apply toNat_add_one_sub
    change ring.sqReady.toNat + 1 < _
    omega
  unfold getSqe
  by_cases fits : ring.sqeTail + 1 - ring.khead ≤ ring.ringEntries
  · rw [dif_pos fits]
    rw [UInt32.le_iff_toNat_le, ready] at fits
    exact .inl ⟨fits, _, rfl, rfl, rfl, rfl, rfl⟩
  · rw [dif_neg fits]
    rw [UInt32.le_iff_toNat_le, ready] at fits
    exact .inr ⟨by omega, rfl⟩

theorem getSqe_of_free {ring : Ring Op} (free : ring.sqReady.toNat < ring.ringEntries.toNat) :
    ∃ next, ring.getSqe = some (ring.sqeTail, next) ∧ Advanced ring next := by
  rcases ring.getSqe_cases with ⟨_, next⟩ | ⟨full, _⟩
  · exact next
  · omega

theorem getSqe_of_full {ring : Ring Op} (full : ring.sqReady.toNat = ring.ringEntries.toNat) :
    ring.getSqe = none := by
  rcases ring.getSqe_cases with ⟨free, _⟩ | ⟨_, null⟩
  · omega
  · exact null

theorem flushSq_fields (ring : Ring Op) :
    ring.flushSq.ktail = ring.sqeTail ∧ ring.flushSq.khead = ring.khead ∧
      ring.flushSq.sqeTail = ring.sqeTail ∧ ring.flushSq.ringEntries = ring.ringEntries ∧
      ring.flushSq.sqes = ring.sqes := by
  unfold flushSq
  by_cases behind : ring.sqeHead ≠ ring.sqeTail
  · rw [if_pos behind]
    exact ⟨rfl, rfl, rfl, rfl, rfl⟩
  · rw [if_neg behind]
    exact ⟨ring.published.trans (not_not.1 behind), rfl, rfl, rfl, rfl⟩

theorem flushSq_sqReady (ring : Ring Op) : ring.flushSq.sqReady = ring.sqReady := by
  obtain ⟨_, khead, sqeTail, _⟩ := ring.flushSq_fields
  unfold sqReady
  rw [khead, sqeTail]

theorem take_sqReady (ring : Ring Op) (count : UInt32) :
    (ring.take count).sqReady.toNat =
      ring.sqReady.toNat - min count.toNat ring.sqReady.toNat := by
  have taken : (ring.taken count).toNat = min count.toNat ring.sqReady.toNat := by
    unfold Ring.taken
    by_cases few : count ≤ ring.sqReady
    · rw [if_pos few]
      rw [UInt32.le_iff_toNat_le] at few
      omega
    · rw [if_neg few]
      rw [UInt32.le_iff_toNat_le] at few
      omega
  rw [← taken]
  exact toNat_sub_add (ring.taken_le count)

/-- The kernel has the entry in its part of the queue. -/
def Visible (ring : Ring Op) (position : UInt32) : Prop :=
  position - ring.khead < ring.ktail - ring.khead

instance (ring : Ring Op) (position : UInt32) : Decidable (ring.Visible position) :=
  inferInstanceAs (Decidable (_ < _))

def IsLinked (ring : Ring Op) (position : UInt32) : Prop :=
  (ring.sqe position).flags &&& iosqeIoLink ≠ 0

theorem not_visible_of_ktail {ring : Ring Op} {position : UInt32}
    (tail : ring.ktail = position) : ¬ring.Visible position := by
  unfold Visible
  rw [tail]
  exact UInt32.lt_irrefl _

end Ring

/-! ### The loop of getSqe -/

/-- How many entries the first answer lets go that lets go of any; none where an error comes
before, or no such answer. -/
def firstFreed : List Enter → Option UInt32
  | [] => none
  | .failed errno :: answers => if errno = EINTR then firstFreed answers else none
  | .took count :: answers => if count = 0 then firstFreed answers else some count

namespace RingContext

/-- What io_uring_submit leaves as it is; it shows the kernel the entries up to sqe_tail. -/
structure Waited (before after : RingContext Op) : Prop where
  sqes : after.mRing.sqes = before.mRing.sqes
  ringEntries : after.mRing.ringEntries = before.mRing.ringEntries
  grows : ∀ ring ∈ before.submits, ring ∈ after.submits
  shown : ∀ ring ∈ after.submits, ring ∈ before.submits ∨ ring.ktail = before.mRing.sqeTail

theorem flush_waited (context : RingContext Op) : Waited context context.flush := by
  obtain ⟨ktail, _, _, ringEntries, sqes⟩ := context.mRing.flushSq_fields
  constructor
  case sqes => exact sqes
  case ringEntries => exact ringEntries
  case grows =>
    intro ring member
    exact List.mem_append_left _ member
  case shown =>
    intro ring member
    rcases List.mem_append.1 member with old | new
    · exact .inl old
    · rw [List.mem_singleton.1 new]
      exact .inr ktail

theorem Waited.advance {before after : RingContext Op} (waited : Waited before after)
    {pending : PlatformIOContext} {ring : Ring Op} (sqes : ring.sqes = after.mRing.sqes)
    (ringEntries : ring.ringEntries = after.mRing.ringEntries) :
    Waited before
      { toPlatformIOContext := pending
        mRing := ring
        submits := after.submits } where
  sqes := sqes.trans waited.sqes
  ringEntries := ringEntries.trans waited.ringEntries
  grows := waited.grows
  shown := waited.shown

theorem Waited.trans {before between after : RingContext Op} (first : Waited before between)
    (second : Waited between after) (sqeTail : between.mRing.sqeTail = before.mRing.sqeTail) :
    Waited before after := by
  constructor
  case sqes => rw [second.sqes, first.sqes]
  case ringEntries => rw [second.ringEntries, first.ringEntries]
  case grows =>
    intro ring member
    exact second.grows ring (first.grows ring member)
  case shown =>
    intro ring member
    rcases second.shown ring member with old | tail
    · exact first.shown ring old
    · rw [sqeTail] at tail
      exact .inr tail

/-- How the loop ends that was entered with a full queue. -/
structure LoopEnded (context : RingContext Op) (answers : List Enter) (reserved : Reserved Op) :
    Prop where
  waited : Waited context reserved.context
  /-- The kernel sees the whole queue before it answers. -/
  submitted : context.mRing.flushSq ∈ reserved.context.submits
  no_entry : firstFreed answers = none → ∀ position, reserved.sqe ≠ .ok position
  entry : ∀ freed, firstFreed answers = some freed →
    reserved.sqe = .ok context.mRing.sqeTail ∧
      reserved.context.mRing.sqeTail = context.mRing.sqeTail + 1 ∧
      reserved.context.mRing.sqReady.toNat =
        context.mRing.ringEntries.toNat - min freed.toNat context.mRing.ringEntries.toNat + 1

theorem LoopEnded.round {context between : RingContext Op} {answers rest : List Enter}
    {reserved : Reserved Op} (ended : LoopEnded between rest reserved)
    (waited : Waited context between)
    (sqeTail : between.mRing.sqeTail = context.mRing.sqeTail)
    (submitted : context.mRing.flushSq ∈ between.submits)
    (same : firstFreed answers = firstFreed rest) : LoopEnded context answers reserved := by
  constructor
  case waited => exact waited.trans ended.waited sqeTail
  case submitted => exact ended.waited.grows _ submitted
  case no_entry =>
    intro none_
    exact ended.no_entry (same.symm.trans none_)
  case entry =>
    intro freed some_
    have entry := ended.entry freed (same.symm.trans some_)
    rw [sqeTail, waited.ringEntries] at entry
    exact entry

theorem flush_submits (context : RingContext Op) : context.mRing.flushSq ∈ context.flush.submits :=
  List.mem_append_right _ (List.mem_singleton.2 rfl)

theorem flush_sqeTail (context : RingContext Op) :
    context.flush.mRing.sqeTail = context.mRing.sqeTail :=
  context.mRing.flushSq_fields.2.2.1

theorem flush_full {context : RingContext Op}
    (full : context.mRing.sqReady.toNat = context.mRing.ringEntries.toNat) :
    context.flush.mRing.sqReady.toNat = context.flush.mRing.ringEntries.toNat := by
  change context.mRing.flushSq.sqReady.toNat = context.mRing.flushSq.ringEntries.toNat
  rw [Ring.flushSq_sqReady, context.mRing.flushSq_fields.2.2.2.1]
  exact full

theorem LoopEnded.stop {context : RingContext Op} {answers : List Enter} (failure : NoSqe)
    (rest : List Enter) (nothing : firstFreed answers = none) :
    LoopEnded context answers
      { sqe := .error failure
        context := context.flush
        answers := rest } := by
  constructor
  case waited => exact context.flush_waited
  case submitted => exact context.flush_submits
  case no_entry =>
    intro _ position entry
    cases entry
  case entry =>
    intro freed first
    rw [nothing] at first
    cases first

theorem LoopEnded.obtained {context : RingContext Op} {count : UInt32} (some_ : count ≠ 0)
    (rest : List Enter)
    (full : context.mRing.sqReady.toNat = context.mRing.ringEntries.toNat) :
    LoopEnded context (.took count :: rest) (context.getSqeLoop (.took count :: rest)) := by
  have frees : firstFreed (.took count :: rest) = some count := if_neg some_
  have positive : count.toNat ≠ 0 := fun zero => some_ (UInt32.toNat_inj.1 zero)
  have sqReady := context.flush.mRing.take_sqReady count
  rw [flush_full full] at sqReady
  have size := context.flush.mRing.ringEntries_pos
  have free : (context.flush.mRing.take count).sqReady.toNat <
      (context.flush.mRing.take count).ringEntries.toNat := by
    change _ < context.flush.mRing.ringEntries.toNat
    omega
  obtain ⟨next, entry, advanced⟩ := Ring.getSqe_of_free free
  have sqeTail : (context.flush.mRing.take count).sqeTail = context.mRing.sqeTail :=
    context.flush_sqeTail
  rw [getSqeLoop_of_entry rest entry]
  constructor
  case waited => exact context.flush_waited.advance advanced.sqes advanced.ringEntries
  case submitted => exact context.flush_submits
  case no_entry =>
    intro nothing
    rw [frees] at nothing
    cases nothing
  case entry =>
    intro freed first
    rw [frees, Option.some_inj] at first
    subst first
    refine ⟨congrArg Except.ok sqeTail, ?_, ?_⟩
    · exact advanced.sqeTail.trans (congrArg (· + 1) sqeTail)
    · change next.sqReady.toNat = _
      rw [advanced.sqReady, sqReady, context.flush_waited.ringEntries]

theorem getSqeLoop_ended (answers : List Enter) (context : RingContext Op)
    (full : context.mRing.sqReady.toNat = context.mRing.ringEntries.toNat) :
    LoopEnded context answers (context.getSqeLoop answers) := by
  induction answers generalizing context with
  | nil => exact LoopEnded.stop .waiting [] rfl
  | cons answer rest ih =>
      cases answer with
      | failed errno =>
          by_cases interrupted : errno = EINTR
          · have same : firstFreed (.failed errno :: rest) = firstFreed rest := if_pos interrupted
            have again : context.getSqeLoop (.failed errno :: rest) =
                context.flush.getSqeLoop rest := if_pos interrupted
            rw [again]
            exact (ih context.flush (flush_full full)).round context.flush_waited
              context.flush_sqeTail context.flush_submits same
          · have nothing : firstFreed (.failed errno :: rest) = none := if_neg interrupted
            have thrown : context.getSqeLoop (.failed errno :: rest) =
                { sqe := .error (.thrown errno)
                  context := context.flush
                  answers := rest } := if_neg interrupted
            rw [thrown]
            exact LoopEnded.stop (.thrown errno) rest nothing
      | took count =>
          by_cases nothing : count = 0
          · have same : firstFreed (.took count :: rest) = firstFreed rest := if_pos nothing
            have still : (context.flush.mRing.take count).sqReady.toNat =
                (context.flush.mRing.take count).ringEntries.toNat := by
              rw [Ring.take_sqReady, nothing]
              exact flush_full full
            rw [getSqeLoop_of_null rest (Ring.getSqe_of_full still)]
            exact (ih { context.flush with mRing := context.flush.mRing.take count } still).round
              (context.flush_waited.advance rfl rfl) context.flush_sqeTail context.flush_submits
              same
          · exact LoopEnded.obtained nothing rest full

/-! ### One argument of link_ops -/

theorem prepare_sqes (context : RingContext Op) (position : UInt32) (op : Op) :
    (context.prepare position op).mRing.sqes =
      Function.update context.mRing.sqes (context.mRing.slot position)
        { userData := some op
          flags := 0 } := by
  have inner : (context.modify position fun sqe => { sqe with userData := some op }).mRing.sqe
      position = { context.mRing.sqe position with userData := some op } :=
    Function.update_self ..
  have outer : (context.prepare position op).mRing.sqes =
      Function.update (Function.update context.mRing.sqes (context.mRing.slot position)
        { context.mRing.sqe position with userData := some op }) (context.mRing.slot position)
        { (context.modify position fun sqe => { sqe with userData := some op }).mRing.sqe
          position with flags := 0 } := rfl
  rw [outer, inner, Function.update_idem]

/-- The argument has its entry, and no other was written. -/
structure Placed (context : RingContext Op) (op : Op) (reserved : Reserved Op) : Prop where
  sqe : reserved.sqe = .ok context.mRing.sqeTail
  sqeTail : reserved.context.mRing.sqeTail = context.mRing.sqeTail + 1
  ringEntries : reserved.context.mRing.ringEntries = context.mRing.ringEntries
  sqes : reserved.context.mRing.sqes =
    Function.update context.mRing.sqes (context.mRing.slot context.mRing.sqeTail)
      { userData := some op
        flags := 0 }

theorem Placed.of_prepare {context between : RingContext Op} (op : Op) (answers : List Enter)
    (sqeTail : between.mRing.sqeTail = context.mRing.sqeTail + 1)
    (ringEntries : between.mRing.ringEntries = context.mRing.ringEntries)
    (sqes : between.mRing.sqes = context.mRing.sqes) :
    Placed context op
      { sqe := .ok context.mRing.sqeTail
        context := between.prepare context.mRing.sqeTail op
        answers := answers } := by
  constructor
  case sqe => rfl
  case sqeTail => exact sqeTail
  case ringEntries => exact ringEntries
  case sqes =>
    have slot : between.mRing.slot context.mRing.sqeTail =
        context.mRing.slot context.mRing.sqeTail := by
      unfold Ring.slot
      rw [ringEntries]
    rw [← slot, ← sqes]
    exact between.prepare_sqes ..

theorem argument_of_ok {context : RingContext Op} {answers : List Enter} (op : Op)
    {position : UInt32} (sqe : (context.getSqe answers).sqe = .ok position) :
    context.argument answers op =
      { sqe := .ok position
        context := (context.getSqe answers).context.prepare position op
        answers := (context.getSqe answers).answers } := by
  unfold argument
  simp only [sqe]

theorem argument_of_error {context : RingContext Op} {answers : List Enter} (op : Op)
    {failure : NoSqe} (sqe : (context.getSqe answers).sqe = .error failure) :
    context.argument answers op = context.getSqe answers := by
  unfold argument
  simp only [sqe]

theorem argument_of_free {context : RingContext Op} (answers : List Enter) (op : Op)
    (free : context.mRing.sqReady.toNat < context.mRing.ringEntries.toNat) :
    Placed context op (context.argument answers op) ∧
      (context.argument answers op).context.submits = context.submits ∧
      (context.argument answers op).context.mRing.sqReady.toNat =
        context.mRing.sqReady.toNat + 1 := by
  obtain ⟨next, obtained, advanced⟩ := Ring.getSqe_of_free free
  have immediate : context.getSqe answers =
      context.reserve context.mRing.sqeTail next answers := by
    unfold RingContext.getSqe
    rw [obtained]
  have sqe : (context.getSqe answers).sqe = .ok context.mRing.sqeTail := by
    rw [immediate]
    rfl
  rw [argument_of_ok op sqe, immediate]
  constructor
  · exact Placed.of_prepare op answers advanced.sqeTail advanced.ringEntries advanced.sqes
  · exact ⟨rfl, advanced.sqReady⟩

/-- What an argument does that finds the queue full. -/
structure Queued (context : RingContext Op) (answers : List Enter) (op : Op)
    (reserved : Reserved Op) : Prop where
  submitted : context.mRing.flushSq ∈ reserved.context.submits
  shown : ∀ ring ∈ reserved.context.submits,
    ring ∈ context.submits ∨ ring.ktail = context.mRing.sqeTail
  no_entry : firstFreed answers = none → ∃ failure, reserved.sqe = .error failure
  entry : ∀ freed, firstFreed answers = some freed → Placed context op reserved ∧
    reserved.context.mRing.sqReady.toNat =
      context.mRing.ringEntries.toNat - min freed.toNat context.mRing.ringEntries.toNat + 1

theorem argument_of_full {context : RingContext Op} (answers : List Enter) (op : Op)
    (full : context.mRing.sqReady.toNat = context.mRing.ringEntries.toNat) :
    Queued context answers op (context.argument answers op) := by
  have loops : context.getSqe answers = context.getSqeLoop answers := by
    unfold RingContext.getSqe
    rw [Ring.getSqe_of_full full]
  have ended := getSqeLoop_ended answers context full
  rw [← loops] at ended
  cases sqe : (context.getSqe answers).sqe with
  | error failure =>
      rw [argument_of_error op sqe]
      constructor
      case submitted => exact ended.submitted
      case shown => exact ended.waited.shown
      case no_entry =>
        intro _
        exact ⟨failure, sqe⟩
      case entry =>
        intro freed first
        have entry := (ended.entry freed first).1
        rw [sqe] at entry
        cases entry
  | ok position =>
      rw [argument_of_ok op sqe]
      generalize context.getSqe answers = reserved at ended sqe
      constructor
      case submitted => exact ended.submitted
      case shown => exact ended.waited.shown
      case no_entry =>
        intro none_
        exact absurd sqe (ended.no_entry none_ position)
      case entry =>
        intro freed first
        obtain ⟨entry, sqeTail, sqReady⟩ := ended.entry freed first
        rw [sqe] at entry
        cases entry
        constructor
        · exact Placed.of_prepare op _ sqeTail ended.waited.ringEntries ended.waited.sqes
        · exact sqReady

theorem argument_sqe (context : RingContext Op) (answers : List Enter) (op : Op) :
    (∃ failure, (context.argument answers op).sqe = .error failure) ∨
      (context.argument answers op).sqe = .ok context.mRing.sqeTail := by
  rcases context.mRing.getSqe_cases with ⟨free, _⟩ | ⟨full, _⟩
  · exact .inr (argument_of_free answers op free).1.sqe
  · have queued := argument_of_full answers op full
    cases first : firstFreed answers with
    | none => exact .inl (queued.no_entry first)
    | some freed => exact .inr (queued.entry freed first).1.sqe

end RingContext

/-! ### Both arguments -/

/-- The timeout applies to the main operation and to nothing else. -/
structure AppliesToMain (lhs rhs : Op) (linked : Linked Op) : Prop where
  /-- Right before the entry of the timeout there is the main one. -/
  adjacent : ∀ position, linked.rhs = some position → linked.lhs = some (position - 1)
  /-- No io_uring_submit shows the kernel the main entry without the flag. -/
  unseen : ∀ position, linked.lhs = some position → ∀ ring ∈ linked.context.submits,
    ring.Visible position → ring.IsLinked position
  chained : ∀ position next, linked.lhs = some position → linked.rhs = some next →
    linked.context.mRing.sqe position = { userData := some lhs, flags := iosqeIoLink } ∧
      linked.context.mRing.sqe next = { userData := some rhs, flags := 0 }

/-- Where link_ops begins; from here on the submits are recorded. -/
def start (ring : Ring Op) (pending : UInt64) : RingContext Op :=
  { mNumSqesPending := pending
    mRing := ring
    submits := [] }

/-- Two entries are free, or the io_uring_submit for the first of them frees two. -/
def SpaceForTwo (ring : Ring Op) (answers : List Enter) : Prop :=
  2 ≤ ring.sqSpaceLeft ∨ ring.sqSpaceLeft = 0 ∧ 2 ≤ ring.ringEntries ∧
    ∃ freed, firstFreed answers = some freed ∧ 2 ≤ freed

/-- The queue is full, and io_uring_submit fails or frees nothing. -/
def NoSpace (ring : Ring Op) (answers : List Enter) : Prop :=
  ring.sqSpaceLeft = 0 ∧ firstFreed answers = none

theorem arguments_of_error {first second : Op} {context : RingContext Op} {answers : List Enter}
    {failure : NoSqe} (error : (context.argument answers first).sqe = .error failure) :
    arguments first second context answers =
      { first := none
        second := none
        context := (context.argument answers first).context } := by
  unfold arguments
  simp only [error]

theorem arguments_of_placed {first : Op} (second : Op) {context : RingContext Op}
    {answers : List Enter} {one : Reserved Op} (evaluated : context.argument answers first = one)
    (placed : RingContext.Placed context first one) :
    arguments first second context answers =
      { first := some context.mRing.sqeTail
        second := (one.context.argument one.answers second).sqe.toOption
        context := (one.context.argument one.answers second).context } := by
  unfold arguments
  simp only [evaluated, placed.sqe]

theorem applies_of_nothing {lhs rhs : Op} {linked : Linked Op} (noLhs : linked.lhs = none)
    (noRhs : linked.rhs = none) : AppliesToMain lhs rhs linked := by
  constructor
  case adjacent =>
    intro position some_
    rw [noRhs] at some_
    cases some_
  case unseen =>
    intro position some_
    rw [noLhs] at some_
    cases some_
  case chained =>
    intro position next some_
    rw [noLhs] at some_
    cases some_

@[simp] theorem linkOpsBody_lhs (linked : Linked Op) : (linkOpsBody linked).lhs = linked.lhs := by
  unfold linkOpsBody
  split
  · rfl
  · rfl

@[simp] theorem linkOpsBody_rhs (linked : Linked Op) : (linkOpsBody linked).rhs = linked.rhs := by
  unfold linkOpsBody
  split
  · rfl
  · rfl

theorem linkOpsBody_submits (linked : Linked Op) :
    (linkOpsBody linked).context.submits = linked.context.submits := by
  unfold linkOpsBody
  split
  · rfl
  · rfl

theorem rhsFirst_fails {lhs rhs : Op} {context : RingContext Op} {answers : List Enter}
    {one : Reserved Op} (evaluated : context.argument answers rhs = one)
    (placed : RingContext.Placed context rhs one) :
    ¬AppliesToMain lhs rhs (linkOps .rhsFirst lhs rhs context answers) := by
  intro applies
  unfold linkOps at applies
  rw [arguments_of_placed lhs evaluated placed] at applies
  have behind := applies.adjacent context.mRing.sqeTail (linkOpsBody_rhs _)
  rw [linkOpsBody_lhs] at behind
  rcases RingContext.argument_sqe one.context one.answers lhs with ⟨failure, error⟩ | ok
  · rw [error] at behind
    cases behind
  · rw [ok, placed.sqeTail] at behind
    have same := congrArg UInt32.toNat (Option.some.inj behind)
    have small := context.mRing.sqeTail.toNat_lt
    rw [UInt32.toNat_add, UInt32.toNat_sub] at same
    change (context.mRing.sqeTail.toNat + 1) % 2 ^ 32 =
      (2 ^ 32 - 1 + context.mRing.sqeTail.toNat) % 2 ^ 32 at same
    omega

theorem Ring.slot_ne (ring : Ring Op) (position : UInt32) (two : 2 ≤ ring.ringEntries.toNat) :
    ring.slot (position + 1) ≠ ring.slot position := by
  obtain ⟨bits, narrow, power⟩ := ring.entries
  exact (and_mask_ne power narrow two).symm

theorem RingContext.Placed.sqe_placed {context : RingContext Op} {op : Op} {reserved : Reserved Op}
    (placed : RingContext.Placed context op reserved) :
    reserved.context.mRing.sqe context.mRing.sqeTail = { userData := some op, flags := 0 } := by
  have slot : reserved.context.mRing.slot context.mRing.sqeTail =
      context.mRing.slot context.mRing.sqeTail := by
    unfold Ring.slot
    rw [placed.ringEntries]
  unfold Ring.sqe
  rw [slot, placed.sqes]
  exact Function.update_self ..

theorem RingContext.Placed.sqe_of_ne {context : RingContext Op} {op : Op} {reserved : Reserved Op}
    (placed : RingContext.Placed context op reserved) {position : UInt32}
    (apart : context.mRing.slot position ≠ context.mRing.slot context.mRing.sqeTail) :
    reserved.context.mRing.sqe position = context.mRing.sqe position := by
  have slot : reserved.context.mRing.slot position = context.mRing.slot position := by
    unfold Ring.slot
    rw [placed.ringEntries]
  unfold Ring.sqe
  rw [slot, placed.sqes]
  exact Function.update_of_ne apart ..

/-- With a full queue behind the main entry, the next io_uring_submit shows it as it is. -/
theorem lhsFirst_fails {lhs rhs : Op} {context : RingContext Op} {answers : List Enter}
    {one : Reserved Op} (evaluated : context.argument answers lhs = one)
    (placed : RingContext.Placed context lhs one)
    (full : one.context.mRing.sqReady.toNat = one.context.mRing.ringEntries.toNat) :
    ¬AppliesToMain lhs rhs (linkOps .lhsFirst lhs rhs context answers) := by
  intro applies
  unfold linkOps at applies
  rw [arguments_of_placed rhs evaluated placed] at applies
  have unseen := applies.unseen context.mRing.sqeTail (linkOpsBody_lhs _)
  rw [linkOpsBody_submits] at unseen
  obtain ⟨ktail, khead, _, ringEntries, sqes⟩ := one.context.mRing.flushSq_fields
  have visible : one.context.mRing.flushSq.Visible context.mRing.sqeTail := by
    have size := one.context.mRing.ringEntries_pos
    rw [← full] at size
    unfold Ring.sqReady at size
    unfold Ring.Visible
    rw [ktail, khead]
    rw [placed.sqeTail] at size ⊢
    exact sub_lt_add_one_sub size
  have submitted := (RingContext.argument_of_full one.answers rhs full).submitted
  have isLinked := unseen _ submitted visible
  have sqe := placed.sqe_placed
  unfold Ring.sqe Ring.slot at sqe
  unfold Ring.IsLinked Ring.sqe Ring.slot at isLinked
  rw [sqes, ringEntries, sqe] at isLinked
  change (0 : UInt8) &&& iosqeIoLink ≠ 0 at isLinked
  exact isLinked (by decide)

theorem linked_entries {lhs rhs : Op} {context : RingContext Op} {position : UInt32}
    {two : Reserved Op} (main : context.mRing.sqe position = { userData := some lhs, flags := 0 })
    (tail : context.mRing.sqeTail = position + 1) (placed : RingContext.Placed context rhs two)
    (room : 2 ≤ context.mRing.ringEntries.toNat) :
    (two.context.mRing.modify position
        fun sqe => { sqe with flags := sqe.flags ||| iosqeIoLink }).sqe position =
        { userData := some lhs, flags := iosqeIoLink } ∧
      (two.context.mRing.modify position
        fun sqe => { sqe with flags := sqe.flags ||| iosqeIoLink }).sqe (position + 1) =
        { userData := some rhs, flags := 0 } := by
  have apart := context.mRing.slot_ne position room
  have timeout := placed.sqe_placed
  rw [tail] at timeout
  constructor
  · rw [Ring.modify_sqe, placed.sqe_of_ne (by rw [tail]; exact apart.symm), main]
    have flags : (0 : UInt8) ||| iosqeIoLink = iosqeIoLink := by decide
    exact congrArg (Sqe.mk (some lhs)) flags
  · rw [Ring.modify_sqe_of_ne, timeout]
    unfold Ring.slot
    rw [placed.ringEntries]
    exact apart

theorem lhsFirst_applies {lhs rhs : Op} {context : RingContext Op} {answers : List Enter}
    {one : Reserved Op} (evaluated : context.argument answers lhs = one)
    (placed : RingContext.Placed context lhs one)
    (shown : ∀ ring ∈ one.context.submits, ring.ktail = context.mRing.sqeTail)
    (free : one.context.mRing.sqReady.toNat < one.context.mRing.ringEntries.toNat)
    (two : 2 ≤ one.context.mRing.ringEntries.toNat) :
    AppliesToMain lhs rhs (linkOps .lhsFirst lhs rhs context answers) := by
  obtain ⟨second, submits, _⟩ := RingContext.argument_of_free one.answers rhs free
  have chained := linked_entries placed.sqe_placed placed.sqeTail second two
  unfold linkOps
  rw [arguments_of_placed rhs evaluated placed, second.sqe, placed.sqeTail]
  constructor
  case adjacent =>
    intro position same
    rw [linkOpsBody_rhs] at same
    rw [linkOpsBody_lhs, ← Option.some.inj same, UInt32.add_sub_cancel]
  case unseen =>
    intro position same ring submitted visible
    rw [linkOpsBody_lhs] at same
    rw [linkOpsBody_submits, submits] at submitted
    rw [← Option.some.inj same] at visible
    exact absurd visible (Ring.not_visible_of_ktail (shown ring submitted))
  case chained =>
    intro position next lhsSame rhsSame
    rw [linkOpsBody_lhs] at lhsSame
    rw [linkOpsBody_rhs] at rhsSame
    rw [← Option.some.inj lhsSame, ← Option.some.inj rhsSame]
    exact chained

theorem Ring.sqSpaceLeft_toNat (ring : Ring Op) :
    ring.sqSpaceLeft.toNat = ring.ringEntries.toNat - ring.sqReady.toNat :=
  UInt32.toNat_sub_of_le _ _ ring.fits

/-- What the argument does that is evaluated first. -/
inductive FirstArgument (ring : Ring Op) (pending : UInt64) (answers : List Enter) (op : Op) : Prop
  where
  | nothing (failure : NoSqe)
      (error : ((start ring pending).argument answers op).sqe = .error failure)
      (noSpace : NoSpace ring answers)
  | placed (placed : RingContext.Placed (start ring pending) op
        ((start ring pending).argument answers op))
      (shown : ∀ seen ∈ ((start ring pending).argument answers op).context.submits,
        seen.ktail = ring.sqeTail)
      (space : ¬NoSpace ring answers)
      (room : ((start ring pending).argument answers op).context.mRing.sqReady.toNat <
        ring.ringEntries.toNat ↔ SpaceForTwo ring answers)

theorem toNat_eq_zero {word : UInt32} : word = 0 ↔ word.toNat = 0 :=
  UInt32.toNat_inj.symm

theorem two_le_iff {word : UInt32} : 2 ≤ word ↔ 2 ≤ word.toNat :=
  UInt32.le_iff_toNat_le

theorem SpaceForTwo.two_le {ring : Ring Op} {answers : List Enter}
    (space : SpaceForTwo ring answers) : 2 ≤ ring.ringEntries.toNat := by
  rcases space with free | ⟨_, two, _⟩
  · have spaceLeft := ring.sqSpaceLeft_toNat
    rw [two_le_iff] at free
    omega
  · exact two_le_iff.1 two

theorem spaceForTwo_of_free {ring : Ring Op} (answers : List Enter)
    (free : ring.sqReady.toNat < ring.ringEntries.toNat) :
    ring.sqReady.toNat + 1 < ring.ringEntries.toNat ↔ SpaceForTwo ring answers := by
  have spaceLeft := ring.sqSpaceLeft_toNat
  unfold SpaceForTwo
  rw [two_le_iff, toNat_eq_zero]
  constructor
  · intro room
    exact .inl (by omega)
  · rintro (two | ⟨none_, _⟩)
    · omega
    · omega

theorem spaceForTwo_of_full {ring : Ring Op} {answers : List Enter} {freed : UInt32}
    (full : ring.sqReady.toNat = ring.ringEntries.toNat) (first : firstFreed answers = some freed) :
    ring.ringEntries.toNat - min freed.toNat ring.ringEntries.toNat + 1 < ring.ringEntries.toNat ↔
      SpaceForTwo ring answers := by
  have spaceLeft := ring.sqSpaceLeft_toNat
  unfold SpaceForTwo
  rw [two_le_iff, two_le_iff, toNat_eq_zero]
  constructor
  · intro room
    exact .inr ⟨by omega, by omega, freed, first, two_le_iff.2 (by omega)⟩
  · rintro (two | ⟨_, two, other, same, more⟩)
    · omega
    · rw [first, Option.some_inj] at same
      rw [← same, two_le_iff] at more
      omega

theorem first_argument (ring : Ring Op) (pending : UInt64) (answers : List Enter) (op : Op) :
    FirstArgument ring pending answers op := by
  have spaceLeft := ring.sqSpaceLeft_toNat
  rcases ring.getSqe_cases with ⟨free, _⟩ | ⟨full, _⟩
  · have isFree : (start ring pending).mRing.sqReady.toNat <
        (start ring pending).mRing.ringEntries.toNat := free
    have first := RingContext.argument_of_free answers op isFree
    apply FirstArgument.placed first.1
    · intro seen submitted
      rw [first.2.1] at submitted
      cases submitted
    · rintro ⟨none_, _⟩
      rw [toNat_eq_zero] at none_
      omega
    · rw [first.2.2]
      exact spaceForTwo_of_free answers free
  · have isFull : (start ring pending).mRing.sqReady.toNat =
        (start ring pending).mRing.ringEntries.toNat := full
    have queued := RingContext.argument_of_full answers op isFull
    cases first : firstFreed answers with
    | none =>
        obtain ⟨failure, error⟩ := queued.no_entry first
        have none_ : ring.sqSpaceLeft = 0 := by
          rw [toNat_eq_zero]
          omega
        exact .nothing failure error ⟨none_, first⟩
    | some freed =>
        obtain ⟨placed, sqReady⟩ := queued.entry freed first
        apply FirstArgument.placed placed
        · intro seen submitted
          rcases queued.shown seen submitted with before | ktail
          · cases before
          · exact ktail
        · rintro ⟨_, nothing⟩
          rw [first] at nothing
          cases nothing
        · rw [sqReady]
          exact spaceForTwo_of_full full first

/-- For every ring, fill level and kernel, and for both orders of evaluation. -/
theorem link_ops_applies_iff (Op : Type) (order : Order) (lhs rhs : Op) (ring : Ring Op)
    (pending : UInt64) (answers : List Enter) :
    AppliesToMain lhs rhs (linkOps order lhs rhs (start ring pending) answers) ↔
      NoSpace ring answers ∨ order = .lhsFirst ∧ SpaceForTwo ring answers := by
  cases order with
  | lhsFirst =>
      rcases first_argument ring pending answers lhs with
        ⟨failure, error, noSpace⟩ | ⟨placed, shown, space, room⟩
      · constructor
        · intro _
          exact .inl noSpace
        · intro _
          unfold linkOps
          rw [arguments_of_error error]
          exact applies_of_nothing (linkOpsBody_lhs _) (linkOpsBody_rhs _)
      · constructor
        · intro applies
          right
          refine ⟨rfl, room.1 ?_⟩
          by_contra behind
          have few := ((start ring pending).argument answers lhs).context.mRing.sqReady_le
          rw [placed.ringEntries] at few
          have full := Nat.le_antisymm few (Nat.le_of_not_lt behind)
          rw [← placed.ringEntries] at full
          exact lhsFirst_fails rfl placed full applies
        · rintro (noSpace | ⟨_, spaceForTwo⟩)
          · exact absurd noSpace space
          · apply lhsFirst_applies rfl placed shown
            · rw [placed.ringEntries]
              exact room.2 spaceForTwo
            · rw [placed.ringEntries]
              exact spaceForTwo.two_le
  | rhsFirst =>
      rcases first_argument ring pending answers rhs with
        ⟨failure, error, noSpace⟩ | ⟨placed, shown, space, room⟩
      · constructor
        · intro _
          exact .inl noSpace
        · intro _
          unfold linkOps
          rw [arguments_of_error error]
          exact applies_of_nothing (linkOpsBody_lhs _) (linkOpsBody_rhs _)
      · constructor
        · intro applies
          exact absurd applies (rhsFirst_fails rfl placed)
        · rintro (noSpace | ⟨first, _⟩)
          · exact absurd noSpace space
          · cases first

/-- A ring of two entries, of which so many are obtained and not submitted. -/
def ringOfTwo (used : Fin 3) : Ring Nat :=
  { khead := 0
    ktail := 0
    sqeHead := 0
    sqeTail := UInt32.ofNat used.val
    ringEntries := 2
    sqes := fun _ => { userData := none, flags := 0 }
    entries := ⟨1, by decide, rfl⟩
    published := rfl
    fits := by
      fin_cases used
      all_goals decide }

/-- With one entry left, the getSqe of the timeout submits the main entry without the flag; with
the timeout evaluated first, its entry comes first. -/
theorem timeout_does_not_apply :
    (¬∀ ring answers, AppliesToMain 1 2 (linkOps .lhsFirst 1 2 (start ring 0) answers)) ∧
      ¬∀ ring answers, AppliesToMain 1 2 (linkOps .rhsFirst 1 2 (start ring 0) answers) := by
  constructor
  · intro claim
    have unseen := (claim (ringOfTwo 1) [.took 2]).unseen 1 (by decide)
    have isLinked := unseen
      ((linkOps .lhsFirst 1 2 (start (ringOfTwo 1) 0) [.took 2]).context.submits.head (by decide))
      (List.head_mem _) (by decide)
    exact isLinked (by decide)
  · intro claim
    have adjacent := (claim (ringOfTwo 0) []).adjacent 0 (by decide)
    revert adjacent
    decide

end MCoro.SubmissionQueue
