/-
Reading through a BorrowedStream, seen as reading a plain byte sequence.

The bytes that remain are the buffered ones followed by those the device has not
delivered. `Reading.onBytes` says what an operation does on that sequence; the
operations of the stream are shown to do the same for every device that
delivers its bytes in order, however it splits them.
-/

import MCoro.Iostream.StreamBase

namespace MCoro

open Segments

/-- A device that delivers the bytes of `pending` in order. It may answer a read
with any positive count or with an error; it reports the end only at the end. -/
structure Source (Device : Type) extends Stream Device where
  pending : Device → Bytes
  fits : ∀ device span bytes next, rawRead device span = (.ok bytes, next) →
    bytes.length ≤ span
  delivers : ∀ device span bytes next, rawRead device span = (.ok bytes, next) →
    pending device = bytes ++ pending next
  progress : ∀ device span next, rawRead device span = (.ok [], next) →
    span = 0 ∨ pending device = []
  failure : ∀ device span code next, rawRead device span = (.error code, next) →
    pending next = pending device ∧ (code = .eofError → pending device = [])

namespace StreamReads

open BorrowedStream

variable {Device : Type}

/-- The bytes `[mInIndex, mInEnd)` of the input buffer. -/
def window (stream : BorrowedStream Device) : Bytes :=
  slice stream.mInBuffer.data stream.mInIndex stream.mInEnd

def remaining (source : Source Device) (stream : BorrowedStream Device) : Bytes :=
  window stream ++ source.pending stream.mRaw

/-- 0 <= mInIndex <= mInEnd <= capacity. -/
structure Valid (stream : BorrowedStream Device) : Prop where
  ordered : stream.mInIndex ≤ stream.mInEnd
  bounded : stream.mInEnd ≤ stream.mInBuffer.size
  capacity : stream.mInBuffer.mData = none ∨ stream.mInBuffer.size = kStreamBufferSize

/-! ### The operations -/

/-- A call; `length` is the length of the span the caller passes. -/
inductive Reading where
  | getchar
  | peekchar
  | getline (s : Bytes) (eol : UInt8)
  | dropline (eol : UInt8)
  | getn (s : Bytes) (n : Nat)
  | getall (s : Bytes)
  | dropall
  | getchunk
  | tryread (length : Nat)
  | read (length : Nat)
  deriving DecidableEq, Repr

/-- What the caller has after a call; `text` is its String. -/
inductive Answer where
  | char (result : Expected UInt8)
  | text (s : Bytes) (result : Expected Unit)
  | done (result : Expected Unit)
  | chunk (result : Expected Bytes)

namespace Reading

def perform (raw : Stream Device) (fuel : Nat) (stream : BorrowedStream Device) :
    Reading → Except BufferFault (Answer × BorrowedStream Device)
  | getchar => do
      let (result, stream) ← stream.getchar raw
      return (.char result, stream)
  | peekchar => do
      let (result, stream) ← stream.peekchar raw
      return (.char result, stream)
  | getline s eol => do
      let (result, s, stream) ← stream.getline raw fuel s eol
      return (.text s result, stream)
  | dropline eol => do
      let (result, stream) ← stream.dropline raw fuel eol
      return (.done result, stream)
  | getn s n => do
      let (result, s, stream) ← stream.getn raw fuel s n
      return (.text s result, stream)
  | getall s => do
      let (result, s, stream) ← stream.getall raw fuel s
      return (.text s result, stream)
  | dropall => do
      let (result, stream) ← stream.dropall raw fuel
      return (.done result, stream)
  | getchunk => do
      let (result, stream) ← stream.getchunk raw
      return (.chunk result, stream)
  | tryread length => do
      let (bytes, stream) ← stream.tryread length
      return (.chunk (.ok bytes), stream)
  | read length => do
      let (result, stream) ← stream.read raw length
      return (.chunk result, stream)

/-- The caller asks for fewer than 2^63 bytes. -/
def Sized : Reading → Prop
  | getn _ n => n < 2 ^ 63
  | _ => True

/-- What the call does on a plain byte sequence: the answer, and the bytes left.
How much getchunk, tryread and read take is up to the device. -/
def onBytes (bytes : Bytes) : Reading → Option (Answer × Bytes)
  | getchar =>
      match bytes with
      | [] => some (.char (.error .eofError), [])
      | c :: rest => some (.char (.ok c), rest)
  | peekchar =>
      match bytes with
      | [] => some (.char (.error .eofError), [])
      | c :: rest => some (.char (.ok c), c :: rest)
  | getline s eol =>
      match cut eol bytes with
      | none => some (.text (s ++ bytes) (.error .eofError), [])
      | some (line, after) => some (.text (s ++ line) (.ok ()), after)
  | dropline eol =>
      match cut eol bytes with
      | none => some (.done (.error .eofError), [])
      | some (_, after) => some (.done (.ok ()), after)
  | getn s n =>
      if n ≤ bytes.length then some (.text (s ++ bytes.take n) (.ok ()), bytes.drop n)
      else some (.text (s ++ bytes) (.error .eofError), [])
  | getall s => some (.text (s ++ bytes) (.ok ()), [])
  | dropall => some (.done (.ok ()), [])
  | getchunk | tryread _ | read _ => none

/-- The answer when the device fails after the call took the bytes `taken`. -/
def interrupted (taken : Bytes) (code : ErrorCode) : Reading → Answer
  | getchar | peekchar => .char (.error code)
  | getline s _ | getn s _ | getall s => .text (s ++ taken) (.error code)
  | dropline _ | dropall => .done (.error code)
  | getchunk | tryread _ | read _ => .chunk (.error code)

/-- The calls that go back to the device in the middle of their work. -/
def Loops : Reading → Prop
  | getline _ _ | dropline _ | getn _ _ | getall _ | dropall => True
  | _ => False

def Fits (bytes : Bytes) : Reading → Prop
  | tryread length | read length => bytes.length ≤ length
  | _ => True

/-- All calls but tryread go to the device when nothing is buffered. -/
def Suspends : Reading → Prop
  | tryread _ => False
  | _ => True

end Reading

/-- The call on the sequence `before` gave `answer` and left the stream `next`. -/
inductive Follows (source : Source Device) (reading : Reading) (before : Bytes)
    (next : BorrowedStream Device) : Answer → Prop
  | exact (answer : Answer)
      (same : reading.onBytes before = some (answer, remaining source next)) :
      Follows source reading before next answer
  | chunk (bytes : Bytes) (free : reading.onBytes before = none) (fits : reading.Fits bytes)
      (split : before = bytes ++ remaining source next) :
      Follows source reading before next (.chunk (.ok bytes))
  | ended (free : reading.onBytes before = none) (suspends : reading.Suspends)
      (nothing : before = []) (still : remaining source next = []) :
      Follows source reading before next (.chunk (.error .eofError))
  | interrupted (code : ErrorCode) (taken : Bytes) (suspends : reading.Suspends)
      (notEnd : code ≠ .eofError)
      (reported : ∃ device span, source.rawRead device span = (.error code, next.mRaw))
      (kept : ¬reading.Loops → taken = [])
      (split : before = taken ++ remaining source next) :
      Follows source reading before next (reading.interrupted taken code)

/-! ### Refilling the buffer -/

section Refill

variable {source : Source Device} {stream : BorrowedStream Device}

theorem Valid.fresh (device : Device) : Valid (BorrowedStream.fresh device) where
  ordered := Nat.le_refl _
  bounded := Nat.zero_le _
  capacity := .inl rfl

theorem window_nil (empty : stream.mInIndex = stream.mInEnd) : window stream = [] := by
  unfold window
  rw [empty, slice_self]

theorem window_length (valid : Valid stream) :
    (window stream).length = stream.mInEnd - stream.mInIndex :=
  slice_length valid.bounded

theorem Valid.resetInput (valid : Valid stream) : Valid stream.resetInput where
  ordered := Nat.le_refl _
  bounded := Nat.zero_le _
  capacity := valid.capacity

theorem Valid.size_le (valid : Valid stream) : stream.mInBuffer.size ≤ kStreamBufferSize := by
  rcases valid.capacity with unallocated | allocated
  · unfold BytesBuffer.size BytesBuffer.data
    rw [unallocated]
    exact Nat.zero_le _
  · exact Nat.le_of_eq allocated

theorem Valid.allocinbuf (valid : Valid stream) :
    Valid (stream.allocinbuf kStreamBufferSize) := by
  unfold BorrowedStream.allocinbuf
  split
  · constructor
    case ordered => exact Nat.le_refl 0
    case bounded => exact Nat.zero_le _
    case capacity => exact .inr List.length_replicate
  · exact valid

theorem fillbuf_allocinbuf (raw : Stream Device) (stream : BorrowedStream Device) :
    fillbuf raw (stream.allocinbuf kStreamBufferSize) = fillbuf raw stream := by
  have once : (stream.allocinbuf kStreamBufferSize).allocinbuf kStreamBufferSize =
      stream.allocinbuf kStreamBufferSize := by
    cases allocated : stream.mInBuffer.mData with
    | none =>
        unfold allocinbuf
        rw [allocated]
        rfl
    | some block =>
        unfold allocinbuf
        rw [allocated]
        dsimp only
        rw [allocated]
  unfold fillbuf
  rw [once]

/-- The three ways a refill ends, on the bytes `before` it. -/
inductive Refill (source : Source Device) (before : Bytes) (next : BorrowedStream Device) :
    Expected Unit → Prop
  | filled (nonempty : next.mInIndex < next.mInEnd) (same : remaining source next = before) :
      Refill source before next (.ok ())
  | ended (nothing : before = []) (still : remaining source next = []) :
      Refill source before next (.error .eofError)
  | failed (code : ErrorCode) (notEnd : code ≠ .eofError)
      (reported : ∃ device span, source.rawRead device span = (.error code, next.mRaw))
      (same : remaining source next = before) :
      Refill source before next (.error code)

/-- The result of fillbuf and the window it leaves, given the answer of raw_read and the end
of the window before it. -/
inductive Received (stop : Nat) (next : BorrowedStream Device) :
    Expected Bytes → Expected Unit → Prop
  | failed (code : ErrorCode) (kept : next.mInEnd = stop) :
      Received stop next (.error code) (.error code)
  | ended (kept : next.mInEnd = stop) : Received stop next (.ok []) (.error .eofError)
  | filled {bytes : Bytes} (nonempty : bytes ≠ []) (stored : window next = bytes) :
      Received stop next (.ok bytes) (.ok ())

theorem fillbuf_receives (source : Source Device) (valid : Valid stream)
    (allocated : stream.mInBuffer.mData ≠ none) {reply : Expected Bytes} {device : Device}
    (answer : source.rawRead stream.mRaw (kStreamBufferSize - stream.mInIndex) =
      (reply, device)) :
    ∃ result next, fillbuf source.toStream stream = .ok (result, next) ∧ Valid next ∧
      next.mInBuffer.mData ≠ none ∧ next.mInIndex = stream.mInIndex ∧ next.mRaw = device ∧
      Received stream.mInEnd next reply result := by
  have size := valid.capacity.resolve_left allocated
  have opened : stream.allocinbuf kStreamBufferSize = stream := by
    cases block : stream.mInBuffer.mData with
    | none => exact absurd block allocated
    | some bytes =>
        unfold allocinbuf
        rw [block]
  have reads : fillbuf source.toStream stream = receive stream (reply, device) := by
    rw [fillbuf, opened]
    rw [size, answer]
  rw [reads]
  cases reply with
  | error code =>
      exact ⟨.error code, _, rfl, ⟨valid.ordered, valid.bounded, valid.capacity⟩, allocated, rfl,
        rfl, .failed code rfl⟩
  | ok bytes =>
      have fits := source.fits _ _ _ _ answer
      have ordered := valid.ordered
      have bounded := valid.bounded
      obtain ⟨buffer, written, sameSize, block, stored, _⟩ :=
        BytesBuffer.write_eq (by omega : stream.mInIndex + bytes.length ≤ stream.mInBuffer.size)
      have receives : receive stream (.ok bytes, device) =
          if bytes.length = 0 then
            .ok (.error .eofError, { stream with
              mInBuffer := buffer
              mRaw := device })
          else
            .ok (.ok (), { stream with
              mInBuffer := buffer
              mInEnd := stream.mInIndex + bytes.length
              mRaw := device }) := by
        change (stream.mInBuffer.write stream.mInIndex bytes).bind _ = _
        rw [written]
        rfl
      have kept : buffer.mData ≠ none := fun none => allocated (block.1 none)
      have capacity := sameSize.trans size
      rw [receives]
      by_cases empty : bytes.length = 0
      · rw [if_pos empty, List.length_eq_zero_iff.1 empty]
        exact ⟨_, _, rfl, ⟨ordered, bounded.trans sameSize.ge, .inr capacity⟩, kept, rfl, rfl,
          .ended rfl⟩
      · rw [if_neg empty]
        have inside : stream.mInIndex + bytes.length ≤ buffer.size := by omega
        have nonempty : bytes ≠ [] := fun none => empty (congrArg List.length none)
        exact ⟨_, _, rfl, ⟨Nat.le_add_right _ _, inside, .inr capacity⟩, kept, rfl, rfl,
          .filled nonempty stored⟩

/-- An emptied buffer is filled from its beginning, and allocated before if need be. -/
theorem refill_receives (source : Source Device) (valid : Valid stream)
    (index : stream.mInIndex = 0) (stop : stream.mInEnd = 0) {reply : Expected Bytes}
    {device : Device} (answer : source.rawRead stream.mRaw kStreamBufferSize = (reply, device)) :
    ∃ result next, fillbuf source.toStream stream = .ok (result, next) ∧ Valid next ∧
      next.mInIndex = 0 ∧ next.mRaw = device ∧ Received 0 next reply result := by
  have opened : (stream.allocinbuf kStreamBufferSize).mInIndex = 0 ∧
      (stream.allocinbuf kStreamBufferSize).mInEnd = 0 ∧
      (stream.allocinbuf kStreamBufferSize).mRaw = stream.mRaw ∧
      (stream.allocinbuf kStreamBufferSize).mInBuffer.mData ≠ none := by
    unfold allocinbuf
    split
    · exact ⟨rfl, rfl, rfl, nofun⟩
    · rename_i block allocated
      refine ⟨index, stop, rfl, ?_⟩
      rw [allocated]
      nofun
  obtain ⟨indexOpened, stopOpened, sameDevice, allocated⟩ := opened
  have reads : source.rawRead (stream.allocinbuf kStreamBufferSize).mRaw
      (kStreamBufferSize - (stream.allocinbuf kStreamBufferSize).mInIndex) = (reply, device) := by
    rw [sameDevice, indexOpened]
    exact answer
  obtain ⟨result, next, filled, validNext, _, indexNext, deviceNext, received⟩ :=
    fillbuf_receives source valid.allocinbuf allocated reads
  rw [fillbuf_allocinbuf] at filled
  rw [stopOpened] at received
  exact ⟨result, next, filled, validNext, indexNext.trans indexOpened, deviceNext, received⟩

theorem remaining_filled {source : Source Device} {next : BorrowedStream Device} {span : Nat}
    {bytes : Bytes} {device : Device}
    (answer : source.rawRead stream.mRaw span = (.ok bytes, device))
    (stored : window next = bytes) (sameDevice : next.mRaw = device) :
    remaining source next = source.pending stream.mRaw := by
  unfold remaining
  rw [stored, sameDevice, source.delivers _ _ _ _ answer]

theorem fillbuf_refill (source : Source Device) (valid : Valid stream) (index : stream.mInIndex = 0)
    (stop : stream.mInEnd = 0) :
    ∃ result next, fillbuf source.toStream stream = .ok (result, next) ∧ Valid next ∧
      next.mInIndex = 0 ∧ Refill source (source.pending stream.mRaw) next result ∧
      (result = .ok () →
        (source.pending next.mRaw).length < (source.pending stream.mRaw).length) := by
  cases answer : source.rawRead stream.mRaw kStreamBufferSize with
  | mk reply device =>
      obtain ⟨result, next, filled, validNext, indexNext, sameDevice, received⟩ :=
        refill_receives source valid index stop answer
      have nothing : next.mInEnd = 0 → remaining source next = source.pending device := by
        intro stopNext
        unfold remaining
        rw [window_nil (indexNext.trans stopNext.symm), sameDevice]
        rfl
      refine ⟨result, next, filled, validNext, indexNext, ?_⟩
      cases received with
      | failed code kept =>
          obtain ⟨same, onlyAtEnd⟩ := source.failure _ _ _ _ answer
          refine ⟨?_, nofun⟩
          by_cases isEnd : code = .eofError
          · have atEnd := onlyAtEnd isEnd
            rw [isEnd]
            exact .ended atEnd ((nothing kept).trans (same.trans atEnd))
          · rw [← sameDevice] at answer
            exact .failed code isEnd ⟨_, _, answer⟩ ((nothing kept).trans same)
      | ended kept =>
          have atEnd := (source.progress _ _ _ answer).resolve_left (by decide)
          have split := source.delivers _ _ _ _ answer
          rw [atEnd, List.nil_append] at split
          refine ⟨.ended atEnd ((nothing kept).trans split.symm), nofun⟩
      | filled nonempty stored =>
          have split := congrArg List.length (source.delivers _ _ _ _ answer)
          have delivered := List.length_pos_of_ne_nil nonempty
          have length := window_length validNext
          rw [List.length_append] at split
          rw [stored] at length
          refine ⟨.filled (by omega) (remaining_filled answer stored sameDevice), fun _ => ?_⟩
          rw [sameDevice]
          omega

theorem fillIfEmpty_refill (source : Source Device) (valid : Valid stream) :
    ∃ result next, fillIfEmpty source.toStream stream = .ok (result, next) ∧ Valid next ∧
      Refill source (remaining source stream) next result := by
  by_cases empty : stream.mInIndex = stream.mInEnd
  · obtain ⟨result, next, filled, validNext, _, refill, _⟩ :=
      fillbuf_refill source valid.resetInput rfl rfl
    refine ⟨result, next, ?_, validNext, ?_⟩
    · have isEmpty : stream.bufempty = true := decide_eq_true empty
      unfold fillIfEmpty
      rw [if_pos isEmpty]
      exact filled
    · unfold remaining
      rw [window_nil empty]
      exact refill
  · refine ⟨.ok (), stream, ?_, valid, .filled ?_ rfl⟩
    · unfold fillIfEmpty
      exact if_neg (by simpa [bufempty] using empty)
    · have ordered := valid.ordered
      omega

theorem remaining_advance (source : Source Device) (valid : Valid stream) {index : Nat}
    (forward : stream.mInIndex ≤ index) (inside : index ≤ stream.mInEnd) :
    Valid { stream with mInIndex := index } ∧
      remaining source stream = slice stream.mInBuffer.data stream.mInIndex index ++
        remaining source { stream with mInIndex := index } := by
  refine ⟨⟨inside, valid.bounded, valid.capacity⟩, ?_⟩
  unfold remaining window
  rw [← slice_append stream.mInBuffer.data forward inside, List.append_assoc]

theorem first_byte (source : Source Device) (valid : Valid stream)
    (nonempty : stream.mInIndex < stream.mInEnd) :
    ∃ c, stream.mInBuffer.get stream.mInIndex = .ok c ∧
      Valid { stream with mInIndex := stream.mInIndex + 1 } ∧
      remaining source stream =
        c :: remaining source { stream with mInIndex := stream.mInIndex + 1 } := by
  have inside : stream.mInIndex < stream.mInBuffer.data.length :=
    Nat.lt_of_lt_of_le nonempty valid.bounded
  obtain ⟨c, found⟩ : ∃ c, stream.mInBuffer.data[stream.mInIndex]? = some c :=
    ⟨_, List.getElem?_eq_getElem inside⟩
  obtain ⟨validNext, split⟩ := remaining_advance source valid (Nat.le_succ _) nonempty
  refine ⟨c, ?_, validNext, ?_⟩
  · unfold BytesBuffer.get
    rw [found]
  · rw [split, slice_cons (Nat.lt_succ_self _) found, slice_self]
    rfl

end Refill

/-! ### Calls that read once -/

section Calls

variable {source : Source Device} {stream next : BorrowedStream Device} {before : Bytes}

theorem Refill.error_follows {reading : Reading} {code : ErrorCode}
    (refill : Refill source before next (.error code)) (suspends : reading.Suspends)
    (atEnd : reading.onBytes [] = some (reading.interrupted [] .eofError, [])) :
    Follows source reading before next (reading.interrupted [] code) := by
  cases refill with
  | ended nothing still =>
      apply Follows.exact
      rw [nothing, still]
      exact atEnd
  | failed code notEnd reported same =>
      exact .interrupted code [] suspends notEnd reported (fun _ => rfl) same.symm

theorem getchar_follows (source : Source Device) (valid : Valid stream) :
    ∃ result next, stream.getchar source.toStream = .ok (result, next) ∧ Valid next ∧
      Follows source .getchar (remaining source stream) next (.char result) := by
  obtain ⟨filled, opened, done, validOpened, refill⟩ := fillIfEmpty_refill source valid
  unfold getchar
  rw [done]
  cases filled with
  | error code =>
      exact ⟨.error code, opened, rfl, validOpened, refill.error_follows trivial rfl⟩
  | ok _ =>
      cases refill with
      | filled nonempty same =>
          obtain ⟨c, found, validNext, split⟩ := first_byte source validOpened nonempty
          refine ⟨.ok c, { opened with mInIndex := opened.mInIndex + 1 }, ?_, validNext, ?_⟩
          · change (opened.mInBuffer.get opened.mInIndex).bind _ = _
            rw [found]
            rfl
          · apply Follows.exact
            rw [← same, split]
            rfl

theorem peekchar_follows (source : Source Device) (valid : Valid stream) :
    ∃ result next, stream.peekchar source.toStream = .ok (result, next) ∧ Valid next ∧
      Follows source .peekchar (remaining source stream) next (.char result) := by
  obtain ⟨filled, opened, done, validOpened, refill⟩ := fillIfEmpty_refill source valid
  unfold peekchar
  rw [done]
  cases filled with
  | error code =>
      exact ⟨.error code, opened, rfl, validOpened, refill.error_follows trivial rfl⟩
  | ok _ =>
      cases refill with
      | filled nonempty same =>
          obtain ⟨c, found, _, split⟩ := first_byte source validOpened nonempty
          refine ⟨.ok c, opened, ?_, validOpened, ?_⟩
          · change (opened.mInBuffer.get opened.mInIndex).bind _ = _
            rw [found]
            rfl
          · apply Follows.exact
            rw [← same, split]
            rfl

theorem peekbuf_eq (valid : Valid stream) : stream.peekbuf = .ok (window stream) :=
  BytesBuffer.read_eq valid.ordered valid.bounded

theorem window_take (valid : Valid stream) {n : Nat} (inside : n ≤ (window stream).length) :
    (window stream).take n =
      slice stream.mInBuffer.data stream.mInIndex (stream.mInIndex + n) := by
  have length := window_length valid
  have ordered := valid.ordered
  unfold window slice
  rw [List.take_drop, List.take_take, Nat.min_eq_left (by omega)]

theorem window_read (valid : Valid stream) {n : Nat} (inside : n ≤ (window stream).length) :
    stream.mInBuffer.read stream.mInIndex n = .ok ((window stream).take n) := by
  have length := window_length valid
  have ordered := valid.ordered
  have bounded := valid.bounded
  have read := BytesBuffer.read_eq (Nat.le_add_right stream.mInIndex n)
    (by omega : stream.mInIndex + n ≤ stream.mInBuffer.size)
  rw [Nat.add_sub_cancel_left] at read
  rw [window_take valid inside]
  exact read

theorem remaining_seenbuf (source : Source Device) (valid : Valid stream) {n : Nat}
    (inside : n ≤ (window stream).length) :
    Valid (stream.seenbuf n) ∧
      remaining source stream = (window stream).take n ++ remaining source (stream.seenbuf n) := by
  have length := window_length valid
  have ordered := valid.ordered
  obtain ⟨validNext, split⟩ := remaining_advance source valid
    (Nat.le_add_right stream.mInIndex n) (by omega)
  rw [window_take valid inside]
  exact ⟨validNext, split⟩

theorem buffered_next (source : Source Device) (valid : Valid stream) {n : Nat}
    (inside : n ≤ (window stream).length) :
    (window stream).take n = (remaining source stream).take n ∧
      remaining source (stream.seenbuf n) = (remaining source stream).drop n := by
  have length : ((window stream).take n).length = n := by
    rw [List.length_take]
    exact Nat.min_eq_left inside
  obtain ⟨_, split⟩ := remaining_seenbuf source valid inside
  rw [split]
  exact ⟨(List.take_left' length).symm, (List.drop_left' length).symm⟩

theorem remaining_length (source : Source Device) (stream : BorrowedStream Device) :
    (remaining source stream).length =
      (window stream).length + (source.pending stream.mRaw).length :=
  List.length_append

theorem getchunk_follows (source : Source Device) (valid : Valid stream) :
    ∃ result next, stream.getchunk source.toStream = .ok (result, next) ∧ Valid next ∧
      Follows source .getchunk (remaining source stream) next (.chunk result) := by
  obtain ⟨filled, opened, done, validOpened, refill⟩ := fillIfEmpty_refill source valid
  unfold getchunk
  rw [done]
  cases filled with
  | error code =>
      refine ⟨.error code, opened, rfl, validOpened, ?_⟩
      cases refill with
      | ended nothing still => exact .ended rfl trivial nothing still
      | failed code notEnd reported same =>
          exact .interrupted code [] trivial notEnd reported (fun _ => rfl) same.symm
  | ok _ =>
      cases refill with
      | filled nonempty same =>
          obtain ⟨validNext, split⟩ :=
            remaining_seenbuf source validOpened (Nat.le_refl (window opened).length)
          refine ⟨.ok (window opened), opened.seenbuf (window opened).length, ?_, validNext, ?_⟩
          · change opened.peekbuf.bind _ = _
            rw [peekbuf_eq validOpened]
            rfl
          · rw [List.take_length] at split
            exact .chunk _ rfl trivial (same.symm.trans split)

theorem tryread_follows (source : Source Device) (valid : Valid stream) (length : Nat) :
    ∃ bytes next, stream.tryread length = .ok (bytes, next) ∧ Valid next ∧
      Follows source (.tryread length) (remaining source stream) next (.chunk (.ok bytes)) := by
  let n := min length (window stream).length
  obtain ⟨validNext, split⟩ :=
    remaining_seenbuf source valid (Nat.min_le_right length (window stream).length)
  refine ⟨(window stream).take n, stream.seenbuf n, ?_, validNext, ?_⟩
  · unfold tryread
    rw [peekbuf_eq valid]
    rfl
  · apply Follows.chunk _ rfl _ split
    change ((window stream).take n).length ≤ length
    rw [List.length_take]
    omega

theorem read_follows (source : Source Device) (valid : Valid stream) (length : Nat) :
    ∃ result next, stream.read source.toStream length = .ok (result, next) ∧ Valid next ∧
      Follows source (.read length) (remaining source stream) next (.chunk result) := by
  by_cases empty : stream.mInIndex = stream.mInEnd
  · have isEmpty : stream.bufempty = true := decide_eq_true empty
    have before : remaining source stream = source.pending stream.mRaw := by
      unfold remaining
      rw [window_nil empty]
      rfl
    cases answer : source.rawRead stream.mRaw length with
    | mk result device =>
        let next := { stream with mRaw := device }
        have validNext : Valid next := ⟨valid.ordered, valid.bounded, valid.capacity⟩
        have noWindow : window next = [] := window_nil empty
        have after : remaining source next = source.pending device := by
          unfold remaining
          rw [noWindow]
          rfl
        refine ⟨result, next, ?_, validNext, ?_⟩
        · unfold BorrowedStream.read
          rw [if_pos isEmpty, answer]
        · rw [before]
          cases result with
          | ok bytes =>
              apply Follows.chunk bytes (by rfl : (Reading.read length).onBytes _ = none)
                (source.fits _ _ _ _ answer : (Reading.read length).Fits bytes)
              rw [after]
              exact source.delivers _ _ _ _ answer
          | error code =>
              obtain ⟨same, onlyAtEnd⟩ := source.failure _ _ _ _ answer
              by_cases isEnd : code = .eofError
              · have nothing := onlyAtEnd isEnd
                rw [isEnd]
                exact .ended rfl trivial nothing (after.trans (same.trans nothing))
              · exact .interrupted code [] trivial isEnd ⟨_, _, answer⟩ (fun _ => rfl)
                  (after.trans same).symm
  · have notEmpty : ¬stream.bufempty = true := by simpa [bufempty] using empty
    let n := min (stream.mInEnd - stream.mInIndex) length
    have inside : n ≤ (window stream).length := by
      rw [window_length valid]
      exact Nat.min_le_left _ _
    obtain ⟨validNext, split⟩ := remaining_seenbuf source valid inside
    have ordered := valid.ordered
    have bounded := valid.bounded
    have copied : stream.mInBuffer.read stream.mInIndex n = .ok ((window stream).take n) := by
      have short : stream.mInIndex + n ≤ stream.mInEnd := by omega
      unfold BytesBuffer.read window slice
      rw [if_pos (by omega), List.take_drop, List.take_drop, List.take_take,
        Nat.min_eq_left short]
    refine ⟨.ok ((window stream).take n), stream.seenbuf n, ?_, validNext, ?_⟩
    · unfold BorrowedStream.read
      rw [if_neg notEmpty]
      change (stream.mInBuffer.read stream.mInIndex n).bind _ = _
      rw [copied]
      rfl
    · apply Follows.chunk _ rfl _ split
      change ((window stream).take n).length ≤ length
      rw [List.length_take]
      omega

end Calls

end StreamReads

end MCoro
