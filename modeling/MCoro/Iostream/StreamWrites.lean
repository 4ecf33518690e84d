/-
Writing through a BorrowedStream to a device that takes what it is given in
pieces of its own choice.

What was written so far is what the device has received followed by the output
buffer. Each call adds the bytes it accepts at the end; only between two calls is
this so, since flush sends the buffer piece by piece.
-/

import MCoro.Iostream.StreamBase

namespace MCoro

open Segments

/-- A device that takes any positive part of what it is given, and flushes. -/
structure Sink (Device : Type) extends Stream Device where
  received : Device → Bytes
  accepts : ∀ device bytes, bytes ≠ [] → ∃ count next,
    rawWrite device bytes = (.ok count, next) ∧ 0 < count ∧ count ≤ bytes.length ∧
      received next = received device ++ bytes.take count
  flushes : ∀ device, ∃ next, rawFlush device = (.ok (), next) ∧ received next = received device

namespace StreamWrites

open BorrowedStream

variable {Device : Type}

def written (sink : Sink Device) (stream : BorrowedStream Device) : Bytes :=
  sink.received stream.mRaw ++ stream.mOutBuffer.data.take stream.mOutIndex

/-- mOutIndex never exceeds the size of the buffer. -/
structure Valid (stream : BorrowedStream Device) : Prop where
  inside : stream.mOutIndex ≤ stream.mOutBuffer.size
  capacity : stream.mOutBuffer.mData = none ∨ stream.mOutBuffer.size = kStreamBufferSize

/-- The state that flush leaves: a block of full size with nothing in it. -/
structure Flushed (stream : BorrowedStream Device) : Prop where
  index : stream.mOutIndex = 0
  size : stream.mOutBuffer.size = kStreamBufferSize

/-! ### The operations -/

inductive Writing where
  | putchar (c : UInt8)
  | putspan (s : Bytes)
  | puts (s : Bytes)
  | putstruct (s : Bytes)
  | trywrite (s : Bytes)
  | putline (s : Bytes)
  | putchunk (s : Bytes)
  | flush
  deriving DecidableEq, Repr

inductive Receipt where
  | done (result : Expected Unit)
  | count (n : Nat)

namespace Writing

def perform (raw : Stream Device) (fuel : Nat) (stream : BorrowedStream Device) :
    Writing → Except BufferFault (Receipt × BorrowedStream Device)
  | putchar c => do
      let (result, stream) ← stream.putchar raw fuel c
      return (.done result, stream)
  | putspan s => do
      let (result, stream) ← stream.putspan raw fuel s
      return (.done result, stream)
  | puts s => do
      let (result, stream) ← stream.puts raw fuel s
      return (.done result, stream)
  | putstruct s => do
      let (result, stream) ← stream.putstruct raw fuel s
      return (.done result, stream)
  | trywrite s => do
      let (n, stream) ← stream.trywrite s
      return (.count n, stream)
  | putline s => do
      let (result, stream) ← stream.putline raw fuel s
      return (.done result, stream)
  | putchunk s => do
      let (result, stream) ← stream.putchunk raw fuel s
      return (.done result, stream)
  | flush => do
      let (result, stream) ← stream.flush raw fuel
      return (.done result, stream)

/-- The bytes a call accepts, given what it returned. -/
def accepted : Writing → Receipt → Bytes
  | putchar c, _ => [c]
  | putspan s, _ | puts s, _ | putstruct s, _ | putchunk s, _ => s
  | trywrite s, .count n => s.take n
  | trywrite s, .done _ => s
  | putline s, _ => s ++ [newline]
  | flush, _ => []

def argument : Writing → Bytes
  | putchar c => [c]
  | putspan s | puts s | putstruct s | trywrite s | putline s | putchunk s => s
  | flush => []

def EndsFlushed : Writing → Prop
  | putline _ | putchunk _ | flush => True
  | _ => False

end Writing

/-- The call returned no error; trywrite returned no more than it was given. -/
def Receipt.Succeeded (writing : Writing) : Receipt → Prop
  | done result => result = .ok ()
  | count n => n ≤ writing.argument.length

/-! ### Flushing -/

section Calls

variable {sink : Sink Device} {stream : BorrowedStream Device}

theorem Valid.fresh (device : Device) : Valid (BorrowedStream.fresh device) where
  inside := Nat.le_refl _
  capacity := .inl rfl

theorem Flushed.valid (flushed : Flushed stream) : Valid stream where
  inside := by
    rw [flushed.index]
    exact Nat.zero_le _
  capacity := .inr flushed.size

theorem Valid.size (valid : Valid stream) {block : Bytes}
    (allocated : stream.mOutBuffer.mData = some block) :
    stream.mOutBuffer.size = kStreamBufferSize := by
  apply valid.capacity.resolve_left
  rw [allocated]
  exact Option.some_ne_none block

theorem take_unallocated (allocated : stream.mOutBuffer.mData = none) (count : Nat) :
    stream.mOutBuffer.data.take count = [] := by
  unfold BytesBuffer.data
  rw [allocated]
  exact List.take_nil

theorem block_to_send (inside : stream.mOutIndex ≤ stream.mOutBuffer.size)
    (empty : stream.mOutIndex ≠ 0) :
    (stream.mOutBuffer.data.take stream.mOutIndex).length = stream.mOutIndex ∧
      stream.mOutBuffer.data.take stream.mOutIndex ≠ [] ∧
      stream.mOutBuffer.read 0 stream.mOutIndex =
        .ok (stream.mOutBuffer.data.take stream.mOutIndex) := by
  have length : (stream.mOutBuffer.data.take stream.mOutIndex).length = stream.mOutIndex := by
    rw [List.length_take]
    exact Nat.min_eq_left inside
  refine ⟨length, ?_, BytesBuffer.read_eq (Nat.zero_le _) inside⟩
  intro nothing
  rw [nothing] at length
  exact empty length.symm

theorem allocoutbuf_keeps (valid : Valid stream) :
    Valid (stream.allocoutbuf kStreamBufferSize) ∧
      (stream.allocoutbuf kStreamBufferSize).mRaw = stream.mRaw ∧
      (stream.allocoutbuf kStreamBufferSize).mOutBuffer.data.take
          (stream.allocoutbuf kStreamBufferSize).mOutIndex =
        stream.mOutBuffer.data.take stream.mOutIndex := by
  unfold allocoutbuf
  cases allocated : stream.mOutBuffer.mData with
  | some block => exact ⟨valid, rfl, rfl⟩
  | none =>
      have flushed : Flushed { stream with
          mOutBuffer := .allocate kStreamBufferSize
          mOutIndex := 0 } := ⟨rfl, List.length_replicate⟩
      exact ⟨flushed.valid, rfl, (take_unallocated allocated _).symm⟩

theorem Flushed.written_eq (flushed : Flushed stream) :
    written sink stream = sink.received stream.mRaw := by
  unfold written
  rw [flushed.index, List.take_zero, List.append_nil]

theorem writeLoop_sends (sink : Sink Device) (fuel : Nat) (device : Device) (buf : Bytes)
    (nonempty : buf ≠ []) (enough : buf.length ≤ fuel) :
    ∃ count next, writeLoop sink.toStream fuel device buf = .ok (.ok (count + 1), next) ∧
      sink.received next = sink.received device ++ buf := by
  induction fuel generalizing device buf with
  | zero => exact absurd (List.length_eq_zero_iff.1 (Nat.le_zero.1 enough)) nonempty
  | succ fuel ih =>
      obtain ⟨count, middle, answer, positive, fits, received⟩ :=
        sink.accepts device buf nonempty
      unfold writeLoop
      rw [answer]
      by_cases whole : count = buf.length
      · obtain ⟨less, countEq⟩ : ∃ less, count = less + 1 := ⟨count - 1, by omega⟩
        refine ⟨less, middle, ?_, ?_⟩
        · change (if 0 < count ∧ count ≠ buf.length then _ else _) = _
          rw [if_neg (fun both => both.2 whole), countEq]
        · rw [received, whole, List.take_length]
      · have restNonempty : buf.drop count ≠ [] := by
          intro nothing
          have short := List.drop_eq_nil_iff.1 nothing
          omega
        obtain ⟨last, next, sent, all⟩ := ih middle (buf.drop count) restNonempty (by
          rw [List.length_drop]
          omega)
        refine ⟨last, next, ?_, ?_⟩
        · change (if 0 < count ∧ count ≠ buf.length then _ else _) = _
          rw [if_pos ⟨positive, whole⟩, if_pos fits]
          exact sent
        · rw [all, received, List.append_assoc, List.take_append_drop]

theorem flush_unallocated (sink : Sink Device) (allocated : stream.mOutBuffer.mData = none)
    (fuel : Nat) :
    ∃ next, stream.flush sink.toStream fuel = .ok (.ok (), next) ∧ Flushed next ∧
      written sink next = written sink stream := by
  let next :=
    { stream with
      mOutBuffer := .allocate kStreamBufferSize
      mOutIndex := 0 }
  have flushed : Flushed next := ⟨rfl, List.length_replicate⟩
  refine ⟨next, ?_, flushed, ?_⟩
  · unfold flush allocoutbuf
    rw [allocated]
  · rw [flushed.written_eq]
    unfold written
    rw [take_unallocated allocated, List.append_nil]

theorem flush_sends (sink : Sink Device) {block : Bytes}
    (allocated : stream.mOutBuffer.mData = some block)
    (size : stream.mOutBuffer.size = kStreamBufferSize)
    (inside : stream.mOutIndex ≤ stream.mOutBuffer.size) (empty : stream.mOutIndex ≠ 0)
    (fuel : Nat) (enough : kStreamBufferSize ≤ fuel) :
    ∃ next, stream.flush sink.toStream fuel = .ok (.ok (), next) ∧ Flushed next ∧
      written sink next = written sink stream := by
  obtain ⟨length, nonempty, read⟩ := block_to_send inside empty
  obtain ⟨count, device, sent, received⟩ :=
    writeLoop_sends sink fuel stream.mRaw _ nonempty (by omega)
  obtain ⟨last, flushed, same⟩ := sink.flushes device
  let next :=
    { stream with
      mOutIndex := 0
      mRaw := last }
  have flushedNext : Flushed next := ⟨rfl, size⟩
  refine ⟨next, ?_, flushedNext, ?_⟩
  · unfold flush
    rw [allocated]
    change (if stream.mOutIndex = 0 then _ else _) = _
    rw [if_neg empty]
    change (stream.mOutBuffer.read 0 stream.mOutIndex).bind _ = _
    rw [read]
    change (writeLoop sink.toStream fuel stream.mRaw _).bind _ = _
    rw [sent]
    change Except.ok (settle sink.toStream { stream with mRaw := device } _) = _
    simp only [settle, flushed, next]
  · rw [flushedNext.written_eq]
    exact same.trans received

theorem flush_flushed (sink : Sink Device) (valid : Valid stream) (fuel : Nat)
    (enough : kStreamBufferSize ≤ fuel) :
    ∃ next, stream.flush sink.toStream fuel = .ok (.ok (), next) ∧ Flushed next ∧
      written sink next = written sink stream := by
  cases allocated : stream.mOutBuffer.mData with
  | none => exact flush_unallocated sink allocated fuel
  | some block =>
      have size := valid.size allocated
      by_cases empty : stream.mOutIndex = 0
      · refine ⟨stream, ?_, ⟨empty, size⟩, rfl⟩
        unfold flush
        rw [allocated]
        exact if_pos empty
      · exact flush_sends sink allocated size valid.inside empty fuel enough

/-! ### Filling the buffer -/

theorem store_valid (valid : Valid stream) (bytes : Bytes)
    (fits : stream.mOutIndex + bytes.length ≤ stream.mOutBuffer.size) :
    ∃ buffer, stream.mOutBuffer.write stream.mOutIndex bytes = .ok buffer ∧
      buffer.size = stream.mOutBuffer.size ∧
      Valid { stream with
        mOutBuffer := buffer
        mOutIndex := stream.mOutIndex + bytes.length } ∧
      buffer.data.take (stream.mOutIndex + bytes.length) =
        stream.mOutBuffer.data.take stream.mOutIndex ++ bytes := by
  obtain ⟨buffer, stored, size, allocation, _, contents⟩ := BytesBuffer.write_eq fits
  refine ⟨buffer, stored, size, ⟨?_, ?_⟩, contents⟩
  · change stream.mOutIndex + bytes.length ≤ buffer.size
    omega
  · change buffer.mData = none ∨ buffer.size = kStreamBufferSize
    rw [allocation, size]
    exact valid.capacity

theorem store_written (sink : Sink Device) (valid : Valid stream) (bytes : Bytes)
    (fits : stream.mOutIndex + bytes.length ≤ stream.mOutBuffer.size) :
    ∃ buffer, stream.mOutBuffer.write stream.mOutIndex bytes = .ok buffer ∧
      buffer.size = stream.mOutBuffer.size ∧
      Valid { stream with
        mOutBuffer := buffer
        mOutIndex := stream.mOutIndex + bytes.length } ∧
      written sink { stream with
        mOutBuffer := buffer
        mOutIndex := stream.mOutIndex + bytes.length } = written sink stream ++ bytes := by
  obtain ⟨buffer, stored, size, validNext, contents⟩ := store_valid valid bytes fits
  refine ⟨buffer, stored, size, validNext, ?_⟩
  unfold written
  rw [List.append_assoc, ← contents]

theorem putchar_written (sink : Sink Device) (valid : Valid stream) (c : UInt8) (fuel : Nat)
    (enough : kStreamBufferSize ≤ fuel) :
    ∃ next, stream.putchar sink.toStream fuel c = .ok (.ok (), next) ∧ Valid next ∧
      written sink next = written sink stream ++ [c] := by
  have roomy : ∃ opened, flushIfFull sink.toStream fuel stream = .ok (.ok (), opened) ∧
      Valid opened ∧ opened.mOutIndex + 1 ≤ opened.mOutBuffer.size ∧
      written sink opened = written sink stream := by
    unfold flushIfFull
    by_cases full : stream.mOutIndex = stream.mOutBuffer.size
    · have isFull : stream.buffull = true := decide_eq_true full
      obtain ⟨opened, done, flushed, same⟩ := flush_flushed sink valid fuel enough
      refine ⟨opened, ?_, flushed.valid, ?_, same⟩
      · rw [if_pos isFull]
        exact done
      · rw [flushed.index, flushed.size]
        decide
    · have notFull : ¬stream.buffull = true := by simpa [buffull] using full
      have inside := valid.inside
      refine ⟨stream, if_neg notFull, valid, ?_, rfl⟩
      omega
  obtain ⟨opened, done, validOpened, room, same⟩ := roomy
  obtain ⟨buffer, stored, _, validNext, added⟩ :=
    store_written sink validOpened [c] room
  refine ⟨_, ?_, validNext, ?_⟩
  · unfold putchar
    rw [done]
    change (opened.mOutBuffer.write opened.mOutIndex [c]).bind _ = _
    rw [stored]
    rfl
  · rw [added, same]

private theorem putspanLoop_pass (sink : Sink Device) (valid : Valid stream) (p : Bytes)
    (limit fuel : Nat) (enough : kStreamBufferSize ≤ limit) :
    (∃ next, putspanLoop sink.toStream limit (fuel + 1) stream p = .ok (.ok (), next) ∧
        Valid next ∧ written sink next = written sink stream ++ p) ∨
      stream.mOutBuffer.size - stream.mOutIndex < p.length ∧
        ∃ next, putspanLoop sink.toStream limit (fuel + 1) stream p =
            putspanLoop sink.toStream limit fuel next
              (p.drop (stream.mOutBuffer.size - stream.mOutIndex)) ∧
          Flushed next ∧
          written sink next =
            written sink stream ++ p.take (stream.mOutBuffer.size - stream.mOutIndex) := by
  have inside := valid.inside
  by_cases fits : p.length ≤ stream.mOutBuffer.size - stream.mOutIndex
  · left
    obtain ⟨buffer, stored, _, validNext, added⟩ := store_written sink valid p
      (by omega)
    refine ⟨_, ?_, validNext, added⟩
    rw [putspanLoop, if_pos fits]
    change (stream.mOutBuffer.write stream.mOutIndex p).bind _ = _
    rw [stored]
    rfl
  · right
    refine ⟨Nat.lt_of_not_le fits, ?_⟩
    have length : (p.take (stream.mOutBuffer.size - stream.mOutIndex)).length =
        stream.mOutBuffer.size - stream.mOutIndex := by
      rw [List.length_take]
      omega
    obtain ⟨buffer, stored, _, validFull, added⟩ :=
      store_written sink valid (p.take (stream.mOutBuffer.size - stream.mOutIndex))
        (by omega)
    rw [length, Nat.add_sub_of_le inside] at validFull added
    obtain ⟨next, done, flushed, same⟩ := flush_flushed sink validFull limit enough
    refine ⟨{ next with mOutIndex := 0 }, ?_, ⟨rfl, flushed.size⟩, ?_⟩
    · rw [putspanLoop_full fits stored done]
    · rw [← added, ← same, flushed.written_eq]
      exact List.append_nil _

private theorem putspanLoop_flushed (sink : Sink Device) (flushed : Flushed stream) (p : Bytes)
    (limit fuel : Nat) (enough : kStreamBufferSize ≤ limit) (passes : p.length < fuel) :
    ∃ next, putspanLoop sink.toStream limit fuel stream p = .ok (.ok (), next) ∧ Valid next ∧
      written sink next = written sink stream ++ p := by
  induction fuel generalizing stream p with
  | zero => omega
  | succ fuel ih =>
      rcases putspanLoop_pass sink flushed.valid p limit fuel enough with
        done | ⟨long, next, again, flushedNext, added⟩
      · exact done
      · have positive : 0 < stream.mOutBuffer.size - stream.mOutIndex := by
          rw [flushed.index, flushed.size]
          decide
        obtain ⟨last, done, validLast, rest⟩ := ih flushedNext
          (p.drop (stream.mOutBuffer.size - stream.mOutIndex)) (by
            rw [List.length_drop]
            omega)
        refine ⟨last, again.trans done, validLast, ?_⟩
        rw [rest, added, List.append_assoc, List.take_append_drop]

theorem putspan_written (sink : Sink Device) (valid : Valid stream) (s : Bytes) (fuel : Nat)
    (enough : kStreamBufferSize ≤ fuel) (passes : s.length + 1 < fuel) :
    ∃ next, stream.putspan sink.toStream fuel s = .ok (.ok (), next) ∧ Valid next ∧
      written sink next = written sink stream ++ s := by
  obtain ⟨less, fuelEq⟩ : ∃ less, fuel = less + 1 := ⟨fuel - 1, by omega⟩
  unfold putspan
  rcases putspanLoop_pass sink valid s fuel less enough with
    done | ⟨long, next, again, flushedNext, added⟩
  · rw [← fuelEq] at done
    exact done
  · obtain ⟨last, done, validLast, rest⟩ := putspanLoop_flushed sink flushedNext
      (s.drop (stream.mOutBuffer.size - stream.mOutIndex)) fuel less enough (by
        rw [List.length_drop]
        omega)
    rw [← fuelEq] at again
    refine ⟨last, again.trans done, validLast, ?_⟩
    rw [rest, added, List.append_assoc, List.take_append_drop]

theorem trywrite_written (sink : Sink Device) (valid : Valid stream) (s : Bytes) :
    ∃ n next, stream.trywrite s = .ok (n, next) ∧ Valid next ∧ n ≤ s.length ∧
      written sink next = written sink stream ++ s.take n := by
  obtain ⟨validOpened, device, bytes⟩ := allocoutbuf_keeps valid
  have same : written sink (stream.allocoutbuf kStreamBufferSize) = written sink stream := by
    unfold written
    rw [device, bytes]
  unfold trywrite
  generalize stream.allocoutbuf kStreamBufferSize = opened at validOpened same ⊢
  have inside := validOpened.inside
  by_cases fits : s.length ≤ opened.mOutBuffer.size - opened.mOutIndex
  · obtain ⟨buffer, stored, _, validNext, added⟩ := store_written sink validOpened s
      (by omega)
    refine ⟨s.length, _, ?_, validNext, Nat.le_refl _, ?_⟩
    · change (if s.length ≤ opened.mOutBuffer.size - opened.mOutIndex then _ else _) = _
      rw [if_pos fits]
      change (opened.mOutBuffer.write opened.mOutIndex s).bind _ = _
      rw [stored]
      rfl
    · rw [added, same, List.take_length]
  · have length : (s.take (opened.mOutBuffer.size - opened.mOutIndex)).length =
        opened.mOutBuffer.size - opened.mOutIndex := by
      rw [List.length_take]
      omega
    obtain ⟨buffer, stored, _, validNext, added⟩ :=
      store_written sink validOpened (s.take (opened.mOutBuffer.size - opened.mOutIndex))
        (by omega)
    rw [length, Nat.add_sub_of_le inside] at validNext added
    refine ⟨opened.mOutBuffer.size - opened.mOutIndex, _, ?_, validNext, by omega, ?_⟩
    · change (if s.length ≤ opened.mOutBuffer.size - opened.mOutIndex then _ else _) = _
      rw [if_neg fits]
      change (opened.mOutBuffer.write opened.mOutIndex _).bind _ = _
      rw [stored]
      rfl
    · rw [added, same]

theorem perform_written (sink : Sink Device) (valid : Valid stream) (writing : Writing)
    (fuel : Nat) (enough : kStreamBufferSize ≤ fuel)
    (passes : writing.argument.length + 1 < fuel) :
    ∃ receipt next, writing.perform sink.toStream fuel stream = .ok (receipt, next) ∧
      Valid next ∧ receipt.Succeeded writing ∧
      written sink next = written sink stream ++ writing.accepted receipt ∧
      (writing.EndsFlushed → next.mOutIndex = 0) := by
  cases writing with
  | putchar c =>
      obtain ⟨next, done, validNext, added⟩ := putchar_written sink valid c fuel enough
      refine ⟨.done (.ok ()), next, ?_, validNext, rfl, added, False.elim⟩
      rw [Writing.perform, done]
      rfl
  | putspan s =>
      obtain ⟨next, done, validNext, added⟩ := putspan_written sink valid s fuel enough passes
      refine ⟨.done (.ok ()), next, ?_, validNext, rfl, added, False.elim⟩
      rw [Writing.perform, done]
      rfl
  | puts s =>
      obtain ⟨next, done, validNext, added⟩ := putspan_written sink valid s fuel enough passes
      refine ⟨.done (.ok ()), next, ?_, validNext, rfl, added, False.elim⟩
      rw [Writing.perform, puts, done]
      rfl
  | putstruct s =>
      obtain ⟨next, done, validNext, added⟩ := putspan_written sink valid s fuel enough passes
      refine ⟨.done (.ok ()), next, ?_, validNext, rfl, added, False.elim⟩
      rw [Writing.perform, putstruct, done]
      rfl
  | trywrite s =>
      obtain ⟨n, next, done, validNext, fits, added⟩ := trywrite_written sink valid s
      refine ⟨.count n, next, ?_, validNext, fits, added, False.elim⟩
      rw [Writing.perform, done]
      rfl
  | putline s =>
      obtain ⟨filled, put, validFilled, addedLine⟩ :=
        putspan_written sink valid s fuel enough passes
      obtain ⟨ended, putEnd, validEnded, addedEnd⟩ :=
        putchar_written sink validFilled newline fuel enough
      obtain ⟨next, done, flushed, same⟩ := flush_flushed sink validEnded fuel enough
      refine ⟨.done (.ok ()), next, ?_, flushed.valid, rfl, ?_, fun _ => flushed.index⟩
      · rw [Writing.perform, putline, puts, put]
        change ((filled.putchar sink.toStream fuel newline).bind _).bind _ = _
        rw [putEnd]
        change (ended.flush sink.toStream fuel).bind _ = _
        rw [done]
        rfl
      · rw [same, addedEnd, addedLine, List.append_assoc]
        rfl
  | putchunk s =>
      obtain ⟨filled, put, validFilled, added⟩ :=
        putspan_written sink valid s fuel enough passes
      obtain ⟨next, done, flushed, same⟩ := flush_flushed sink validFilled fuel enough
      refine ⟨.done (.ok ()), next, ?_, flushed.valid, rfl, same.trans added,
        fun _ => flushed.index⟩
      rw [Writing.perform, putchunk, puts, put]
      change (filled.flush sink.toStream fuel).bind _ = _
      rw [done]
      rfl
  | flush =>
      obtain ⟨next, done, flushed, same⟩ := flush_flushed sink valid fuel enough
      refine ⟨.done (.ok ()), next, ?_, flushed.valid, rfl, ?_, fun _ => flushed.index⟩
      · rw [Writing.perform, done]
        rfl
      · rw [same]
        exact (List.append_nil _).symm

end Calls

/-! ### Runs -/

def run (raw : Stream Device) (fuel : Nat) (stream : BorrowedStream Device) :
    List Writing → Except BufferFault (List Receipt × BorrowedStream Device)
  | [] => .ok ([], stream)
  | writing :: rest => do
      let (receipt, stream) ← writing.perform raw fuel stream
      let (receipts, stream) ← run raw fuel stream rest
      return (receipt :: receipts, stream)

/-- The concatenation of what the calls accepted. -/
def acceptedBy (writings : List Writing) (receipts : List Receipt) : Bytes :=
  (List.zipWith Writing.accepted writings receipts).flatten

theorem run_written (sink : Sink Device) {stream : BorrowedStream Device} (valid : Valid stream)
    (writings : List Writing) (fuel : Nat) (enough : kStreamBufferSize ≤ fuel)
    (passes : ∀ writing ∈ writings, writing.argument.length + 1 < fuel) :
    ∃ receipts last, run sink.toStream fuel stream writings = .ok (receipts, last) ∧ Valid last ∧
      written sink last = written sink stream ++ acceptedBy writings receipts := by
  induction writings generalizing stream with
  | nil =>
      refine ⟨[], stream, rfl, valid, ?_⟩
      change _ = written sink stream ++ []
      rw [List.append_nil]
  | cons writing rest ih =>
      obtain ⟨receipt, next, done, validNext, _, added, _⟩ :=
        perform_written sink valid writing fuel enough (passes writing List.mem_cons_self)
      obtain ⟨receipts, last, ran, validLast, addedRest⟩ :=
        ih validNext (fun later member => passes later (List.mem_cons_of_mem _ member))
      refine ⟨receipt :: receipts, last, ?_, validLast, ?_⟩
      · rw [run, done]
        change (run sink.toStream fuel next rest).bind _ = _
        rw [ran]
        rfl
      · rw [addedRest, added, List.append_assoc]
        rfl

/-- In every run on a fresh stream each call returns without an error, and what
the device has received with what is buffered is what the calls accepted. -/
theorem writes_arrive_in_order (sink : Sink Device) (device : Device) (writings : List Writing)
    (fuel : Nat) (enough : kStreamBufferSize ≤ fuel)
    (passes : ∀ writing ∈ writings, writing.argument.length + 1 < fuel)
    (before after : List Writing) (writing : Writing) (split : writings = before ++ writing :: after) :
    ∃ receipts state receipt next,
      run sink.toStream fuel (fresh device) before = .ok (receipts, state) ∧
        writing.perform sink.toStream fuel state = .ok (receipt, next) ∧
        receipt.Succeeded writing ∧ Valid state ∧ Valid next ∧
        written sink state = sink.received device ++ acceptedBy before receipts ∧
        written sink next = written sink state ++ writing.accepted receipt ∧
        (writing.EndsFlushed → next.mOutIndex = 0) := by
  have passesBefore : ∀ earlier ∈ before, earlier.argument.length + 1 < fuel := by
    intro earlier member
    apply passes
    rw [split]
    exact List.mem_append_left _ member
  have passesWriting : writing.argument.length + 1 < fuel := by
    apply passes
    rw [split]
    simp
  obtain ⟨receipts, state, ran, validState, soFar⟩ :=
    run_written sink (Valid.fresh device) before fuel enough passesBefore
  obtain ⟨receipt, next, done, validNext, succeeded, added, ends⟩ :=
    perform_written sink validState writing fuel enough passesWriting
  have freshWritten : written sink (fresh device) = sink.received device := List.append_nil _
  rw [freshWritten] at soFar
  exact ⟨receipts, state, receipt, next, ran, done, succeeded, validState, validNext, soFar,
    added, ends⟩

/-- A device that is the bytes it has received; it takes at most `count + 1` at a time. -/
def gathering (count : Nat) : Sink Bytes where
  rawRead device _ := (.ok [], device)
  rawWrite device bytes :=
    (.ok (min (count + 1) bytes.length), device ++ bytes.take (min (count + 1) bytes.length))
  rawFlush device := (.ok (), device)
  received device := device
  accepts := by
    intro device bytes nonempty
    have positive := List.length_pos_of_ne_nil nonempty
    exact ⟨_, _, rfl, by omega, Nat.min_le_right _ _, rfl⟩
  flushes := by
    intro device
    exact ⟨device, rfl, rfl⟩

/-- A byte, a line and a flush, to a device that takes three bytes at a time. -/
theorem writes_arrive_in_order_gathering :
    ∃ receipts state receipt next,
      run (gathering 2).toStream 9000 (fresh []) [.putchar 1, .putline [104, 105]] =
          .ok (receipts, state) ∧
        (Writing.trywrite [5, 6]).perform (gathering 2).toStream 9000 state =
          .ok (receipt, next) ∧
        receipt.Succeeded (.trywrite [5, 6]) ∧ Valid state ∧ Valid next ∧
        written (gathering 2) state =
          (gathering 2).received [] ++ acceptedBy [.putchar 1, .putline [104, 105]] receipts ∧
        written (gathering 2) next =
          written (gathering 2) state ++ (Writing.trywrite [5, 6]).accepted receipt ∧
        ((Writing.trywrite [5, 6]).EndsFlushed → next.mOutIndex = 0) :=
  writes_arrive_in_order (gathering 2) []
    [.putchar 1, .putline [104, 105], .trywrite [5, 6], .flush] 9000 (by decide)
    (by simp [Writing.argument]) [.putchar 1, .putline [104, 105]] [.flush]
    (.trywrite [5, 6]) rfl

end StreamWrites

end MCoro
