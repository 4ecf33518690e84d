/-
co_async/iostream/stream_base.hpp: a stream and the buffers in front of it.

A call returns the value or the error its task ends with, and the stream after
it. `co_await co_await` of an error ends the task with that error. A String that
the caller passes by reference is returned with the result, since a task that
fails has written to it too. Loops take fuel; what a device does in one call is
arbitrary.
-/

import MCoro.Iostream.BytesBuffer
import MCoro.Utils.Expected

namespace MCoro

def kStreamBufferSize : Nat := 8192

/-- The raw operations of a `Stream`; a read returns the bytes it put in the span. -/
structure Stream (Device : Type) where
  rawRead : Device → Nat → Expected Bytes × Device
  rawWrite : Device → Bytes → Expected Nat × Device
  rawFlush : Device → Expected Unit × Device

/-- raw_seek, which the default of `Stream` refuses. -/
structure SeekableStream (Device : Type) extends Stream Device where
  rawSeek : Device → Nat → Expected Unit × Device

structure BorrowedStream (Device : Type) where
  mInBuffer : BytesBuffer
  mInIndex : Nat
  mInEnd : Nat
  mOutBuffer : BytesBuffer
  mOutIndex : Nat
  mRaw : Device

/-- What a task that returns `T` leaves. -/
abbrev Reply (Device T : Type) := Expected T × BorrowedStream Device

/-- What a task that appends to a String of the caller leaves. -/
abbrev TextReply (Device : Type) := Expected Unit × Bytes × BorrowedStream Device

namespace BorrowedStream

variable {Device : Type}

def fresh (device : Device) : BorrowedStream Device :=
  { mInBuffer := {}
    mInIndex := 0
    mInEnd := 0
    mOutBuffer := {}
    mOutIndex := 0
    mRaw := device }

/-! ### Reading -/

def bufempty (stream : BorrowedStream Device) : Bool :=
  stream.mInIndex = stream.mInEnd

/-- `mInEnd = mInIndex = 0`. -/
def resetInput (stream : BorrowedStream Device) : BorrowedStream Device :=
  { stream with
    mInIndex := 0
    mInEnd := 0 }

def allocinbuf (size : Nat) (stream : BorrowedStream Device) : BorrowedStream Device :=
  match stream.mInBuffer.mData with
  | none =>
      { stream with
        mInBuffer := .allocate size
        mInIndex := 0
        mInEnd := 0 }
  | some _ => stream

/-- fillbuf from the answer of raw_read on. -/
def receive (stream : BorrowedStream Device) :
    Expected Bytes × Device → Except BufferFault (Reply Device Unit)
  | (.error code, device) => .ok (.error code, { stream with mRaw := device })
  | (.ok bytes, device) => do
      let buffer ← stream.mInBuffer.write stream.mInIndex bytes
      if bytes.length = 0 then
        return (.error .eofError, { stream with
          mInBuffer := buffer
          mRaw := device })
      else
        return (.ok (), { stream with
          mInBuffer := buffer
          mInEnd := stream.mInIndex + bytes.length
          mRaw := device })

variable (raw : Stream Device)

def fillbuf (stream : BorrowedStream Device) : Except BufferFault (Reply Device Unit) :=
  let stream := stream.allocinbuf kStreamBufferSize
  receive stream (raw.rawRead stream.mRaw (stream.mInBuffer.size - stream.mInIndex))

/-- The opening lines of getchar, peekchar and getchunk. -/
def fillIfEmpty (stream : BorrowedStream Device) : Except BufferFault (Reply Device Unit) :=
  if stream.bufempty then fillbuf raw stream.resetInput else .ok (.ok (), stream)

def getchar (stream : BorrowedStream Device) : Except BufferFault (Reply Device UInt8) := do
  let (filled, stream) ← fillIfEmpty raw stream
  match filled with
  | .error code => return (.error code, stream)
  | .ok () =>
      let c ← stream.mInBuffer.get stream.mInIndex
      return (.ok c, { stream with mInIndex := stream.mInIndex + 1 })

def peekchar (stream : BorrowedStream Device) : Except BufferFault (Reply Device UInt8) := do
  let (filled, stream) ← fillIfEmpty raw stream
  match filled with
  | .error code => return (.error code, stream)
  | .ok () =>
      let c ← stream.mInBuffer.get stream.mInIndex
      return (.ok c, stream)

/-- The `for` loop of getline and dropline from `i`, with `count` indices to go. -/
def findEol (buffer : BytesBuffer) (eol : UInt8) (i : Nat) :
    Nat → Except BufferFault (Option Nat)
  | 0 => .ok none
  | count + 1 => do
      let c ← buffer.get i
      if c = eol then return some i else findEol buffer eol (i + 1) count

def getlineLoop (eol : UInt8) :
    Nat → BorrowedStream Device → Bytes → Nat → Except BufferFault (TextReply Device)
  | 0, _, _, _ => .error .outOfFuel
  | fuel + 1, stream, s, start => do
      match ← findEol stream.mInBuffer eol start (stream.mInEnd - start) with
      | some i =>
          let line ← stream.mInBuffer.read start (i - start)
          return (.ok (), s ++ line, { stream with mInIndex := i + 1 })
      | none =>
          let line ← stream.mInBuffer.read start (stream.mInEnd - start)
          let (filled, stream) ← fillbuf raw stream.resetInput
          match filled with
          | .error code => return (.error code, s ++ line, stream)
          | .ok () => getlineLoop eol fuel stream (s ++ line) 0

def getline (fuel : Nat) (stream : BorrowedStream Device) (s : Bytes) (eol : UInt8) :
    Except BufferFault (TextReply Device) :=
  getlineLoop raw eol fuel stream s stream.mInIndex

def droplineLoop (eol : UInt8) :
    Nat → BorrowedStream Device → Nat → Except BufferFault (Reply Device Unit)
  | 0, _, _ => .error .outOfFuel
  | fuel + 1, stream, start => do
      match ← findEol stream.mInBuffer eol start (stream.mInEnd - start) with
      | some i => return (.ok (), { stream with mInIndex := i + 1 })
      | none =>
          let (filled, stream) ← fillbuf raw stream.resetInput
          match filled with
          | .error code => return (.error code, stream)
          | .ok () => droplineLoop eol fuel stream 0

def dropline (fuel : Nat) (stream : BorrowedStream Device) (eol : UInt8) :
    Except BufferFault (Reply Device Unit) :=
  droplineLoop raw eol fuel stream stream.mInIndex

/-- `eol.front()`. -/
def front : Bytes → Except BufferFault UInt8
  | [] => .error .outOfBounds
  | first :: _ => .ok first

/-- The `for` loop over the delimiter from index `i` on, with `eol` what is left of it:
none when all of it was met, else the index of the byte that was not. -/
def matchEol : Bytes → Nat → BorrowedStream Device →
    Except BufferFault (Reply Device (Option Nat))
  | [], _, stream => .ok (.ok none, stream)
  | byte :: eol, i, stream => do
      let (filled, stream) ← fillIfEmpty raw stream
      match filled with
      | .error code => return (.error code, stream)
      | .ok () =>
          let c ← stream.mInBuffer.get stream.mInIndex
          if byte = c then matchEol eol (i + 1) { stream with mInIndex := stream.mInIndex + 1 }
          else return (.ok (some i), stream)

/-- Each pass of the loop is a jump to `again`; `limit` is the fuel of getline. -/
def getlineViewLoop (limit : Nat) (eol : Bytes) :
    Nat → BorrowedStream Device → Bytes → Except BufferFault (TextReply Device)
  | 0, _, _ => .error .outOfFuel
  | fuel + 1, stream, s => do
      let first ← front eol
      let (found, s, stream) ← getline raw limit stream s first
      match found with
      | .error code => return (.error code, s, stream)
      | .ok () =>
          let (matched, stream) ← matchEol raw (eol.drop 1) 1 stream
          match matched with
          | .error code => return (.error code, s, stream)
          | .ok none => return (.ok (), s, stream)
          | .ok (some i) => getlineViewLoop limit eol fuel stream (s ++ eol.take i)

/-- getline with a string_view. -/
def getlineView (fuel : Nat) (stream : BorrowedStream Device) (s : Bytes) (eol : Bytes) :
    Except BufferFault (TextReply Device) :=
  getlineViewLoop raw fuel eol fuel stream s

def droplineViewLoop (limit : Nat) (eol : Bytes) :
    Nat → BorrowedStream Device → Except BufferFault (Reply Device Unit)
  | 0, _ => .error .outOfFuel
  | fuel + 1, stream => do
      let first ← front eol
      let (found, stream) ← dropline raw limit stream first
      match found with
      | .error code => return (.error code, stream)
      | .ok () =>
          let (matched, stream) ← matchEol raw (eol.drop 1) 1 stream
          match matched with
          | .error code => return (.error code, stream)
          | .ok none => return (.ok (), stream)
          | .ok (some _) => droplineViewLoop limit eol fuel stream

/-- dropline with a string_view. -/
def droplineView (fuel : Nat) (stream : BorrowedStream Device) (eol : Bytes) :
    Except BufferFault (Reply Device Unit) :=
  droplineViewLoop raw fuel eol fuel stream

/-- The bytes stored in the span `s` through a pointer to its byte `p`. -/
def copyTo (s : Bytes) (p : Nat) (bytes : Bytes) : Except BufferFault Bytes :=
  if p + bytes.length ≤ s.length then .ok (Segments.overwrite s p bytes)
  else .error .outOfBounds

/-- `n` is the length of the span in every pass. The end index wraps. -/
def getspanLoop (n : Nat) :
    Nat → BorrowedStream Device → Bytes → Nat → Nat → Except BufferFault (TextReply Device)
  | 0, _, _, _, _ => .error .outOfFuel
  | fuel + 1, stream, s, p, start => do
      let stop := (start + n) % 2 ^ 64
      if stop ≤ stream.mInEnd then
        let bytes ← stream.mInBuffer.read start (stop - start)
        let s ← copyTo s p bytes
        return (.ok (), s, { stream with mInIndex := stop })
      else
        let bytes ← stream.mInBuffer.read start (stream.mInEnd - start)
        let s ← copyTo s p bytes
        let (filled, stream) ← fillbuf raw stream.resetInput
        match filled with
        | .error code => return (.error code, s, stream)
        | .ok () => getspanLoop n fuel stream s (p + bytes.length) 0

/-- `s` is the memory of the span. -/
def getspan (fuel : Nat) (stream : BorrowedStream Device) (s : Bytes) :
    Except BufferFault (TextReply Device) :=
  getspanLoop raw s.length fuel stream s 0 stream.mInIndex

/-- `ret` is the object representation of the struct. -/
def getstruct (fuel : Nat) (stream : BorrowedStream Device) (ret : Bytes) :
    Except BufferFault (TextReply Device) :=
  getspan raw fuel stream ret

/-- The end index is a sum of two 64-bit numbers and wraps. -/
def getnLoop :
    Nat → BorrowedStream Device → Bytes → Nat → Nat →
      Except BufferFault (TextReply Device)
  | 0, _, _, _, _ => .error .outOfFuel
  | fuel + 1, stream, s, n, start => do
      let stop := (start + n) % 2 ^ 64
      if stop ≤ stream.mInEnd then
        let bytes ← stream.mInBuffer.read stream.mInIndex n
        return (.ok (), s ++ bytes, { stream with mInIndex := stop })
      else
        let m := stream.mInEnd - stream.mInIndex
        let bytes ← stream.mInBuffer.read stream.mInIndex m
        let (filled, stream) ← fillbuf raw stream.resetInput
        match filled with
        | .error code => return (.error code, s ++ bytes, stream)
        | .ok () => getnLoop fuel stream (s ++ bytes) (n - m) 0

def getn (fuel : Nat) (stream : BorrowedStream Device) (s : Bytes) (n : Nat) :
    Except BufferFault (TextReply Device) :=
  getnLoop raw fuel stream s n stream.mInIndex

/-- The end index wraps as in getn. -/
def dropnLoop :
    Nat → BorrowedStream Device → Nat → Nat → Except BufferFault (Reply Device Unit)
  | 0, _, _, _ => .error .outOfFuel
  | fuel + 1, stream, n, start => do
      let stop := (start + n) % 2 ^ 64
      if stop ≤ stream.mInEnd then
        return (.ok (), { stream with mInIndex := stop })
      else
        let m := stream.mInEnd - stream.mInIndex
        let (filled, stream) ← fillbuf raw stream.resetInput
        match filled with
        | .error code => return (.error code, stream)
        | .ok () => dropnLoop fuel stream (n - m) 0

def dropn (fuel : Nat) (stream : BorrowedStream Device) (n : Nat) :
    Except BufferFault (Reply Device Unit) :=
  dropnLoop raw fuel stream n stream.mInIndex

/-- The condition of the `do while` loops: whether there is more to read. -/
def more (filled : Expected Unit) : Expected Bool :=
  (filled.transform fun _ => true).orElse .eofError false

def dropall : Nat → BorrowedStream Device → Except BufferFault (Reply Device Unit)
  | 0, _ => .error .outOfFuel
  | fuel + 1, stream => do
      let (filled, stream) ← fillbuf raw stream.resetInput
      match more filled with
      | .error code => return (.error code, stream)
      | .ok true => dropall fuel stream
      | .ok false => return (.ok (), stream)

theorem dropall_pass {raw : Stream Device} {fuel : Nat} {stream next : BorrowedStream Device}
    {result : Expected Unit} (filled : fillbuf raw stream.resetInput = .ok (result, next)) :
    dropall raw (fuel + 1) stream =
      match more result with
      | .error code => .ok (.error code, next)
      | .ok true => dropall raw fuel next
      | .ok false => .ok (.ok (), next) := by
  rw [dropall]
  change (fillbuf raw stream.resetInput).bind _ = _
  rw [filled]
  rfl

def getallLoop :
    Nat → BorrowedStream Device → Bytes → Nat → Except BufferFault (TextReply Device)
  | 0, _, _, _ => .error .outOfFuel
  | fuel + 1, stream, s, start => do
      let bytes ← stream.mInBuffer.read start (stream.mInEnd - start)
      let (filled, stream) ← fillbuf raw stream.resetInput
      match more filled with
      | .error code => return (.error code, s ++ bytes, stream)
      | .ok true => getallLoop fuel stream (s ++ bytes) 0
      | .ok false => return (.ok (), s ++ bytes, stream)

/-- One pass of the loop, once the bytes have been read and the buffer is filled again. -/
theorem getallLoop_pass {raw : Stream Device} {fuel start : Nat}
    {stream next : BorrowedStream Device} {s bytes : Bytes} {result : Expected Unit}
    (read : stream.mInBuffer.read start (stream.mInEnd - start) = .ok bytes)
    (filled : fillbuf raw stream.resetInput = .ok (result, next)) :
    getallLoop raw (fuel + 1) stream s start =
      match more result with
      | .error code => .ok (.error code, s ++ bytes, next)
      | .ok true => getallLoop raw fuel next (s ++ bytes) 0
      | .ok false => .ok (.ok (), s ++ bytes, next) := by
  rw [getallLoop, read]
  change (fillbuf raw stream.resetInput).bind _ = _
  rw [filled]
  rfl

def getall (fuel : Nat) (stream : BorrowedStream Device) (s : Bytes) :
    Except BufferFault (TextReply Device) :=
  getallLoop raw fuel stream s stream.mInIndex

def peekbuf (stream : BorrowedStream Device) : Except BufferFault Bytes :=
  stream.mInBuffer.read stream.mInIndex (stream.mInEnd - stream.mInIndex)

def seenbuf (n : Nat) (stream : BorrowedStream Device) : BorrowedStream Device :=
  { stream with mInIndex := stream.mInIndex + n }

def getchunk (stream : BorrowedStream Device) : Except BufferFault (Reply Device Bytes) := do
  let (filled, stream) ← fillIfEmpty raw stream
  match filled with
  | .error code => return (.error code, stream)
  | .ok () =>
      let buf ← stream.peekbuf
      return (.ok buf, stream.seenbuf buf.length)

/-- `std::errc::value_too_large`. -/
def valueTooLarge : ErrorCode :=
  .errc 75

/-- The opening lines of peekn when the bytes do not fit behind mInIndex. -/
def compact (stream : BorrowedStream Device) : Except BufferFault (BorrowedStream Device) := do
  let unread ← stream.mInBuffer.read stream.mInIndex (stream.mInEnd - stream.mInIndex)
  let buffer ← stream.mInBuffer.write 0 unread
  return { stream with
    mInBuffer := buffer
    mInIndex := 0
    mInEnd := stream.mInEnd - stream.mInIndex }

def peeknLoop (n : Nat) :
    Nat → BorrowedStream Device → Bytes → Except BufferFault (TextReply Device)
  | 0, _, _ => .error .outOfFuel
  | fuel + 1, stream, s =>
      if stream.mInEnd - stream.mInIndex < n then do
        let (filled, stream) ← fillbuf raw stream
        match filled with
        | .error code => return (.error code, s, stream)
        | .ok () => peeknLoop n fuel stream s
      else do
        let bytes ← stream.mInBuffer.read stream.mInIndex n
        return (.ok (), s ++ bytes, stream)

def peekn (fuel : Nat) (stream : BorrowedStream Device) (s : Bytes) (n : Nat) :
    Except BufferFault (TextReply Device) :=
  if stream.mInBuffer.size - stream.mInIndex < n then
    if stream.mInBuffer.size < n then .ok (.error valueTooLarge, s, stream)
    else do
      let stream ← stream.compact
      peeknLoop raw n fuel stream s
  else peeknLoop raw n fuel stream s

/-- The bytes copied to the span of length `length`. -/
def tryread (stream : BorrowedStream Device) (length : Nat) :
    Except BufferFault (Bytes × BorrowedStream Device) := do
  let peekBuf ← stream.peekbuf
  let n := min length peekBuf.length
  return (peekBuf.take n, stream.seenbuf n)

def read (stream : BorrowedStream Device) (length : Nat) :
    Except BufferFault (Reply Device Bytes) :=
  if stream.bufempty then
    let (result, device) := raw.rawRead stream.mRaw length
    .ok (result, { stream with mRaw := device })
  else do
    let n := min (stream.mInEnd - stream.mInIndex) length
    let bytes ← stream.mInBuffer.read stream.mInIndex n
    return (.ok bytes, { stream with mInIndex := stream.mInIndex + n })

/-! ### Writing -/

def buffull (stream : BorrowedStream Device) : Bool :=
  stream.mOutIndex = stream.mOutBuffer.size

def allocoutbuf (size : Nat) (stream : BorrowedStream Device) : BorrowedStream Device :=
  match stream.mOutBuffer.mData with
  | none =>
      { stream with
        mOutBuffer := .allocate size
        mOutIndex := 0 }
  | some _ => stream

/-- The calls of raw_write in flush: the last result, and the device. -/
def writeLoop : Nat → Device → Bytes → Except BufferFault (Expected Nat × Device)
  | 0, _, _ => .error .outOfFuel
  | fuel + 1, device, buf =>
      match raw.rawWrite device buf with
      | (.error code, device) => .ok (.error code, device)
      | (.ok len, device) =>
          if 0 < len ∧ len ≠ buf.length then
            if len ≤ buf.length then writeLoop fuel device (buf.drop len)
            else .error .outOfBounds
          else
            .ok (.ok len, device)

/-- flush after its last raw_write. -/
def settle (stream : BorrowedStream Device) : Expected Nat → Reply Device Unit
  | .error code => (.error code, stream)
  | .ok 0 => (.error .eofError, stream)
  | .ok (_ + 1) =>
      let (flushed, device) := raw.rawFlush stream.mRaw
      (flushed, { stream with
        mOutIndex := 0
        mRaw := device })

def flush (fuel : Nat) (stream : BorrowedStream Device) :
    Except BufferFault (Reply Device Unit) :=
  match stream.mOutBuffer.mData with
  | none => .ok (.ok (), stream.allocoutbuf kStreamBufferSize)
  | some _ =>
      if stream.mOutIndex = 0 then .ok (.ok (), stream)
      else do
        let buf ← stream.mOutBuffer.read 0 stream.mOutIndex
        let (len, device) ← writeLoop raw fuel stream.mRaw buf
        return settle raw { stream with mRaw := device } len

/-- The opening lines of putchar. -/
def flushIfFull (fuel : Nat) (stream : BorrowedStream Device) :
    Except BufferFault (Reply Device Unit) :=
  if stream.buffull then flush raw fuel stream else .ok (.ok (), stream)

def putchar (fuel : Nat) (stream : BorrowedStream Device) (c : UInt8) :
    Except BufferFault (Reply Device Unit) := do
  let (flushed, stream) ← flushIfFull raw fuel stream
  match flushed with
  | .error code => return (.error code, stream)
  | .ok () =>
      let buffer ← stream.mOutBuffer.write stream.mOutIndex [c]
      return (.ok (), { stream with
        mOutBuffer := buffer
        mOutIndex := stream.mOutIndex + 1 })

/-- Each pass of the loop is a jump to `again`; `limit` is the fuel of flush. -/
def putspanLoop (limit : Nat) :
    Nat → BorrowedStream Device → Bytes → Except BufferFault (Reply Device Unit)
  | 0, _, _ => .error .outOfFuel
  | fuel + 1, stream, p => do
      let room := stream.mOutBuffer.size - stream.mOutIndex
      if p.length ≤ room then
        let buffer ← stream.mOutBuffer.write stream.mOutIndex p
        return (.ok (), { stream with
          mOutBuffer := buffer
          mOutIndex := stream.mOutIndex + p.length })
      else
        let buffer ← stream.mOutBuffer.write stream.mOutIndex (p.take room)
        let (flushed, stream) ← flush raw limit { stream with
          mOutBuffer := buffer
          mOutIndex := stream.mOutBuffer.size }
        match flushed with
        | .error code => return (.error code, stream)
        | .ok () => putspanLoop limit fuel { stream with mOutIndex := 0 } (p.drop room)

theorem putspanLoop_full {raw : Stream Device} {limit fuel : Nat}
    {stream next : BorrowedStream Device} {p : Bytes} {buffer : BytesBuffer}
    {result : Expected Unit} (long : ¬p.length ≤ stream.mOutBuffer.size - stream.mOutIndex)
    (stored : stream.mOutBuffer.write stream.mOutIndex
      (p.take (stream.mOutBuffer.size - stream.mOutIndex)) = .ok buffer) :
    flush raw limit { stream with
        mOutBuffer := buffer
        mOutIndex := stream.mOutBuffer.size } = .ok (result, next) →
      putspanLoop raw limit (fuel + 1) stream p =
        match result with
        | .error code => .ok (.error code, next)
        | .ok () => putspanLoop raw limit fuel { next with mOutIndex := 0 }
            (p.drop (stream.mOutBuffer.size - stream.mOutIndex)) := by
  intro flushed
  rw [putspanLoop, if_neg long]
  change (stream.mOutBuffer.write stream.mOutIndex _).bind _ = _
  rw [stored]
  change (flush raw limit { stream with
    mOutBuffer := buffer
    mOutIndex := stream.mOutBuffer.size }).bind _ = _
  rw [flushed]
  cases result <;> rfl

def putspan (fuel : Nat) (stream : BorrowedStream Device) (s : Bytes) :
    Except BufferFault (Reply Device Unit) :=
  putspanLoop raw fuel fuel stream s

/-- The number of bytes taken. -/
def trywrite (stream : BorrowedStream Device) (s : Bytes) :
    Except BufferFault (Nat × BorrowedStream Device) := do
  let stream := stream.allocoutbuf kStreamBufferSize
  let nMax := stream.mOutBuffer.size - stream.mOutIndex
  if s.length ≤ nMax then
    let buffer ← stream.mOutBuffer.write stream.mOutIndex s
    return (s.length, { stream with
      mOutBuffer := buffer
      mOutIndex := stream.mOutIndex + s.length })
  else
    let buffer ← stream.mOutBuffer.write stream.mOutIndex (s.take nMax)
    return (nMax, { stream with
      mOutBuffer := buffer
      mOutIndex := stream.mOutBuffer.size })

def puts (fuel : Nat) (stream : BorrowedStream Device) (s : Bytes) :
    Except BufferFault (Reply Device Unit) :=
  putspan raw fuel stream s

/-- The argument is the object representation of the struct. -/
def putstruct (fuel : Nat) (stream : BorrowedStream Device) (s : Bytes) :
    Except BufferFault (Reply Device Unit) :=
  putspan raw fuel stream s

def putchunk (fuel : Nat) (stream : BorrowedStream Device) (s : Bytes) :
    Except BufferFault (Reply Device Unit) := do
  let (put, stream) ← puts raw fuel stream s
  match put with
  | .error code => return (.error code, stream)
  | .ok () => flush raw fuel stream

/-- The byte of '\n'. -/
def newline : UInt8 := 10

def putline (fuel : Nat) (stream : BorrowedStream Device) (s : Bytes) :
    Except BufferFault (Reply Device Unit) := do
  let (put, stream) ← puts raw fuel stream s
  match put with
  | .error code => return (.error code, stream)
  | .ok () =>
      let (put, stream) ← putchar raw fuel stream newline
      match put with
      | .error code => return (.error code, stream)
      | .ok () => flush raw fuel stream

def write (fuel : Nat) (stream : BorrowedStream Device) (buffer : Bytes) :
    Except BufferFault (Reply Device Nat) :=
  if stream.buffull then
    let (result, device) := raw.rawWrite stream.mRaw buffer
    .ok (result, { stream with mRaw := device })
  else do
    let n := min (stream.mOutBuffer.size - stream.mOutIndex) buffer.length
    let (put, stream) ← putspan raw fuel stream (buffer.take n)
    match put with
    | .error code => return (.error code, stream)
    | .ok () => return (.ok n, stream)

def seek (raw : SeekableStream Device) (stream : BorrowedStream Device) (pos : Nat) :
    Reply Device Unit :=
  match raw.rawSeek stream.mRaw pos with
  | (.error code, device) => (.error code, { stream with mRaw := device })
  | (.ok (), device) =>
      (.ok (), { stream with
        mInIndex := 0
        mInEnd := 0
        mOutIndex := 0
        mRaw := device })

end BorrowedStream

end MCoro
