/-
Reading into a span, and peeking.

Both are right about bytes that are buffered, and about bytes that the first read of
an empty buffer delivers. With anything less getspan, which counts the whole span
again behind a refill, stores past the end of the span, and peekn refills on top of
the bytes that it was to keep.
-/

import MCoro.Iostream.StreamReadRuns

namespace MCoro.StreamReads

open Segments
open BorrowedStream

variable {Device : Type} {raw : Stream Device} {source : Source Device}
  {stream next : BorrowedStream Device}

/-- The bytes that are there without a second read: those of the window, or those that
the device delivers into the room of an empty buffer. -/
def AtOnce (source : Source Device) (stream : BorrowedStream Device) (room n : Nat) : Prop :=
  n ≤ (window stream).length ∨
    window stream = [] ∧ ∃ bytes device,
      source.rawRead stream.mRaw room = (.ok bytes, device) ∧ n ≤ bytes.length

/-! ### getspan -/

theorem copyTo_ok {s bytes stored : Bytes} {p : Nat} (copied : copyTo s p bytes = .ok stored) :
    p + bytes.length ≤ s.length ∧ stored.length = s.length := by
  by_cases bound : p + bytes.length ≤ s.length
  · unfold copyTo at copied
    rw [if_pos bound] at copied
    cases copied
    exact ⟨bound, overwrite_length bound⟩
  · unfold copyTo at copied
    rw [if_neg bound] at copied
    cases copied

theorem copyTo_whole {s bytes : Bytes} (length : bytes.length = s.length) :
    copyTo s 0 bytes = .ok bytes := by
  unfold copyTo overwrite
  rw [if_pos (by omega), List.take_zero, List.nil_append, Nat.zero_add,
    List.drop_eq_nil_of_le length.ge, List.append_nil]

/-- Once a part of the span is stored, getspan never ends with success: all of `n`
bytes no longer fit. -/
theorem getspanLoop_beyond {s text : Bytes} {p : Nat} (partly : 0 < p) (sized : s.length < 2 ^ 63)
    (fuel : Nat) : getspanLoop raw s.length fuel stream s p 0 ≠ .ok (.ok (), text, next) := by
  induction fuel generalizing stream s p with
  | zero => nofun
  | succ fuel ih =>
      intro ends
      have stop : (0 + s.length) % 2 ^ 64 = s.length := by
        rw [Nat.zero_add]
        apply Nat.mod_eq_of_lt
        omega
      rw [getspanLoop, stop] at ends
      change (if s.length ≤ stream.mInEnd then _ else _) = _ at ends
      by_cases inside : s.length ≤ stream.mInEnd
      · rw [if_pos inside] at ends
        obtain ⟨bytes, read, ends⟩ := Faults.exists_of_bind ends
        obtain ⟨stored, copied, _⟩ := Faults.exists_of_bind ends
        have length := BytesBuffer.read_length read
        have bound := (copyTo_ok copied).1
        omega
      · rw [if_neg inside] at ends
        obtain ⟨bytes, _, ends⟩ := Faults.exists_of_bind ends
        obtain ⟨stored, copied, ends⟩ := Faults.exists_of_bind ends
        obtain ⟨reply, _, ends⟩ := Faults.exists_of_bind ends
        obtain ⟨result, refilled⟩ := reply
        have same := (copyTo_ok copied).2
        cases result with
        | error code => cases ends
        | ok _ =>
            rw [← same] at ends
            exact ih (by omega) (by omega) ends

theorem getspanLoop_buffered (raw : Stream Device) (valid : Valid stream) {s : Bytes}
    (sized : s.length < 2 ^ 63) (inside : s.length ≤ (window stream).length) (fuel : Nat) :
    getspanLoop raw s.length (fuel + 1) stream s 0 stream.mInIndex =
      .ok (.ok (), (window stream).take s.length, stream.seenbuf s.length) := by
  have length := window_length valid
  have ordered := valid.ordered
  have whole : ((window stream).take s.length).length = s.length := by
    rw [List.length_take]
    exact Nat.min_eq_left inside
  rw [getspanLoop, stop_eq valid sized]
  change (if stream.mInIndex + s.length ≤ stream.mInEnd then _ else _) = _
  rw [if_pos (by omega), Nat.add_sub_cancel_left, window_read valid inside]
  change (copyTo s 0 _).bind _ = _
  rw [copyTo_whole whole]
  rfl

theorem getspanLoop_refill (raw : Stream Device) (valid : Valid stream) {s : Bytes}
    (sized : s.length < 2 ^ 63) (short : (window stream).length < s.length)
    {result : Expected Unit} (fuel : Nat) :
    fillbuf raw stream.resetInput = .ok (result, next) →
      getspanLoop raw s.length (fuel + 1) stream s 0 stream.mInIndex =
        match result with
        | .error code => .ok (.error code, overwrite s 0 (window stream), next)
        | .ok () => getspanLoop raw s.length fuel next (overwrite s 0 (window stream))
            (window stream).length 0 := by
  intro filled
  have length := window_length valid
  have ordered := valid.ordered
  have fits : copyTo s 0 (window stream) = .ok (overwrite s 0 (window stream)) :=
    if_pos (by omega)
  rw [getspanLoop, stop_eq valid sized]
  change (if stream.mInIndex + s.length ≤ stream.mInEnd then _ else _) = _
  rw [if_neg (by omega), BytesBuffer.read_eq valid.ordered valid.bounded]
  change (copyTo s 0 (window stream)).bind _ = _
  rw [fits]
  change (fillbuf raw stream.resetInput).bind _ = _
  rw [filled]
  cases result
  · rfl
  · change getspanLoop raw s.length fuel next (overwrite s 0 (window stream))
      (0 + (window stream).length) 0 = _
    rw [Nat.zero_add]

theorem getspan_empty (source : Source Device) (valid : Valid stream) {s bytes : Bytes}
    {device : Device} (sized : s.length < 2 ^ 63) (nonempty : s ≠ []) (empty : window stream = [])
    (answer : source.rawRead stream.mRaw kStreamBufferSize = (.ok bytes, device))
    (delivered : bytes ≠ []) (fuel : Nat) :
    ∃ refilled, getspan source.toStream (fuel + 1) stream s =
        getspan source.toStream fuel refilled s ∧
      Valid refilled ∧ window refilled = bytes ∧ refilled.mRaw = device := by
  have short : (window stream).length < s.length := by
    rw [empty]
    exact List.length_pos_of_ne_nil nonempty
  obtain ⟨result, refilled, filled, validNext, index, sameDevice, received⟩ :=
    refill_receives source valid.resetInput rfl rfl answer
  cases received with
  | ended => exact absurd rfl delivered
  | filled _ stored =>
      refine ⟨refilled, ?_, validNext, stored, sameDevice⟩
      rw [getspan, getspanLoop_refill _ valid sized short fuel filled, empty, getspan, index]
      rfl

theorem window_seenbuf (stream : BorrowedStream Device) (n : Nat) :
    window (stream.seenbuf n) = (window stream).drop n :=
  List.drop_drop.symm

/-- What a read of the next `n` bytes into a span leaves. -/
def TakesNext (source : Source Device) (stream : BorrowedStream Device) (n : Nat)
    (reply : Except BufferFault (TextReply Device)) : Prop :=
  ∃ next, reply = .ok (.ok (), (remaining source stream).take n, next) ∧
    remaining source next = (remaining source stream).drop n

theorem getspan_takes (source : Source Device) (valid : Valid stream) {s : Bytes}
    (sized : s.length < 2 ^ 63) {fuel : Nat} (enough : 2 ≤ fuel)
    (atOnce : AtOnce source stream kStreamBufferSize s.length) :
    TakesNext source stream s.length (getspan source.toStream fuel stream s) := by
  obtain ⟨fuel, rfl⟩ := Nat.exists_eq_add_of_le' enough
  by_cases inside : s.length ≤ (window stream).length
  · obtain ⟨taken, left⟩ := buffered_next source valid inside
    refine ⟨_, ?_, left⟩
    rw [getspan, getspanLoop_buffered _ valid sized inside, taken]
  · obtain ⟨empty, bytes, device, answer, delivered⟩ := atOnce.resolve_left inside
    rw [empty] at inside
    have nonempty : s ≠ [] := by
      intro nothing
      rw [nothing] at inside
      exact inside (Nat.le_refl _)
    have some_ : bytes ≠ [] := by
      intro nothing
      rw [nothing] at delivered
      exact inside delivered
    obtain ⟨refilled, starts, validNext, stored, sameDevice⟩ :=
      getspan_empty source valid sized nonempty empty answer some_ (fuel + 1)
    have room : s.length ≤ (window refilled).length := by
      rw [stored]
      exact delivered
    have before : remaining source stream = source.pending stream.mRaw := by
      unfold remaining
      rw [empty]
      rfl
    obtain ⟨taken, left⟩ := buffered_next source validNext room
    rw [remaining_filled answer stored sameDevice, ← before] at taken left
    refine ⟨_, ?_, left⟩
    rw [starts, getspan, getspanLoop_buffered _ validNext sized room, taken]

/-- A window that is neither empty nor enough: a part of the span is stored. -/
theorem getspanLoop_short (source : Source Device) (valid : Valid stream) {s text : Bytes}
    (sized : s.length < 2 ^ 63) (nonempty : window stream ≠ [])
    (short : (window stream).length < s.length) (fuel : Nat) :
    getspanLoop source.toStream s.length fuel stream s 0 stream.mInIndex ≠
      .ok (.ok (), text, next) := by
  cases fuel with
  | zero => nofun
  | succ fuel =>
      obtain ⟨result, refilled, filled, _⟩ := fillbuf_refill source valid.resetInput rfl rfl
      rw [getspanLoop_refill source.toStream valid sized short fuel filled]
      cases result with
      | error code => nofun
      | ok _ =>
          have copied : (overwrite s 0 (window stream)).length = s.length :=
            overwrite_length (by omega)
          rw [← copied] at sized ⊢
          exact getspanLoop_beyond (List.length_pos_of_ne_nil nonempty) sized fuel

theorem atOnce_of_getspan (source : Source Device) (valid : Valid stream) {s text : Bytes}
    (sized : s.length < 2 ^ 63) {fuel : Nat}
    (returns : getspan source.toStream fuel stream s = .ok (.ok (), text, next)) :
    AtOnce source stream kStreamBufferSize s.length := by
  by_contra beyond
  obtain ⟨outside, later⟩ := not_or.1 beyond
  have short := Nat.lt_of_not_le outside
  by_cases empty : window stream = []
  · cases fuel with
    | zero => cases returns
    | succ fuel =>
        cases answer : source.rawRead stream.mRaw kStreamBufferSize with
        | mk reply device =>
            obtain ⟨result, refilled, filled, validNext, index, _, received⟩ :=
              refill_receives source valid.resetInput rfl rfl answer
            rw [getspan, getspanLoop_refill _ valid sized short _ filled] at returns
            cases received with
            | failed code => cases returns
            | ended => cases returns
            | filled nonempty stored =>
                have partly : (window refilled).length < s.length := by
                  rw [stored]
                  by_contra enough
                  exact later ⟨empty, _, device, answer, Nat.le_of_not_lt enough⟩
                rw [← stored] at nonempty
                rw [empty] at returns
                have again : getspanLoop source.toStream s.length fuel refilled s 0
                    refilled.mInIndex = .ok (.ok (), text, next) := by
                  rw [index]
                  exact returns
                exact getspanLoop_short source validNext sized nonempty partly fuel again
  · exact getspanLoop_short source valid sized empty short fuel returns

/-- getspan and getstruct succeed just on bytes that come at once. -/
theorem getspan_takes_iff (source : Source Device) (stream : BorrowedStream Device)
    (valid : Valid stream) (s : Bytes) (sized : s.length < 2 ^ 63) {fuel : Nat}
    (enough : 2 ≤ fuel) :
    (TakesNext source stream s.length (getspan source.toStream fuel stream s) ↔
        AtOnce source stream kStreamBufferSize s.length) ∧
      (TakesNext source stream s.length (getstruct source.toStream fuel stream s) ↔
        AtOnce source stream kStreamBufferSize s.length) := by
  have same : TakesNext source stream s.length (getspan source.toStream fuel stream s) ↔
      AtOnce source stream kStreamBufferSize s.length := by
    constructor
    · intro takes
      obtain ⟨next, returns, _⟩ := takes
      exact atOnce_of_getspan source valid sized returns
    · exact getspan_takes source valid sized enough
  exact ⟨same, same⟩

theorem getspan_takes_iff_three :
    TakesNext (stepwise 3) (fresh [1, 2, 3, 4, 5]) 3
        (getspan (stepwise 3).toStream 2 (fresh [1, 2, 3, 4, 5]) [0, 0, 0]) ∧
      TakesNext (stepwise 3) (fresh [1, 2, 3, 4, 5]) 3
        (getstruct (stepwise 3).toStream 2 (fresh [1, 2, 3, 4, 5]) [0, 0, 0]) := by
  have atOnce : AtOnce (stepwise 3) (fresh [1, 2, 3, 4, 5]) kStreamBufferSize 3 :=
    .inr ⟨rfl, [1, 2, 3, 4], [5], rfl, by decide⟩
  obtain ⟨span, struct⟩ := getspan_takes_iff (stepwise 3) (fresh [1, 2, 3, 4, 5]) (Valid.fresh _)
    [0, 0, 0] (by decide) (Nat.le_refl 2)
  exact ⟨span.2 atOnce, struct.2 atOnce⟩

/-- Four bytes that arrive in twos: they remain, and getspan never stores them. -/
theorem getspan_straddles :
    remaining (stepwise 1) (fresh [1, 2, 3, 4]) = [1, 2, 3, 4] ∧
      ∀ fuel, ¬TakesNext (stepwise 1) (fresh [1, 2, 3, 4]) 4
        (getspan (stepwise 1).toStream fuel (fresh [1, 2, 3, 4]) [0, 0, 0, 0]) := by
  constructor
  · rfl
  · intro fuel takes
    obtain ⟨next, returns, _⟩ := takes
    have atOnce : AtOnce (stepwise 1) (fresh [1, 2, 3, 4]) kStreamBufferSize 4 :=
      atOnce_of_getspan (stepwise 1) (Valid.fresh _) (by decide) returns
    rcases atOnce with inside | ⟨_, bytes, device, answer, delivered⟩
    · cases inside
    · have two : bytes = [1, 2] := by
        cases answer
        rfl
      rw [two] at delivered
      exact absurd delivered (by decide)

/-! ### peekn -/

theorem peeknLoop_buffered (raw : Stream Device) (valid : Valid stream) (s : Bytes) {n : Nat}
    (inside : n ≤ (window stream).length) (fuel : Nat) :
    peeknLoop raw n (fuel + 1) stream s = .ok (.ok (), s ++ (window stream).take n, stream) := by
  have length := window_length valid
  rw [peeknLoop, if_neg (by omega), window_read valid inside]
  rfl

theorem peeknLoop_refill (raw : Stream Device) (valid : Valid stream) (s : Bytes) {n : Nat}
    (short : (window stream).length < n) {result : Expected Unit} (fuel : Nat) :
    fillbuf raw stream = .ok (result, next) →
      peeknLoop raw n (fuel + 1) stream s =
        match result with
        | .error code => .ok (.error code, s, next)
        | .ok () => peeknLoop raw n fuel next s := by
  intro filled
  have length := window_length valid
  rw [peeknLoop, if_pos (by omega)]
  change (fillbuf raw stream).bind _ = _
  rw [filled]
  cases result <;> rfl

theorem peeknLoop_shrinks (source : Source Device) (valid : Valid stream)
    (allocated : stream.mInBuffer.mData ≠ none) {s text : Bytes} {n fuel : Nat}
    (returns : peeknLoop source.toStream n fuel stream s = .ok (.ok (), text, next)) :
    (remaining source next).length ≤ (remaining source stream).length := by
  induction fuel generalizing stream with
  | zero => cases returns
  | succ fuel ih =>
      by_cases inside : n ≤ (window stream).length
      · rw [peeknLoop_buffered source.toStream valid s inside] at returns
        cases returns
        exact Nat.le_refl _
      · cases answer : source.rawRead stream.mRaw (kStreamBufferSize - stream.mInIndex) with
        | mk reply device =>
            obtain ⟨result, filled, fills, validNext, kept, _, sameDevice, received⟩ :=
              fillbuf_receives source valid allocated answer
            rw [peeknLoop_refill source.toStream valid s (Nat.lt_of_not_le inside) fuel fills]
              at returns
            cases received with
            | failed code => cases returns
            | ended => cases returns
            | filled nonempty stored =>
                have later := ih validNext kept returns
                rw [remaining_filled answer stored sameDevice] at later
                rw [remaining_length source stream]
                exact Nat.le_add_left_of_le later

/-- A refill on top of bytes that are not consumed: they no longer remain. -/
theorem peeknLoop_loses (source : Source Device) (valid : Valid stream)
    (allocated : stream.mInBuffer.mData ≠ none) {s text : Bytes} {n fuel : Nat}
    (nonempty : window stream ≠ []) (short : (window stream).length < n)
    (returns : peeknLoop source.toStream n fuel stream s = .ok (.ok (), text, next)) :
    (remaining source next).length < (remaining source stream).length := by
  cases fuel with
  | zero => cases returns
  | succ fuel =>
      cases answer : source.rawRead stream.mRaw (kStreamBufferSize - stream.mInIndex) with
      | mk reply device =>
          obtain ⟨result, filled, fills, validNext, kept, _, sameDevice, received⟩ :=
            fillbuf_receives source valid allocated answer
          rw [peeknLoop_refill source.toStream valid s short fuel fills] at returns
          cases received with
          | failed code => cases returns
          | ended => cases returns
          | filled _ stored =>
              have later := peeknLoop_shrinks source validNext kept returns
              rw [remaining_filled answer stored sameDevice] at later
              have lost := List.length_pos_of_ne_nil nonempty
              rw [remaining_length source stream]
              omega

/-- The room behind the unread bytes when peekn starts its loop. -/
def peekRoom (stream : BorrowedStream Device) (n : Nat) : Nat :=
  if kStreamBufferSize - stream.mInIndex < n then kStreamBufferSize
  else kStreamBufferSize - stream.mInIndex

/-- peekn as its loop, on the stream with the unread bytes where they fit. -/
structure Opened (stream opened : BorrowedStream Device) (n : Nat) : Prop where
  valid : Valid opened
  allocated : opened.mInBuffer.mData ≠ none
  sameWindow : window opened = window stream
  sameDevice : opened.mRaw = stream.mRaw
  room : kStreamBufferSize - opened.mInIndex = peekRoom stream n

theorem compact_opened (valid : Valid stream) (allocated : stream.mInBuffer.mData ≠ none)
    {n : Nat} (tight : kStreamBufferSize - stream.mInIndex < n) :
    ∃ opened, stream.compact = .ok opened ∧ Opened stream opened n := by
  have size := valid.capacity.resolve_left allocated
  have length := window_length valid
  have bounded := valid.bounded
  obtain ⟨buffer, written, sameSize, block, stored, _⟩ :=
    BytesBuffer.write_eq (by omega : 0 + (window stream).length ≤ stream.mInBuffer.size)
  refine ⟨{ stream with
    mInBuffer := buffer
    mInIndex := 0
    mInEnd := stream.mInEnd - stream.mInIndex }, ?_, ?_⟩
  · unfold compact
    rw [BytesBuffer.read_eq valid.ordered valid.bounded]
    change (stream.mInBuffer.write 0 (window stream)).bind _ = _
    rw [written]
    rfl
  · constructor
    case valid =>
      constructor
      case ordered => exact Nat.zero_le _
      case bounded =>
        change stream.mInEnd - stream.mInIndex ≤ buffer.size
        omega
      case capacity => exact .inr (sameSize.trans size)
    case allocated => exact fun none => allocated (block.1 none)
    case sameWindow =>
      rw [Nat.zero_add, length] at stored
      exact stored
    case sameDevice => rfl
    case room => exact (if_pos tight).symm

theorem peekn_opened (raw : Stream Device) (valid : Valid stream)
    (allocated : stream.mInBuffer.mData ≠ none) (s : Bytes) {n : Nat}
    (small : n ≤ kStreamBufferSize) (fuel : Nat) :
    ∃ opened, peekn raw fuel stream s n = peeknLoop raw n fuel opened s ∧
      Opened stream opened n := by
  have size := valid.capacity.resolve_left allocated
  unfold peekn
  rw [size]
  by_cases tight : kStreamBufferSize - stream.mInIndex < n
  · obtain ⟨opened, compacts, opens⟩ := compact_opened valid allocated tight
    rw [if_pos tight, if_neg (by omega)]
    refine ⟨opened, ?_, opens⟩
    change stream.compact.bind _ = _
    rw [compacts]
    rfl
  · rw [if_neg tight]
    refine ⟨stream, rfl, ?_⟩
    constructor
    case valid => exact valid
    case allocated => exact allocated
    case sameWindow => rfl
    case sameDevice => rfl
    case room => exact (if_neg tight).symm

theorem peekn_buffered (raw : Stream Device) (valid : Valid stream) (s : Bytes) {n : Nat}
    (inside : n ≤ (window stream).length) (fuel : Nat) :
    peekn raw (fuel + 1) stream s n = .ok (.ok (), s ++ (window stream).take n, stream) := by
  have length := window_length valid
  have bounded := valid.bounded
  unfold peekn
  rw [if_neg (by omega)]
  exact peeknLoop_buffered raw valid s inside fuel

/-- What peekn leaves: the next `n` bytes behind `s`, and all of them still to be read. -/
def PeeksNext (source : Source Device) (stream : BorrowedStream Device) (s : Bytes) (n : Nat)
    (reply : Except BufferFault (TextReply Device)) : Prop :=
  ∃ next, reply = .ok (.ok (), s ++ (remaining source stream).take n, next) ∧
    remaining source next = remaining source stream ∧
    ∀ fuel, 0 < fuel →
      TakesNext source stream n (getn source.toStream fuel next [] n)

theorem PeeksNext.of_window (source : Source Device) (valid : Valid next) (s : Bytes) {n : Nat}
    (inside : n ≤ (window next).length)
    (same : remaining source next = remaining source stream) :
    PeeksNext source stream s n (.ok (.ok (), s ++ (window next).take n, next)) := by
  obtain ⟨taken, left⟩ := buffered_next source valid inside
  rw [same] at taken left
  refine ⟨next, ?_, same, ?_⟩
  · rw [taken]
  · intro fuel positive
    obtain ⟨fuel, rfl⟩ := Nat.exists_eq_add_of_le' positive
    refine ⟨_, ?_, left⟩
    rw [getn, getnLoop_buffered source.toStream valid [] inside, taken, List.nil_append]

theorem peekn_peeks (source : Source Device) (valid : Valid stream) (s : Bytes) {n : Nat}
    (small : n ≤ kStreamBufferSize) {fuel : Nat} (enough : 2 ≤ fuel)
    (allocated : n ≤ (window stream).length ∨ stream.mInBuffer.mData ≠ none)
    (atOnce : AtOnce source stream (peekRoom stream n) n) :
    PeeksNext source stream s n (peekn source.toStream fuel stream s n) := by
  obtain ⟨fuel, rfl⟩ := Nat.exists_eq_add_of_le' enough
  by_cases inside : n ≤ (window stream).length
  · rw [peekn_buffered source.toStream valid s inside]
    exact .of_window source valid s inside rfl
  · obtain ⟨empty, bytes, device, answer, delivered⟩ := atOnce.resolve_left inside
    obtain ⟨opened, same, opens⟩ :=
      peekn_opened source.toStream valid (allocated.resolve_left inside) s small (fuel + 2)
    rw [← opens.room, ← opens.sameDevice] at answer
    obtain ⟨result, filled, fills, validNext, _, _, sameDevice, received⟩ :=
      fillbuf_receives source opens.valid opens.allocated answer
    have short : (window opened).length < n := by
      rw [opens.sameWindow]
      exact Nat.lt_of_not_le inside
    rw [same, peeknLoop_refill source.toStream opens.valid s short (fuel + 1) fills]
    cases received with
    | ended =>
        rw [empty] at inside
        exact absurd delivered inside
    | filled nonempty stored =>
        have room : n ≤ (window filled).length := by
          rw [stored]
          exact delivered
        have left : remaining source filled = remaining source stream := by
          rw [remaining_filled answer stored sameDevice, remaining, empty, opens.sameDevice]
          rfl
        dsimp only
        rw [peeknLoop_buffered source.toStream validNext s room]
        exact .of_window source validNext s room left

theorem atOnce_of_peekn (source : Source Device) (valid : Valid stream) {s text : Bytes}
    {n : Nat} (small : n ≤ kStreamBufferSize) {fuel : Nat}
    (returns : peekn source.toStream fuel stream s n = .ok (.ok (), text, next))
    (same : remaining source next = remaining source stream) :
    (n ≤ (window stream).length ∨ stream.mInBuffer.mData ≠ none) ∧
      AtOnce source stream (peekRoom stream n) n := by
  by_cases inside : n ≤ (window stream).length
  · exact ⟨.inl inside, .inl inside⟩
  have allocated : stream.mInBuffer.mData ≠ none := by
    intro unallocated
    have noSize : stream.mInBuffer.size = 0 := by
      unfold BytesBuffer.size BytesBuffer.data
      rw [unallocated]
      rfl
    unfold peekn at returns
    rw [noSize, if_pos (by omega), if_pos (by omega)] at returns
    cases returns
  refine ⟨.inr allocated, ?_⟩
  obtain ⟨opened, loop, opens⟩ := peekn_opened source.toStream valid allocated s small fuel
  have sameBefore : remaining source opened = remaining source stream := by
    unfold remaining
    rw [opens.sameWindow, opens.sameDevice]
  have short : (window opened).length < n := by
    rw [opens.sameWindow]
    exact Nat.lt_of_not_le inside
  rw [loop] at returns
  by_cases empty : window stream = []
  · cases fuel with
    | zero => cases returns
    | succ fuel =>
        cases answer : source.rawRead opened.mRaw (kStreamBufferSize - opened.mInIndex) with
        | mk reply device =>
            obtain ⟨result, filled, fills, validNext, kept, _, sameDevice, received⟩ :=
              fillbuf_receives source opens.valid opens.allocated answer
            rw [peeknLoop_refill source.toStream opens.valid s short fuel fills] at returns
            cases received with
            | failed code => cases returns
            | ended => cases returns
            | filled nonempty stored =>
                rw [opens.room, opens.sameDevice] at answer
                right
                refine ⟨empty, _, device, answer, ?_⟩
                by_contra beyond
                rw [← stored] at nonempty beyond
                have lost := peeknLoop_loses source validNext kept nonempty
                  (Nat.lt_of_not_le beyond) returns
                have before : remaining source filled = remaining source stream := by
                  rw [remaining_filled answer stored sameDevice, remaining, empty]
                  rfl
                rw [same, before] at lost
                exact absurd lost (Nat.lt_irrefl _)
  · rw [← opens.sameWindow] at empty
    have lost := peeknLoop_loses source opens.valid opens.allocated empty short returns
    rw [same, sameBefore] at lost
    exact absurd lost (Nat.lt_irrefl _)

/-- peekn peeks just at bytes that come at once, once the buffer is allocated. -/
theorem peekn_peeks_iff (source : Source Device) (stream : BorrowedStream Device)
    (valid : Valid stream) (s : Bytes) (n : Nat) (small : n ≤ kStreamBufferSize) {fuel : Nat}
    (enough : 2 ≤ fuel) :
    PeeksNext source stream s n (peekn source.toStream fuel stream s n) ↔
      (n ≤ (window stream).length ∨ stream.mInBuffer.mData ≠ none) ∧
        AtOnce source stream (peekRoom stream n) n := by
  constructor
  · intro peeks
    obtain ⟨next, returns, same, _⟩ := peeks
    exact atOnce_of_peekn source valid small returns same
  · intro condition
    exact peekn_peeks source valid s small enough condition.1 condition.2

theorem peekn_peeks_iff_two :
    PeeksNext (stepwise 3) ((fresh [1, 2, 3]).allocinbuf kStreamBufferSize) [7] 2
        (peekn (stepwise 3).toStream 2 ((fresh [1, 2, 3]).allocinbuf kStreamBufferSize) [7] 2) := by
  apply (peekn_peeks_iff (stepwise 3) _ (Valid.fresh [1, 2, 3]).allocinbuf [7] 2 (by decide)
    (by decide)).2
  exact ⟨.inr nofun, .inr ⟨rfl, [1, 2, 3], [], rfl, by decide⟩⟩

/-- A stream that is not allocated yet, and bytes that arrive in twos. -/
theorem peekn_misses :
    (∀ fuel, ¬PeeksNext (stepwise 1) (fresh [1, 2, 3, 4]) [] 1
      (peekn (stepwise 1).toStream fuel (fresh [1, 2, 3, 4]) [] 1)) ∧
    ∀ fuel, ¬PeeksNext (stepwise 1) ((fresh [1, 2, 3, 4]).allocinbuf kStreamBufferSize) [] 4
      (peekn (stepwise 1).toStream fuel
        ((fresh [1, 2, 3, 4]).allocinbuf kStreamBufferSize) [] 4) := by
  constructor
  · intro fuel peeks
    obtain ⟨next, returns, same, _⟩ := peeks
    obtain ⟨inside | allocated, _⟩ :=
      atOnce_of_peekn (stepwise 1) (Valid.fresh _) (by decide) returns same
    · cases inside
    · exact allocated rfl
  · intro fuel peeks
    obtain ⟨next, returns, same, _⟩ := peeks
    obtain ⟨_, inside | ⟨_, bytes, device, answer, delivered⟩⟩ :=
      atOnce_of_peekn (stepwise 1) (Valid.fresh _).allocinbuf (by decide) returns same
    · cases inside
    · have two : bytes = [1, 2] := by
        cases answer
        rfl
      rw [two] at delivered
      exact absurd delivered (by decide)

end MCoro.StreamReads
