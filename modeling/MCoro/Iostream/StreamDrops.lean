/-
Dropping bytes of the input.

dropn leaves off after the bytes it was asked to drop as long as its end index does
not wrap. Where it wraps, the index lands before the place it started from, and
bytes that were read once are read again.
-/

import MCoro.Iostream.StreamReadRuns

namespace MCoro.StreamReads

open Segments
open BorrowedStream

variable {Device : Type} {source : Source Device} {stream next : BorrowedStream Device}

/-- How a call ends that drops `n` of the bytes `before` it, and the stream it leaves.
A call that fails has used up what was buffered and what the device delivered. -/
inductive Dropped (source : Source Device) (n : Nat) (before : Bytes)
    (next : BorrowedStream Device) : Expected Unit → Prop
  | removed (taken : Bytes) (exact : taken.length = n)
      (split : before = taken ++ remaining source next) : Dropped source n before next (.ok ())
  | short (code : ErrorCode) (taken : Bytes) (fewer : taken.length < n)
      (split : before = taken ++ remaining source next) (used : window next = [])
      (atEnd : code = .eofError → remaining source next = [])
      (reported : code ≠ .eofError →
        ∃ device span, source.rawRead device span = (.error code, next.mRaw)) :
      Dropped source n before next (.error code)

theorem Dropped.behind {front before : Bytes} {n : Nat} {result : Expected Unit}
    (short : front.length < n) (dropped : Dropped source (n - front.length) before next result) :
    Dropped source n (front ++ before) next result := by
  cases dropped with
  | removed taken exact split =>
      apply Dropped.removed (front ++ taken)
      · rw [List.length_append]
        omega
      · rw [split, List.append_assoc]
  | short code taken fewer split used atEnd reported =>
      apply Dropped.short code (front ++ taken)
      · rw [List.length_append]
        omega
      · rw [split, List.append_assoc]
      · exact used
      · exact atEnd
      · exact reported

theorem Refill.dropped {before : Bytes} {code : ErrorCode} {n : Nat} (some : 0 < n)
    (used : window next = []) (refill : Refill source before next (.error code)) :
    Dropped source n before next (.error code) := by
  cases refill with
  | ended nothing still =>
      apply Dropped.short _ [] some
      · rw [nothing, still]
        rfl
      · exact used
      · intro _
        exact still
      · intro notEnd
        exact absurd rfl notEnd
  | failed code notEnd reported same =>
      apply Dropped.short _ [] some
      · rw [same]
        rfl
      · exact used
      · intro atEnd
        exact absurd atEnd notEnd
      · intro _
        exact reported

theorem fillbuf_failed (source : Source Device) (valid : Valid stream)
    {code : ErrorCode} (index : stream.mInIndex = 0) (stop : stream.mInEnd = 0)
    (filled : fillbuf source.toStream stream = .ok (.error code, next)) : window next = [] := by
  cases answer : source.rawRead stream.mRaw kStreamBufferSize with
  | mk reply device =>
      obtain ⟨result, refilled, fills, _, indexNext, _, received⟩ :=
        refill_receives source valid index stop answer
      cases fills.symm.trans filled
      cases received with
      | failed code kept => exact window_nil (indexNext.trans kept.symm)
      | ended kept => exact window_nil (indexNext.trans kept.symm)

theorem dropnLoop_buffered (raw : Stream Device) (valid : Valid stream) {n : Nat}
    (inside : n ≤ (window stream).length) (fuel : Nat) :
    dropnLoop raw (fuel + 1) stream n stream.mInIndex = .ok (.ok (), stream.seenbuf n) := by
  have length := window_length valid
  have ordered := valid.ordered
  have bounded := valid.bounded
  have size := valid.size_le
  have sized : n < 2 ^ 63 := by
    unfold kStreamBufferSize at size
    omega
  rw [dropnLoop, stop_eq valid sized]
  exact if_pos (by omega : stream.mInIndex + n ≤ stream.mInEnd)

theorem dropnLoop_refill (raw : Stream Device) (valid : Valid stream) {n : Nat}
    (bound : stream.mInIndex + n < 2 ^ 64) (short : (window stream).length < n)
    {result : Expected Unit} (fuel : Nat) :
    fillbuf raw stream.resetInput = .ok (result, next) →
      dropnLoop raw (fuel + 1) stream n stream.mInIndex =
        match result with
        | .error code => .ok (.error code, next)
        | .ok () => dropnLoop raw fuel next (n - (window stream).length) 0 := by
  intro filled
  have ordered := valid.ordered
  have length := window_length valid
  rw [dropnLoop, Nat.mod_eq_of_lt bound]
  change (if stream.mInIndex + n ≤ stream.mInEnd then _ else _) = _
  rw [if_neg (by omega)]
  change (fillbuf raw stream.resetInput).bind _ = _
  rw [filled, length]
  cases result <;> rfl

/-- The induction is on the fuel; each refill takes at least one byte off the device. -/
theorem dropnLoop_drops (source : Source Device) (valid : Valid stream) (n : Nat)
    (bound : stream.mInIndex + n < 2 ^ 64) (fuel : Nat)
    (enough : (source.pending stream.mRaw).length < fuel) :
    ∃ result next,
      dropnLoop source.toStream fuel stream n stream.mInIndex = .ok (result, next) ∧
        Valid next ∧ Dropped source n (remaining source stream) next result := by
  induction fuel generalizing stream n with
  | zero => omega
  | succ fuel ih =>
      by_cases inside : n ≤ (window stream).length
      · obtain ⟨validNext, split⟩ := remaining_seenbuf source valid inside
        refine ⟨.ok (), _, dropnLoop_buffered _ valid inside fuel, validNext, ?_⟩
        apply Dropped.removed ((window stream).take n) _ split
        rw [List.length_take]
        exact Nat.min_eq_left inside
      · have short := Nat.lt_of_not_le inside
        obtain ⟨result, refilled, filled, validRefilled, index, refill, shorter⟩ :=
          fillbuf_refill source valid.resetInput rfl rfl
        rw [dropnLoop_refill source.toStream valid bound short fuel filled]
        cases result with
        | error code =>
            have used := fillbuf_failed source valid.resetInput rfl rfl filled
            have dropped := refill.dropped (by omega : 0 < n - (window stream).length) used
            exact ⟨.error code, refilled, rfl, validRefilled, dropped.behind short⟩
        | ok _ =>
            cases refill with
            | filled nonempty same =>
                have less : _ < (source.pending stream.mRaw).length := shorter rfl
                obtain ⟨result, next, done, validNext, dropped⟩ :=
                  ih validRefilled (n - (window stream).length) (by omega) (by omega)
                rw [index] at done
                rw [same] at dropped
                exact ⟨result, next, done, validNext, dropped.behind short⟩

theorem dropn_wraps (raw : Stream Device) (valid : Valid stream) {n : Nat} (sized : n < 2 ^ 64)
    (wraps : 2 ^ 64 ≤ stream.mInIndex + n) (fuel : Nat) :
    ∃ index, index < stream.mInIndex ∧
      dropn raw (fuel + 1) stream n = .ok (.ok (), { stream with mInIndex := index }) := by
  have ordered := valid.ordered
  have size := valid.size_le
  have bounded := valid.bounded
  unfold kStreamBufferSize at size
  have stop : (stream.mInIndex + n) % 2 ^ 64 = stream.mInIndex + n - 2 ^ 64 := by
    rw [Nat.mod_eq_sub_mod wraps]
    apply Nat.mod_eq_of_lt
    omega
  refine ⟨stream.mInIndex + n - 2 ^ 64, by omega, ?_⟩
  rw [dropn, dropnLoop, stop]
  exact if_pos (by omega : stream.mInIndex + n - 2 ^ 64 ≤ stream.mInEnd)

theorem remaining_back (source : Source Device) (valid : Valid stream) {index : Nat}
    (back : index < stream.mInIndex) :
    (remaining source stream).length <
      (remaining source { stream with mInIndex := index }).length := by
  have ordered := valid.ordered
  have bounded := valid.bounded
  have validBack : Valid { stream with mInIndex := index } :=
    ⟨Nat.le_trans (Nat.le_of_lt back) ordered, bounded, valid.capacity⟩
  have length := window_length valid
  have lengthBack : _ = stream.mInEnd - index := window_length validBack
  have whole := remaining_length source stream
  have wholeBack : _ = _ + (source.pending stream.mRaw).length :=
    remaining_length source { stream with mInIndex := index }
  omega

/-- dropn drops what it is asked to drop just when its end index does not wrap. -/
theorem dropn_drops_iff (source : Source Device) (stream : BorrowedStream Device)
    (valid : Valid stream) (n : Nat) (sized : n < 2 ^ 64) (fuel : Nat)
    (enough : (source.pending stream.mRaw).length < fuel) :
    (∃ result next, dropn source.toStream fuel stream n = .ok (result, next) ∧ Valid next ∧
        Dropped source n (remaining source stream) next result) ↔
      stream.mInIndex + n < 2 ^ 64 := by
  constructor
  · intro drops
    obtain ⟨result, next, done, _, dropped⟩ := drops
    by_contra wraps
    obtain ⟨fuel, rfl⟩ := Nat.exists_eq_succ_of_ne_zero (Nat.ne_zero_of_lt enough)
    obtain ⟨index, back, turned⟩ :=
      dropn_wraps source.toStream valid sized (Nat.le_of_not_lt wraps) fuel
    have more := remaining_back source valid back
    cases turned.symm.trans done
    cases dropped with
    | removed taken exact split =>
        have lengths := congrArg List.length split
        rw [List.length_append] at lengths
        omega
  · intro bound
    exact dropnLoop_drops source valid n bound fuel enough

theorem dropn_drops_iff_three :
    ∃ result next, dropn (stepwise 1).toStream 6 (fresh [1, 2, 3, 4, 5]) 3 = .ok (result, next) ∧
      Valid next ∧ Dropped (stepwise 1) 3 [1, 2, 3, 4, 5] next result :=
  (dropn_drops_iff (stepwise 1) (fresh [1, 2, 3, 4, 5]) (Valid.fresh _) 3 (by decide) 6
    (by decide)).2 (by decide)

def oneRead : BorrowedStream Bytes :=
  { mInBuffer := { mData := some (1 :: 2 :: List.replicate 8190 0) }
    mInIndex := 1
    mInEnd := 2
    mOutBuffer := {}
    mOutIndex := 0
    mRaw := [] }

/-- Dropping 2^64 - 1 bytes then succeeds, and the byte that was read comes back. -/
theorem dropn_turns_back :
    Valid oneRead ∧ remaining (stepwise 1) oneRead = [2] ∧
      dropn (stepwise 1).toStream 1 oneRead (2 ^ 64 - 1) =
        .ok (.ok (), { oneRead with mInIndex := 0 }) ∧
      remaining (stepwise 1) { oneRead with mInIndex := 0 } = [1, 2] ∧
      ¬Dropped (stepwise 1) (2 ^ 64 - 1) [2] { oneRead with mInIndex := 0 } (.ok ()) := by
  have size : oneRead.mInBuffer.size = kStreamBufferSize := by
    change (List.replicate 8190 (0 : UInt8)).length + 2 = 8192
    rw [List.length_replicate]
  have stop : (oneRead.mInIndex + (2 ^ 64 - 1)) % 2 ^ 64 = 0 := by decide
  have drops : dropn (stepwise 1).toStream 1 oneRead (2 ^ 64 - 1) =
      .ok (.ok (), { oneRead with mInIndex := 0 }) := by
    rw [dropn, dropnLoop, stop]
    rfl
  refine ⟨⟨by decide, ?_, .inr size⟩, rfl, drops, rfl, ?_⟩
  · rw [size]
    decide
  · intro dropped
    cases dropped with
    | removed taken exact split =>
        have lengths := congrArg List.length split
        have back : (remaining (stepwise 1) { oneRead with mInIndex := 0 }).length = 2 := rfl
        rw [List.length_append, back] at lengths
        cases lengths

end MCoro.StreamReads
