/-
The calls that refill the buffer in the middle of their work, and runs of calls.

Each loop is an induction on the fuel. A pass that finds the buffer used up
hands over to the call that is left to do, on the bytes that are left.
-/

import MCoro.Iostream.StreamReads

namespace MCoro.StreamReads

open Segments
open BorrowedStream

variable {Device : Type}

/-! ### What one pass of a loop leaves to do -/

section Loops

variable {source : Source Device} {stream next : BorrowedStream Device}

theorem Reading.Loops.suspends {reading : Reading} (loops : reading.Loops) :
    reading.Suspends := by
  cases reading <;> trivial

/-- After `front`, the call `reading` is the call `later`. -/
structure Leaves (reading : Reading) (front : Bytes) (later : Reading) : Prop where
  loops : reading.Loops
  shift : ∀ back, reading.onBytes (front ++ back) = later.onBytes back
  exact : ∀ back, later.onBytes back ≠ none
  stopped : ∀ taken code, later.interrupted taken code =
    reading.interrupted (front ++ taken) code

theorem Leaves.follows {reading later : Reading} {front back : Bytes} {answer : Answer}
    (leaves : Leaves reading front later) (follows : Follows source later back next answer) :
    Follows source reading (front ++ back) next answer := by
  cases follows with
  | exact answer same => exact .exact answer ((leaves.shift back).trans same)
  | chunk bytes free fits split => exact absurd free (leaves.exact back)
  | ended free suspends nothing still => exact absurd free (leaves.exact back)
  | interrupted code taken suspends notEnd reported kept split =>
      rw [leaves.stopped]
      apply Follows.interrupted code (front ++ taken) leaves.loops.suspends notEnd reported
      · intro loopless
        exact absurd leaves.loops loopless
      · rw [split, List.append_assoc]

theorem leaves_getline {eol : UInt8} {front : Bytes} (absent : cut eol front = none) (s : Bytes) :
    Leaves (.getline s eol) front (.getline (s ++ front) eol) where
  loops := trivial
  shift := by
    intro back
    unfold Reading.onBytes
    simp only [cut_append_of_none absent]
    cases cut eol back with
    | none => simp
    | some parts => simp
  exact := by
    intro back
    unfold Reading.onBytes
    simp only
    split <;> simp
  stopped := by
    intro taken code
    simp [Reading.interrupted]

theorem leaves_dropline {eol : UInt8} {front : Bytes} (absent : cut eol front = none) :
    Leaves (.dropline eol) front (.dropline eol) where
  loops := trivial
  shift := by
    intro back
    unfold Reading.onBytes
    simp only [cut_append_of_none absent]
    cases cut eol back <;> rfl
  exact := by
    intro back
    unfold Reading.onBytes
    simp only
    split <;> simp
  stopped := by
    intro taken code
    rfl

theorem leaves_getn {front : Bytes} {n : Nat} (short : front.length < n) (s : Bytes) :
    Leaves (.getn s n) front (.getn (s ++ front) (n - front.length)) where
  loops := trivial
  shift := by
    intro back
    unfold Reading.onBytes
    simp only [List.length_append]
    by_cases enough : n ≤ front.length + back.length
    · rw [if_pos enough, if_pos (by omega), List.take_append, List.drop_append,
        List.take_of_length_le (Nat.le_of_lt short), List.drop_eq_nil_of_le (Nat.le_of_lt short)]
      simp
    · rw [if_neg enough, if_neg (by omega), List.append_assoc]
  exact := by
    intro back
    unfold Reading.onBytes
    simp only
    split <;> simp
  stopped := by
    intro taken code
    simp [Reading.interrupted]

theorem leaves_getall (s front : Bytes) :
    Leaves (.getall s) front (.getall (s ++ front)) where
  loops := trivial
  shift := by
    intro back
    simp [Reading.onBytes]
  exact := by
    intro back
    simp [Reading.onBytes]
  stopped := by
    intro taken code
    simp [Reading.interrupted]

theorem leaves_dropall (front : Bytes) : Leaves .dropall front .dropall where
  loops := trivial
  shift := by
    intro back
    rfl
  exact := by
    intro back
    simp [Reading.onBytes]
  stopped := by
    intro taken code
    rfl

/-! ### The loops -/

theorem findEol_eq (buffer : BytesBuffer) (eol : UInt8) (i count : Nat)
    (bound : i + count ≤ buffer.size) :
    findEol buffer eol i count =
      .ok ((cut eol (slice buffer.data i (i + count))).map fun parts => i + parts.1.length) := by
  induction count generalizing i with
  | zero =>
      rw [Nat.add_zero, slice_self]
      rfl
  | succ count ih =>
      have inside : i < buffer.data.length := by
        change i + (count + 1) ≤ buffer.data.length at bound
        omega
      obtain ⟨c, found⟩ : ∃ c, buffer.data[i]? = some c := ⟨_, List.getElem?_eq_getElem inside⟩
      have got : buffer.get i = .ok c := by
        unfold BytesBuffer.get
        rw [found]
      have next := ih (i + 1) (by omega)
      rw [show i + 1 + count = i + (count + 1) by omega] at next
      rw [findEol, got, slice_cons (by omega) found, cut]
      change (if c = eol then _ else _) = _
      by_cases same : c = eol
      · rw [if_pos same, if_pos same]
        rfl
      · rw [if_neg same, if_neg same, next, Option.map_map]
        congr 2
        funext parts
        change i + 1 + parts.1.length = i + (parts.1.length + 1)
        omega

theorem findEol_window (valid : Valid stream) (eol : UInt8) :
    findEol stream.mInBuffer eol stream.mInIndex (stream.mInEnd - stream.mInIndex) =
      .ok ((cut eol (window stream)).map fun parts => stream.mInIndex + parts.1.length) := by
  have whole := Nat.add_sub_of_le valid.ordered
  rw [findEol_eq _ _ _ _ (by rw [whole]; exact valid.bounded), whole]
  rfl

theorem line_read (valid : Valid stream) {eol : UInt8} {line after : Bytes}
    (found : cut eol (window stream) = some (line, after)) :
    stream.mInBuffer.read stream.mInIndex (stream.mInIndex + line.length - stream.mInIndex) =
        .ok line ∧
      stream.mInIndex + line.length + 1 ≤ stream.mInEnd ∧
      window { stream with mInIndex := stream.mInIndex + line.length + 1 } = after := by
  have split : window stream = (line ++ [eol]) ++ after := by
    rw [eq_of_cut found, List.append_assoc]
    rfl
  have sizes := congrArg List.length split
  rw [window_length valid] at sizes
  simp only [List.length_append, List.length_singleton] at sizes
  have bounded := valid.bounded
  have lineEq : slice stream.mInBuffer.data stream.mInIndex (stream.mInIndex + line.length) =
      line := by
    rw [List.append_assoc] at split
    exact (slice_split split).1
  have rest : slice stream.mInBuffer.data (stream.mInIndex + line.length + 1) stream.mInEnd =
      after := by
    have behind := (slice_split split).2
    rw [List.length_append, List.length_singleton, ← Nat.add_assoc] at behind
    exact behind
  refine ⟨?_, by omega, rest⟩
  rw [BytesBuffer.read_eq (Nat.le_add_right _ _) (by omega), lineEq]

theorem line_found (source : Source Device) (valid : Valid stream) {eol : UInt8}
    {line after : Bytes} (found : cut eol (window stream) = some (line, after)) :
    stream.mInBuffer.read stream.mInIndex (stream.mInIndex + line.length - stream.mInIndex) =
        .ok line ∧
      Valid { stream with mInIndex := stream.mInIndex + line.length + 1 } ∧
      cut eol (remaining source stream) =
        some (line, remaining source { stream with mInIndex := stream.mInIndex + line.length + 1 }) := by
  obtain ⟨read, inside, rest⟩ := line_read valid found
  obtain ⟨validNext, _⟩ := remaining_advance source valid
    (by omega : stream.mInIndex ≤ stream.mInIndex + line.length + 1) inside
  refine ⟨read, validNext, ?_⟩
  unfold remaining
  rw [cut_append_of_some found, rest]

private theorem getlineLoop_refill (raw : Stream Device) (valid : Valid stream) {eol : UInt8}
    (absent : cut eol (window stream) = none) {result : Expected Unit} (s : Bytes) (fuel : Nat) :
    fillbuf raw stream.resetInput = .ok (result, next) → getlineLoop raw eol (fuel + 1) stream s stream.mInIndex =
      match result with
      | .error code => .ok (.error code, s ++ window stream, next)
      | .ok () => getlineLoop raw eol fuel next (s ++ window stream) 0 := by
  intro filled
  rw [getlineLoop, findEol_window valid, absent]
  change (stream.mInBuffer.read stream.mInIndex (stream.mInEnd - stream.mInIndex)).bind _ = _
  rw [BytesBuffer.read_eq valid.ordered valid.bounded]
  change (fillbuf raw stream.resetInput).bind _ = _
  rw [filled]
  cases result <;> rfl

theorem getlineLoop_follows (source : Source Device) (valid : Valid stream) (eol : UInt8)
    (s : Bytes) (fuel : Nat) (enough : (source.pending stream.mRaw).length < fuel) :
    ∃ result text next,
      getlineLoop source.toStream eol fuel stream s stream.mInIndex = .ok (result, text, next) ∧
        Valid next ∧
        Follows source (.getline s eol) (remaining source stream) next (.text text result) := by
  induction fuel generalizing stream s with
  | zero => omega
  | succ fuel ih =>
      cases found : cut eol (window stream) with
      | some parts =>
          obtain ⟨line, after⟩ := parts
          obtain ⟨read, validNext, cutEq⟩ := line_found source valid found
          refine ⟨.ok (), s ++ line, _, ?_, validNext, ?_⟩
          · rw [getlineLoop, findEol_window valid, found]
            change (stream.mInBuffer.read stream.mInIndex _).bind _ = _
            rw [read]
            rfl
          · apply Follows.exact
            unfold Reading.onBytes
            simp only [cutEq]
      | none =>
          obtain ⟨result, refilled, filled, validRefilled, index, refill, shorter⟩ :=
            fillbuf_refill source valid.resetInput rfl rfl
          have leaves := leaves_getline found s
          rw [getlineLoop_refill source.toStream valid found s fuel filled]
          cases result with
          | error code =>
              have stopped := leaves.follows (refill.error_follows trivial rfl)
              simp only [Reading.interrupted, List.append_nil] at stopped
              exact ⟨.error code, s ++ window stream, refilled, rfl, validRefilled, stopped⟩
          | ok _ =>
              cases refill with
              | filled nonempty same =>
                  have less : _ < (source.pending stream.mRaw).length := shorter rfl
                  obtain ⟨result, text, next, done, validNext, follows⟩ :=
                    ih validRefilled (s ++ window stream) (by omega)
                  rw [index] at done
                  rw [same] at follows
                  exact ⟨result, text, next, done, validNext, leaves.follows follows⟩

private theorem droplineLoop_refill (raw : Stream Device) (valid : Valid stream) {eol : UInt8}
    (absent : cut eol (window stream) = none) {result : Expected Unit} (fuel : Nat) :
    fillbuf raw stream.resetInput = .ok (result, next) → droplineLoop raw eol (fuel + 1) stream stream.mInIndex =
      match result with
      | .error code => .ok (.error code, next)
      | .ok () => droplineLoop raw eol fuel next 0 := by
  intro filled
  rw [droplineLoop, findEol_window valid, absent]
  change (fillbuf raw stream.resetInput).bind _ = _
  rw [filled]
  cases result <;> rfl

theorem droplineLoop_follows (source : Source Device) (valid : Valid stream) (eol : UInt8)
    (fuel : Nat) (enough : (source.pending stream.mRaw).length < fuel) :
    ∃ result next,
      droplineLoop source.toStream eol fuel stream stream.mInIndex = .ok (result, next) ∧
        Valid next ∧
        Follows source (.dropline eol) (remaining source stream) next (.done result) := by
  induction fuel generalizing stream with
  | zero => omega
  | succ fuel ih =>
      cases found : cut eol (window stream) with
      | some parts =>
          obtain ⟨line, after⟩ := parts
          obtain ⟨_, validNext, cutEq⟩ := line_found source valid found
          refine ⟨.ok (), _, ?_, validNext, ?_⟩
          · rw [droplineLoop, findEol_window valid, found]
            rfl
          · apply Follows.exact
            unfold Reading.onBytes
            simp only [cutEq]
      | none =>
          obtain ⟨result, refilled, filled, validRefilled, index, refill, shorter⟩ :=
            fillbuf_refill source valid.resetInput rfl rfl
          have leaves := leaves_dropline found
          rw [droplineLoop_refill source.toStream valid found fuel filled]
          cases result with
          | error code =>
              have stopped := leaves.follows (refill.error_follows trivial rfl)
              exact ⟨.error code, refilled, rfl, validRefilled, stopped⟩
          | ok _ =>
              cases refill with
              | filled nonempty same =>
                  have less : _ < (source.pending stream.mRaw).length := shorter rfl
                  obtain ⟨result, next, done, validNext, follows⟩ :=
                    ih validRefilled (by omega)
                  rw [index] at done
                  rw [same] at follows
                  exact ⟨result, next, done, validNext, leaves.follows follows⟩

/-- The end index of getn and getspan does not wrap. -/
theorem stop_eq (valid : Valid stream) {n : Nat} (sized : n < 2 ^ 63) :
    (stream.mInIndex + n) % 2 ^ 64 = stream.mInIndex + n := by
  have size := valid.size_le
  have ordered := valid.ordered
  have bounded := valid.bounded
  unfold kStreamBufferSize at size
  apply Nat.mod_eq_of_lt
  omega

theorem getnLoop_buffered (raw : Stream Device) (valid : Valid stream) (s : Bytes) {n : Nat}
    (inside : n ≤ (window stream).length) (fuel : Nat) :
    getnLoop raw (fuel + 1) stream s n stream.mInIndex =
      .ok (.ok (), s ++ (window stream).take n, stream.seenbuf n) := by
  have length := window_length valid
  have ordered := valid.ordered
  have bounded := valid.bounded
  have size := valid.size_le
  have sized : n < 2 ^ 63 := by
    unfold kStreamBufferSize at size
    omega
  rw [getnLoop, stop_eq valid sized]
  change (if stream.mInIndex + n ≤ stream.mInEnd then _ else _) = _
  rw [if_pos (by omega), window_read valid inside]
  rfl

private theorem getnLoop_refill (raw : Stream Device) (valid : Valid stream) {n : Nat}
    (sized : n < 2 ^ 63) (short : (window stream).length < n) {result : Expected Unit}
    (s : Bytes) (fuel : Nat) :
    fillbuf raw stream.resetInput = .ok (result, next) → getnLoop raw (fuel + 1) stream s n stream.mInIndex =
      match result with
      | .error code => .ok (.error code, s ++ window stream, next)
      | .ok () => getnLoop raw fuel next (s ++ window stream) (n - (window stream).length) 0 := by
  intro filled
  have ordered := valid.ordered
  have length := window_length valid
  rw [getnLoop, stop_eq valid sized]
  change (if stream.mInIndex + n ≤ stream.mInEnd then _ else _) = _
  rw [if_neg (by omega)]
  change (stream.mInBuffer.read stream.mInIndex (stream.mInEnd - stream.mInIndex)).bind _ = _
  rw [BytesBuffer.read_eq valid.ordered valid.bounded]
  change (fillbuf raw stream.resetInput).bind _ = _
  rw [filled, length]
  cases result <;> rfl

theorem getnLoop_follows (source : Source Device) (valid : Valid stream) (s : Bytes) (n : Nat)
    (sized : n < 2 ^ 63) (fuel : Nat) (enough : (source.pending stream.mRaw).length < fuel) :
    ∃ result text next,
      getnLoop source.toStream fuel stream s n stream.mInIndex = .ok (result, text, next) ∧
        Valid next ∧
        Follows source (.getn s n) (remaining source stream) next (.text text result) := by
  induction fuel generalizing stream s n with
  | zero => omega
  | succ fuel ih =>
      by_cases inside : n ≤ (window stream).length
      · obtain ⟨taken, left⟩ := buffered_next source valid inside
        have validNext := (remaining_seenbuf source valid inside).1
        have enough := remaining_length source stream
        refine ⟨.ok (), _, _, getnLoop_buffered source.toStream valid s inside fuel, validNext, ?_⟩
        apply Follows.exact
        rw [taken, left]
        exact if_pos (by omega)
      · obtain ⟨result, refilled, filled, validRefilled, index, refill, shorter⟩ :=
          fillbuf_refill source valid.resetInput rfl rfl
        have leaves := leaves_getn (Nat.lt_of_not_le inside) s
        rw [getnLoop_refill source.toStream valid sized (Nat.lt_of_not_le inside) s fuel filled]
        cases result with
        | error code =>
            have atEnd : (Reading.getn (s ++ window stream) (n - (window stream).length)).onBytes [] =
                some (.text (s ++ window stream ++ []) (.error .eofError), []) :=
              if_neg (by rw [List.length_nil]; omega)
            have stopped := leaves.follows (refill.error_follows trivial atEnd)
            simp only [Reading.interrupted, List.append_nil] at stopped
            exact ⟨.error code, s ++ window stream, refilled, rfl, validRefilled, stopped⟩
        | ok _ =>
            cases refill with
            | filled nonempty same =>
                have less : _ < (source.pending stream.mRaw).length := shorter rfl
                obtain ⟨result, text, next, done, validNext, follows⟩ :=
                  ih validRefilled (s ++ window stream) (n - (window stream).length) (by omega)
                    (by omega)
                rw [index] at done
                rw [same] at follows
                exact ⟨result, text, next, done, validNext, leaves.follows follows⟩

theorem getallLoop_follows (source : Source Device) (valid : Valid stream) (s : Bytes)
    (fuel : Nat) (enough : (source.pending stream.mRaw).length < fuel) :
    ∃ result text next,
      getallLoop source.toStream fuel stream s stream.mInIndex = .ok (result, text, next) ∧
        Valid next ∧
        Follows source (.getall s) (remaining source stream) next (.text text result) := by
  induction fuel generalizing stream s with
  | zero => omega
  | succ fuel ih =>
      obtain ⟨result, refilled, filled, validRefilled, index, refill, shorter⟩ :=
        fillbuf_refill source valid.resetInput rfl rfl
      have leaves := leaves_getall s (window stream)
      rw [getallLoop_pass (BytesBuffer.read_eq valid.ordered valid.bounded) filled]
      cases refill with
      | filled nonempty same =>
          have less : _ < (source.pending stream.mRaw).length := shorter rfl
          obtain ⟨result, text, next, done, validNext, follows⟩ :=
            ih validRefilled (s ++ window stream) (by omega)
          rw [index] at done
          rw [same] at follows
          exact ⟨result, text, next, done, validNext, leaves.follows follows⟩
      | ended nothing still =>
          have finished : Follows source (.getall (s ++ window stream)) [] refilled
              (.text (s ++ window stream) (.ok ())) := by
            apply Follows.exact
            rw [still]
            simp [Reading.onBytes]
          rw [← nothing] at finished
          exact ⟨.ok (), s ++ window stream, refilled, rfl, validRefilled, leaves.follows finished⟩
      | failed code notEnd reported same =>
          have stopped := leaves.follows
            (.interrupted code [] trivial notEnd reported (fun _ => rfl) same.symm)
          simp only [Reading.interrupted, List.append_nil] at stopped
          refine ⟨.error code, s ++ window stream, refilled, ?_, validRefilled, stopped⟩
          simp [more, Expected.transform, Expected.orElse, notEnd, window]

theorem dropall_follows (source : Source Device) (valid : Valid stream) (fuel : Nat)
    (enough : (source.pending stream.mRaw).length < fuel) :
    ∃ result next, dropall source.toStream fuel stream = .ok (result, next) ∧ Valid next ∧
      Follows source .dropall (remaining source stream) next (.done result) := by
  induction fuel generalizing stream with
  | zero => omega
  | succ fuel ih =>
      obtain ⟨result, refilled, filled, validRefilled, index, refill, shorter⟩ :=
        fillbuf_refill source valid.resetInput rfl rfl
      have leaves := leaves_dropall (window stream)
      rw [dropall_pass filled]
      cases refill with
      | filled nonempty same =>
          have less : _ < (source.pending stream.mRaw).length := shorter rfl
          obtain ⟨result, next, done, validNext, follows⟩ := ih validRefilled (by omega)
          rw [same] at follows
          exact ⟨result, next, done, validNext, leaves.follows follows⟩
      | ended nothing still =>
          have finished : Follows source .dropall [] refilled (.done (.ok ())) := by
            apply Follows.exact
            rw [still]
            rfl
          rw [← nothing] at finished
          exact ⟨.ok (), refilled, rfl, validRefilled, leaves.follows finished⟩
      | failed code notEnd reported same =>
          have stopped := leaves.follows
            (.interrupted code [] trivial notEnd reported (fun _ => rfl) same.symm)
          refine ⟨.error code, refilled, ?_, validRefilled, stopped⟩
          simp [more, Expected.transform, Expected.orElse, notEnd]

theorem perform_follows (source : Source Device) (valid : Valid stream) (reading : Reading)
    (sized : reading.Sized) (fuel : Nat) (enough : (remaining source stream).length < fuel) :
    ∃ answer next, reading.perform source.toStream fuel stream = .ok (answer, next) ∧ Valid next ∧
      Follows source reading (remaining source stream) next answer := by
  have enoughPending : (source.pending stream.mRaw).length < fuel := by
    unfold remaining at enough
    rw [List.length_append] at enough
    omega
  cases reading with
  | getchar =>
      obtain ⟨result, next, done, validNext, follows⟩ := getchar_follows source valid
      refine ⟨_, next, ?_, validNext, follows⟩
      rw [Reading.perform, done]
      rfl
  | peekchar =>
      obtain ⟨result, next, done, validNext, follows⟩ := peekchar_follows source valid
      refine ⟨_, next, ?_, validNext, follows⟩
      rw [Reading.perform, done]
      rfl
  | getline s eol =>
      obtain ⟨result, text, next, done, validNext, follows⟩ :=
        getlineLoop_follows source valid eol s fuel enoughPending
      refine ⟨_, next, ?_, validNext, follows⟩
      rw [Reading.perform, getline, done]
      rfl
  | dropline eol =>
      obtain ⟨result, next, done, validNext, follows⟩ :=
        droplineLoop_follows source valid eol fuel enoughPending
      refine ⟨_, next, ?_, validNext, follows⟩
      rw [Reading.perform, dropline, done]
      rfl
  | getn s n =>
      obtain ⟨result, text, next, done, validNext, follows⟩ :=
        getnLoop_follows source valid s n sized fuel enoughPending
      refine ⟨_, next, ?_, validNext, follows⟩
      rw [Reading.perform, getn, done]
      rfl
  | getall s =>
      obtain ⟨result, text, next, done, validNext, follows⟩ :=
        getallLoop_follows source valid s fuel enoughPending
      refine ⟨_, next, ?_, validNext, follows⟩
      rw [Reading.perform, getall, done]
      rfl
  | dropall =>
      obtain ⟨result, next, done, validNext, follows⟩ :=
        dropall_follows source valid fuel enoughPending
      refine ⟨_, next, ?_, validNext, follows⟩
      rw [Reading.perform, done]
      rfl
  | getchunk =>
      obtain ⟨result, next, done, validNext, follows⟩ := getchunk_follows source valid
      refine ⟨_, next, ?_, validNext, follows⟩
      rw [Reading.perform, done]
      rfl
  | tryread length =>
      obtain ⟨bytes, next, done, validNext, follows⟩ := tryread_follows source valid length
      refine ⟨_, next, ?_, validNext, follows⟩
      rw [Reading.perform, done]
      rfl
  | read length =>
      obtain ⟨result, next, done, validNext, follows⟩ := read_follows source valid length
      refine ⟨_, next, ?_, validNext, follows⟩
      rw [Reading.perform, done]
      rfl

end Loops

/-! ### Runs -/

def run (raw : Stream Device) (fuel : Nat) (stream : BorrowedStream Device) :
    List Reading → Except BufferFault (List Answer × BorrowedStream Device)
  | [] => .ok ([], stream)
  | reading :: rest => do
      let (answer, stream) ← reading.perform raw fuel stream
      let (answers, stream) ← run raw fuel stream rest
      return (answer :: answers, stream)

namespace Answer

def error? : Answer → Option ErrorCode
  | char (.error code) | text _ (.error code) | done (.error code) | chunk (.error code) =>
      some code
  | _ => none

/-- The device failed in the call; reaching the end of the data is no failure. -/
def Failed (answer : Answer) : Prop :=
  ∃ code, answer.error? = some code ∧ code ≠ .eofError

/-- How many bytes getchunk, tryread or read took. -/
def chunkLength : Answer → Option Nat
  | chunk (.ok bytes) => some bytes.length
  | _ => none

end Answer

section Runs

variable {source : Source Device} {stream next : BorrowedStream Device} {reading : Reading}
  {before : Bytes} {answer : Answer}

theorem Follows.failed {code : ErrorCode} (notEnd : code ≠ .eofError) (taken : Bytes) :
    (reading.interrupted taken code).Failed := by
  refine ⟨code, ?_, notEnd⟩
  cases reading <;> rfl

theorem onBytes_suffix {rest : Bytes} (done : reading.onBytes before = some (answer, rest)) :
    rest <:+ before := by
  cases reading with
  | getchar | peekchar =>
      cases before with
      | nil =>
          cases done
          exact List.suffix_refl []
      | cons c bytes =>
          cases done
          simp
  | getline s eol | dropline eol =>
      unfold Reading.onBytes at done
      cases found : cut eol before with
      | none =>
          simp only [found] at done
          cases done
          exact List.nil_suffix
      | some parts =>
          simp only [found] at done
          cases done
          rw [eq_of_cut found]
          exact ⟨parts.1 ++ [eol], by simp⟩
  | getn s n =>
      unfold Reading.onBytes at done
      simp only at done
      by_cases inside : n ≤ before.length
      · rw [if_pos inside] at done
        cases done
        exact List.drop_suffix n before
      · rw [if_neg inside] at done
        cases done
        exact List.nil_suffix
  | getall s | dropall =>
      cases done
      exact List.nil_suffix
  | getchunk | tryread length | read length => cases done

/-- Nothing comes back: what remains is a suffix of what remained. -/
theorem Follows.suffix (follows : Follows source reading before next answer) :
    remaining source next <:+ before := by
  cases follows with
  | exact answer same => exact onBytes_suffix same
  | chunk bytes free fits split => exact ⟨bytes, split.symm⟩
  | ended free suspends nothing still =>
      rw [still]
      exact List.nil_suffix
  | interrupted code taken suspends notEnd reported kept split => exact ⟨taken, split.symm⟩

/-- The bytes and the length of a chunk decide the answer and what is left,
whatever the device and the state of the buffer. -/
theorem Follows.unique {Device' : Type} {source' : Source Device'}
    {next' : BorrowedStream Device'} {answer' : Answer}
    (follows : Follows source reading before next answer)
    (follows' : Follows source' reading before next' answer') (whole : ¬answer.Failed)
    (whole' : ¬answer'.Failed) (sameLength : answer.chunkLength = answer'.chunkLength) :
    answer = answer' ∧ remaining source next = remaining source' next' := by
  cases follows with
  | interrupted code taken suspends notEnd reported kept split =>
      exact absurd (Follows.failed notEnd taken) whole
  | exact answer same =>
      cases follows' with
      | interrupted code taken suspends notEnd reported kept split =>
          exact absurd (Follows.failed notEnd taken) whole'
      | exact answer' same' =>
          have both := Option.some.inj (same.symm.trans same')
          exact ⟨congrArg Prod.fst both, congrArg Prod.snd both⟩
      | chunk bytes free fits split => rw [free] at same; cases same
      | ended free suspends nothing still => rw [free] at same; cases same
  | chunk bytes free fits split =>
      cases follows' with
      | interrupted code taken suspends notEnd reported kept split =>
          exact absurd (Follows.failed notEnd taken) whole'
      | exact answer' same' => rw [free] at same'; cases same'
      | chunk bytes' free' fits' split' =>
          have lengths : bytes.length = bytes'.length := Option.some.inj sameLength
          obtain ⟨sameBytes, sameRest⟩ := List.append_inj (split.symm.trans split') lengths
          rw [sameBytes]
          exact ⟨rfl, sameRest⟩
      | ended free' suspends nothing still => cases sameLength
  | ended free suspends nothing still =>
      cases follows' with
      | interrupted code taken suspends notEnd reported kept split =>
          exact absurd (Follows.failed notEnd taken) whole'
      | exact answer' same' => rw [free] at same'; cases same'
      | chunk bytes' free' fits' split' => cases sameLength
      | ended free' suspends' nothing' still' => exact ⟨rfl, still.trans still'.symm⟩

/-- The run lemma: a run ends in a valid stream, and shows a contract for each call. -/
theorem run_valid (source : Source Device) (valid : Valid stream) (readings : List Reading)
    (sized : ∀ reading ∈ readings, reading.Sized) (fuel : Nat)
    (enough : (remaining source stream).length < fuel) :
    ∃ answers last, run source.toStream fuel stream readings = .ok (answers, last) ∧
      Valid last ∧ (remaining source last).length < fuel := by
  induction readings generalizing stream with
  | nil => exact ⟨[], stream, rfl, valid, enough⟩
  | cons reading rest ih =>
      obtain ⟨answer, next, done, validNext, follows⟩ :=
        perform_follows source valid reading (sized reading List.mem_cons_self) fuel enough
      have shorter := follows.suffix.length_le
      obtain ⟨answers, last, ran, validLast, enoughLast⟩ :=
        ih validNext (fun later member => sized later (List.mem_cons_of_mem _ member)) (by omega)
      refine ⟨answer :: answers, last, ?_, validLast, enoughLast⟩
      rw [run, done]
      change (run source.toStream fuel next rest).bind _ = _
      rw [ran]
      rfl

theorem run_unique {Device' : Type} (source : Source Device) (source' : Source Device')
    {stream : BorrowedStream Device} {stream' : BorrowedStream Device'} (valid : Valid stream)
    (valid' : Valid stream') (readings : List Reading)
    (sized : ∀ reading ∈ readings, reading.Sized) (fuel : Nat)
    (enough : (remaining source stream).length < fuel)
    (same : remaining source' stream' = remaining source stream)
    {answers answers' : List Answer} {last : BorrowedStream Device} {last' : BorrowedStream Device'}
    (ran : run source.toStream fuel stream readings = .ok (answers, last))
    (ran' : run source'.toStream fuel stream' readings = .ok (answers', last'))
    (whole : ∀ answer ∈ answers, ¬answer.Failed) (whole' : ∀ answer ∈ answers', ¬answer.Failed)
    (sameLengths : answers.map Answer.chunkLength = answers'.map Answer.chunkLength) :
    answers = answers' ∧ remaining source last = remaining source' last' := by
  induction readings generalizing stream stream' answers answers' with
  | nil =>
      cases ran
      cases ran'
      exact ⟨rfl, same.symm⟩
  | cons reading rest ih =>
      have sizedFirst := sized reading List.mem_cons_self
      obtain ⟨answer, next, done, validNext, follows⟩ :=
        perform_follows source valid reading sizedFirst fuel enough
      obtain ⟨answer', next', done', validNext', follows'⟩ :=
        perform_follows source' valid' reading sizedFirst fuel (by rw [same]; exact enough)
      have shorter := follows.suffix.length_le
      have sizedRest : ∀ later ∈ rest, later.Sized :=
        fun later member => sized later (List.mem_cons_of_mem _ member)
      rw [same] at follows'
      have enoughNext : (remaining source next).length < fuel := by omega
      have shorter' := follows'.suffix.length_le
      obtain ⟨restAnswers, restLast, ranRest, _, _⟩ :=
        run_valid source validNext rest sizedRest fuel enoughNext
      obtain ⟨restAnswers', restLast', ranRest', _, _⟩ :=
        run_valid source' validNext' rest sizedRest fuel (by omega)
      rw [run, done] at ran
      rw [run, done'] at ran'
      change (run source.toStream fuel next rest).bind _ = _ at ran
      change (run source'.toStream fuel next' rest).bind _ = _ at ran'
      rw [ranRest] at ran
      rw [ranRest'] at ran'
      cases ran
      cases ran'
      rw [List.map_cons, List.map_cons, List.cons.injEq] at sameLengths
      obtain ⟨sameAnswer, sameRemaining⟩ := follows.unique follows'
        (whole answer List.mem_cons_self) (whole' answer' List.mem_cons_self) sameLengths.1
      obtain ⟨sameAnswers, sameLast⟩ := ih validNext validNext' sizedRest enoughNext
        sameRemaining.symm ranRest ranRest'
        (fun later member => whole later (List.mem_cons_of_mem _ member))
        (fun later member => whole' later (List.mem_cons_of_mem _ member)) sameLengths.2
      rw [sameAnswer, sameAnswers]
      exact ⟨rfl, sameLast⟩

end Runs

/-! ### What a run promises -/

/-- Every call of a run does what `onBytes` says on the bytes that remain, or is
cut short by the device and has taken a prefix of them; the indices stay in
order. Two runs over the same bytes that take chunks of the same lengths give
the same answers, however their devices split the bytes. -/
theorem reads_follow_the_bytes (source : Source Device) (stream : BorrowedStream Device)
    (valid : Valid stream) (readings : List Reading)
    (sized : ∀ reading ∈ readings, reading.Sized) (fuel : Nat)
    (enough : (remaining source stream).length < fuel) :
    (∀ (before after : List Reading) (reading : Reading), readings = before ++ reading :: after →
      ∃ answers state answer next,
        run source.toStream fuel stream before = .ok (answers, state) ∧
          reading.perform source.toStream fuel state = .ok (answer, next) ∧
          Valid state ∧ Valid next ∧
          Follows source reading (remaining source state) next answer) ∧
      ∀ (Device' : Type) (source' : Source Device') (stream' : BorrowedStream Device'),
        Valid stream' → remaining source' stream' = remaining source stream →
        ∃ answers last answers' last',
          run source.toStream fuel stream readings = .ok (answers, last) ∧
            run source'.toStream fuel stream' readings = .ok (answers', last') ∧
            ((∀ answer ∈ answers ++ answers', ¬answer.Failed) →
              answers.map Answer.chunkLength = answers'.map Answer.chunkLength →
              answers = answers' ∧ remaining source last = remaining source' last') := by
  constructor
  · intro before after reading split
    have sizedBefore : ∀ earlier ∈ before, earlier.Sized := by
      intro earlier member
      apply sized
      rw [split]
      exact List.mem_append_left _ member
    have sizedReading : reading.Sized := by
      apply sized
      rw [split]
      simp
    obtain ⟨answers, state, ran, validState, enoughState⟩ :=
      run_valid source valid before sizedBefore fuel enough
    obtain ⟨answer, next, done, validNext, follows⟩ :=
      perform_follows source validState reading sizedReading fuel enoughState
    exact ⟨answers, state, answer, next, ran, done, validState, validNext, follows⟩
  · intro Device' source' stream' valid' same
    obtain ⟨answers, last, ran, _, _⟩ := run_valid source valid readings sized fuel enough
    obtain ⟨answers', last', ran', _, _⟩ :=
      run_valid source' valid' readings sized fuel (by rw [same]; exact enough)
    refine ⟨answers, last, answers', last', ran, ran', ?_⟩
    intro whole sameLengths
    exact run_unique source source' valid valid' readings sized fuel enough same ran ran'
      (fun answer member => whole answer (List.mem_append_left _ member))
      (fun answer member => whole answer (List.mem_append_right _ member)) sameLengths

/-- A device in memory that delivers at most `count + 1` bytes at a time. -/
def stepwise (count : Nat) : Source Bytes where
  rawRead device span :=
    (.ok (device.take (min (count + 1) span)), device.drop (min (count + 1) span))
  rawWrite device bytes := (.ok bytes.length, device)
  rawFlush device := (.ok (), device)
  pending device := device
  fits := by
    intro device span bytes next answer
    cases answer
    rw [List.length_take]
    omega
  delivers := by
    intro device span bytes next answer
    cases answer
    exact (List.take_append_drop _ device).symm
  progress := by
    intro device span next answer
    have taken : device.take (min (count + 1) span) = [] :=
      Except.ok.inj (congrArg Prod.fst answer)
    rcases List.take_eq_nil_iff.1 taken with none | empty
    · left
      omega
    · right
      exact empty
  failure := by
    intro device span code next answer
    cases congrArg Prod.fst answer

/-- A line, two bytes and the rest, from a device that gives two bytes at a time. -/
theorem reads_follow_the_bytes_stepwise :
    ∃ answers state answer next,
      run (stepwise 1).toStream 8 (fresh [104, 105, 10, 1, 2, 3]) [.getline [] 10, .getn [] 2] =
          .ok (answers, state) ∧
        (Reading.getall [7]).perform (stepwise 1).toStream 8 state = .ok (answer, next) ∧
        Valid state ∧ Valid next ∧
        Follows (stepwise 1) (.getall [7]) (remaining (stepwise 1) state) next answer :=
  (reads_follow_the_bytes (stepwise 1) (fresh [104, 105, 10, 1, 2, 3]) (Valid.fresh _)
    [.getline [] 10, .getn [] 2, .getall [7]] (by simp [Reading.Sized]) 8 (by decide)).1
      [.getline [] 10, .getn [] 2] [] (.getall [7]) rfl

end MCoro.StreamReads
