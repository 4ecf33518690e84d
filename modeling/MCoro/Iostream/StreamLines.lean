/-
Lines through a stream: the loop of examples/pipe_read.cpp over the lines of a stream, and
what it makes of lines that were written with putline.

The loop cuts the bytes of the stream at every `eol`, as split_string does, and its body
runs for all the pieces but the last, which getline leaves in `line` when it fails at the
end of the data.
-/

import MCoro.Iostream.StreamReadRuns
import MCoro.Iostream.StreamWrites
import MCoro.Utils.StringUtils

namespace MCoro.StreamLines

open Segments Delimiters
open BorrowedStream
open StreamReads (Reading Answer Follows remaining perform_follows)
open StreamWrites (Writing Receipt written perform_written)

variable {Device : Type}

/-! ### Reading -/

structure Lines where
  /-- The lines for which the body has run. -/
  body : List Bytes
  /-- What getline has left in `line`. -/
  line : Bytes
  error : ErrorCode
  deriving DecidableEq, Repr

/-- `while (line.clear(), co_await stream.getline(line, eol)) ..`, for at most so many
passes. -/
def readLines (raw : Stream Device) (fuel : Nat) (eol : UInt8) :
    Nat → BorrowedStream Device → Except BufferFault (Option Lines × BorrowedStream Device)
  | 0, stream => .ok (none, stream)
  | passes + 1, stream => do
      let (result, line, stream) ← stream.getline raw fuel [] eol
      match result with
      | .error error => return (some { body := [], line, error }, stream)
      | .ok () => do
          let (lines, stream) ← readLines raw fuel eol passes stream
          return (lines.map fun lines => { lines with body := line :: lines.body }, stream)

/-- The device reports no error but the end of the data. -/
def Steady (source : Source Device) : Prop :=
  ∀ device span code next, source.rawRead device span = (.error code, next) → code = .eofError

section Reads

variable {source : Source Device} {stream : BorrowedStream Device}

/-- What getline makes of the bytes that remain, on a device without errors. -/
inductive Line (eol : UInt8) (before after : Bytes) : Expected Unit → Bytes → Prop where
  | found {line : Bytes} (parts : cut eol before = some (line, after)) :
      Line eol before after (.ok ()) line
  | ended (absent : cut eol before = none) (nothing : after = []) :
      Line eol before after (.error .eofError) before

theorem getline_steady (steady : Steady source) (valid : StreamReads.Valid stream) (eol : UInt8)
    {fuel : Nat} (enough : (remaining source stream).length < fuel) :
    ∃ result line next, stream.getline source.toStream fuel [] eol = .ok (result, line, next) ∧
      StreamReads.Valid next ∧
      Line eol (remaining source stream) (remaining source next) result line := by
  have enoughPending : (source.pending stream.mRaw).length < fuel := by
    unfold remaining at enough
    rw [List.length_append] at enough
    omega
  obtain ⟨result, line, next, done, validNext, follows⟩ :=
    StreamReads.getlineLoop_follows source valid eol [] fuel enoughPending
  refine ⟨result, line, next, done, validNext, ?_⟩
  generalize answer : Answer.text line result = reply at follows
  cases follows with
  | exact _ same =>
      rw [← answer] at same
      unfold Reading.onBytes at same
      simp only at same
      cases parts : cut eol (remaining source stream) with
      | none =>
          rw [parts] at same
          obtain ⟨told, nothing⟩ := Prod.mk.inj (Option.some.inj same)
          obtain ⟨rfl, rfl⟩ := Answer.text.inj told
          exact .ended parts nothing.symm
      | some pair =>
          obtain ⟨front, after⟩ := pair
          rw [parts] at same
          obtain ⟨told, left⟩ := Prod.mk.inj (Option.some.inj same)
          obtain ⟨rfl, rfl⟩ := Answer.text.inj told
          rw [left] at parts
          exact .found parts
  | chunk bytes free fits split => cases answer
  | ended free suspends nothing still => cases answer
  | interrupted code taken suspends notEnd reported kept split =>
      obtain ⟨device, span, answered⟩ := reported
      exact absurd (steady device span code next.mRaw answered) notEnd

theorem readLines_pieces (steady : Steady source) (valid : StreamReads.Valid stream)
    (eol : UInt8) {fuel passes : Nat} (enough : (remaining source stream).length < fuel)
    (often : (remaining source stream).length < passes) :
    ∃ body last next, readLines source.toStream fuel eol passes stream =
        .ok (some { body, line := last, error := .eofError }, next) ∧
      Pieces [eol] (remaining source stream) (body ++ [last]) ∧ StreamReads.Valid next ∧
      remaining source next = [] := by
  induction passes generalizing stream with
  | zero => exact absurd often (Nat.not_lt_zero _)
  | succ passes ih =>
      obtain ⟨result, line, next, got, validNext, read⟩ := getline_steady steady valid eol enough
      cases read with
      | ended absent nothing =>
          refine ⟨[], remaining source stream, next, ?_, ?_, validNext, nothing⟩
          · rw [readLines, got]
            rfl
          · apply Pieces.last
            rw [List.singleton_infix_iff]
            intro member
            obtain ⟨line, after, parts⟩ := exists_cut member
            rw [absent] at parts
            cases parts
      | found parts =>
          have split := eq_of_cut parts
          have shorter : (remaining source next).length < (remaining source stream).length := by
            rw [split, List.length_append, List.length_cons]
            omega
          obtain ⟨body, last, final, looped, pieces, validFinal, empty⟩ :=
            ih validNext (by omega) (by omega)
          refine ⟨line :: body, last, final, ?_, ?_, validFinal, empty⟩
          · rw [readLines, got]
            change (readLines source.toStream fuel eol passes next).bind _ = _
            rw [looped]
            rfl
          · rw [split]
            exact .cut (.of_not_mem (not_mem_of_cut parts) _) pieces

theorem collect_pieces {view : StringUtils.StringView} {eol : UInt8} {pieces : List Bytes}
    (cut : Pieces [eol] view.chars pieces) {fuel : Nat} (enough : pieces.length < fuel) :
    (StringUtils.splitString view (.char eol)).collect fuel = some pieces := by
  obtain ⟨parts, given, texts⟩ := StringUtils.Iterator.each_pieces cut (List.cons_ne_nil _ _)
    { s := view
      delimiter := .char eol
      current := .empty
      ended := false
      toBeEnded := false }
    rfl rfl rfl rfl enough
  change StringUtils.SplitString.collectLoop fuel
    (StringUtils.Iterator.construct view (.char eol)) [] = _
  rw [StringUtils.SplitString.collectLoop_eq, StringUtils.Iterator.construct, given,
    Option.map_some, texts, List.nil_append]

/-- However the device splits its bytes, the loop over the lines runs for what split_string
makes of all of them, but for the last piece, and ends at the end of the data with that one. -/
theorem readLines_splits (source : Source Device) (steady : Steady source)
    (stream : BorrowedStream Device) (valid : StreamReads.Valid stream) (eol : UInt8)
    (fuel : Nat) (enough : (remaining source stream).length + 1 < fuel) (behind : Bytes) :
    ∃ body last next, readLines source.toStream fuel eol fuel stream =
        .ok (some { body, line := last, error := .eofError }, next) ∧
      (StringUtils.splitString { chars := remaining source stream, behind } (.char eol)).collect
        fuel = some (body ++ [last]) ∧
      remaining source next = [] := by
  obtain ⟨body, last, next, looped, pieces, _, nothing⟩ :=
    readLines_pieces steady valid eol (Nat.lt_of_succ_lt enough) (Nat.lt_of_succ_lt enough)
  have few := pieces.length_le (List.cons_ne_nil _ _)
  exact ⟨body, last, next, looped, collect_pieces pieces (Nat.lt_of_le_of_lt few enough), nothing⟩

theorem steady_stepwise (count : Nat) : Steady (StreamReads.stepwise count) := by
  intro device span code next answer
  cases congrArg Prod.fst answer

/-- Two lines and a last one without its end, two bytes at a time. -/
theorem readLines_splits_stepwise :
    ∃ body last next, readLines (StreamReads.stepwise 1).toStream 8 10 8
        (fresh [104, 105, 10, 10, 33]) =
          .ok (some { body, line := last, error := .eofError }, next) ∧
      (StringUtils.splitString
        { chars := remaining (StreamReads.stepwise 1) (fresh [104, 105, 10, 10, 33]), behind := [] }
        (.char 10)).collect 8 = some (body ++ [last]) ∧
      remaining (StreamReads.stepwise 1) next = [] :=
  readLines_splits (StreamReads.stepwise 1) (steady_stepwise 1) (fresh [104, 105, 10, 10, 33])
    (StreamReads.Valid.fresh _) 10 8 (by decide) []

end Reads

/-! ### Writing -/

theorem putline_flushes (sink : Sink Device) {stream : BorrowedStream Device}
    (valid : StreamWrites.Valid stream) (flushed : stream.mOutIndex = 0) (line : Bytes) {fuel : Nat}
    (enough : kStreamBufferSize ≤ fuel) (passes : line.length + 1 < fuel) :
    ∃ next, (Writing.putline line).perform sink.toStream fuel stream =
        .ok (.done (.ok ()), next) ∧ StreamWrites.Valid next ∧ next.mOutIndex = 0 ∧
      sink.received next.mRaw = sink.received stream.mRaw ++ (line ++ [newline]) := by
  obtain ⟨receipt, next, done, validNext, succeeded, added, ends⟩ :=
    perform_written sink valid (.putline line) fuel enough passes
  have told : receipt = .done (.ok ()) := by
    obtain ⟨⟨result, after⟩, _, made⟩ := Faults.exists_of_bind done
    obtain ⟨rfl, _⟩ := Prod.mk.inj (Except.ok.inj made)
    exact congrArg Receipt.done succeeded
  have last := ends trivial
  unfold written at added
  rw [last, flushed, List.take_zero, List.append_nil, List.take_zero, List.append_nil] at added
  rw [told] at done
  exact ⟨next, done, validNext, last, added⟩

theorem run_putlines (sink : Sink Device) {stream : BorrowedStream Device}
    (valid : StreamWrites.Valid stream) (flushed : stream.mOutIndex = 0) (lines : List Bytes)
    {fuel : Nat} (enough : kStreamBufferSize ≤ fuel)
    (passes : ∀ line ∈ lines, line.length + 1 < fuel) :
    ∃ last, StreamWrites.run sink.toStream fuel stream (lines.map .putline) =
        .ok (lines.map fun _ => .done (.ok ()), last) ∧
      sink.received last.mRaw =
        sink.received stream.mRaw ++ lines.flatMap (· ++ [newline]) := by
  induction lines generalizing stream with
  | nil => exact ⟨stream, rfl, (List.append_nil _).symm⟩
  | cons line rest ih =>
      rw [List.forall_mem_cons] at passes
      obtain ⟨next, done, validNext, nothing, added⟩ :=
        putline_flushes sink valid flushed line enough passes.1
      obtain ⟨last, ran, more⟩ := ih validNext nothing passes.2
      refine ⟨last, ?_, ?_⟩
      · rw [List.map_cons, StreamWrites.run, done]
        change (StreamWrites.run sink.toStream fuel next (rest.map .putline)).bind _ = _
        rw [ran]
        rfl
      · rw [more, added, List.flatMap_cons, List.append_assoc]

/-- Lines without a newline come back as they were written, from whatever device has the bytes
then, and after them comes the end of the data. -/
theorem lines_come_back {Device' : Type} (sink : Sink Device) (source : Source Device')
    (steady : Steady source) (device : Device) (empty : sink.received device = [])
    (lines : List Bytes) (single : ∀ line ∈ lines, newline ∉ line) {fuel : Nat}
    (enough : kStreamBufferSize ≤ fuel) (passes : ∀ line ∈ lines, line.length + 1 < fuel) :
    ∃ last, StreamWrites.run sink.toStream fuel (fresh device) (lines.map .putline) =
        .ok (lines.map fun _ => .done (.ok ()), last) ∧
      ∀ device' fuel', source.pending device' = sink.received last.mRaw →
        (source.pending device').length < fuel' →
        ∃ next, readLines source.toStream fuel' newline fuel' (fresh device') =
          .ok (some { body := lines, line := [], error := .eofError }, next) := by
  obtain ⟨last, ran, added⟩ :=
    run_putlines sink (StreamWrites.Valid.fresh device) rfl lines enough passes
  refine ⟨last, ran, ?_⟩
  intro device' fuel' carried enough'
  have bytes : remaining source (fresh device') = lines.flatMap (· ++ [newline]) := by
    have nothing : sink.received (fresh device).mRaw = [] := empty
    rw [nothing, List.nil_append] at added
    change source.pending device' = _
    rw [carried, added]
  have short : (remaining source (fresh device')).length < fuel' := enough'
  obtain ⟨body, line, next, looped, pieces, _, _⟩ :=
    readLines_pieces steady (StreamReads.Valid.fresh device') newline short short
  refine ⟨next, ?_⟩
  rw [bytes] at pieces
  have same := pieces.unique (.of_lines single)
  obtain ⟨rfl, ending⟩ := List.append_inj' same rfl
  rw [looped, List.singleton_inj.1 ending]

/-- Two lines, written three bytes and read two bytes at a time. -/
theorem lines_come_back_two :
    ∃ last, StreamWrites.run (StreamWrites.gathering 2).toStream 9000 (fresh [])
        ([[104, 105], []].map .putline) = .ok ([[104, 105], []].map fun _ => .done (.ok ()), last) ∧
      ∀ device' fuel', (StreamReads.stepwise 1).pending device' =
          (StreamWrites.gathering 2).received last.mRaw →
        ((StreamReads.stepwise 1).pending device').length < fuel' →
        ∃ next, readLines (StreamReads.stepwise 1).toStream fuel' newline fuel' (fresh device') =
          .ok (some { body := [[104, 105], []], line := [], error := .eofError }, next) :=
  lines_come_back (StreamWrites.gathering 2) (StreamReads.stepwise 1) (steady_stepwise 1) [] rfl
    [[104, 105], []] (by decide) (by decide) (by decide)

end MCoro.StreamLines
