/-
Reading up to a delimiter, of one byte or of several.

dropline takes the steps of getline on every device, also one that fails or that
answers with nonsense. With several bytes, a partial match that fails is given up
together with the bytes it has matched, so an occurrence that begins inside it is
passed over.
-/

import MCoro.Iostream.StreamReadRuns
import MCoro.Library.Delimiters

namespace MCoro.StreamReads

open Segments
open Delimiters
open BorrowedStream

variable {Device : Type} {raw : Stream Device} {stream next : BorrowedStream Device}

/-! ### Any device -/

theorem fillbuf_valid {result : Expected Unit} (valid : Valid stream)
    (filled : fillbuf raw stream = .ok (result, next)) :
    Valid next ∧ (stream.mInIndex = 0 → next.mInIndex = 0) ∧
      (result = .ok () → next.mInIndex < next.mInEnd) := by
  have opened := valid.allocinbuf
  have index : stream.mInIndex = 0 → (stream.allocinbuf kStreamBufferSize).mInIndex = 0 := by
    intro zero
    unfold BorrowedStream.allocinbuf
    split
    · rfl
    · exact zero
  unfold fillbuf at filled
  generalize stream.allocinbuf kStreamBufferSize = stream at filled opened index
  cases answer : raw.rawRead stream.mRaw (stream.mInBuffer.size - stream.mInIndex) with
  | mk reply device =>
      dsimp only at filled
      rw [answer] at filled
      cases reply with
      | error code =>
          cases filled
          exact ⟨⟨opened.ordered, opened.bounded, opened.capacity⟩, index, nofun⟩
      | ok bytes =>
          obtain ⟨buffer, stored, filled⟩ := Faults.exists_of_bind filled
          obtain ⟨bound, size, allocated⟩ := BytesBuffer.write_ok stored
          have capacity : buffer.mData = none ∨ buffer.size = kStreamBufferSize := by
            rw [allocated, size]
            exact opened.capacity
          change (if bytes.length = 0 then _ else _) = _ at filled
          by_cases ended : bytes.length = 0
          · rw [if_pos ended] at filled
            cases filled
            exact ⟨⟨opened.ordered, opened.bounded.trans size.ge, capacity⟩, index, nofun⟩
          · rw [if_neg ended] at filled
            cases filled
            have longer : stream.mInIndex < stream.mInIndex + bytes.length :=
              Nat.lt_add_of_pos_right (Nat.pos_of_ne_zero ended)
            exact ⟨⟨longer.le, bound.trans size.ge, capacity⟩, index, fun _ => longer⟩

theorem fillIfEmpty_valid {result : Expected Unit} (valid : Valid stream)
    (filled : fillIfEmpty raw stream = .ok (result, next)) :
    Valid next ∧ (result = .ok () → next.mInIndex < next.mInEnd) := by
  unfold fillIfEmpty at filled
  by_cases empty : stream.bufempty = true
  · rw [if_pos empty] at filled
    obtain ⟨validNext, _, nonempty⟩ := fillbuf_valid valid.resetInput filled
    exact ⟨validNext, nonempty⟩
  · rw [if_neg empty] at filled
    cases filled
    have ordered := valid.ordered
    have apart : stream.mInIndex ≠ stream.mInEnd := fun same => empty (decide_eq_true same)
    exact ⟨valid, fun _ => by omega⟩

theorem matchEol_valid {eol : Bytes} {i : Nat} {result : Expected (Option Nat)}
    (valid : Valid stream) (matched : matchEol raw eol i stream = .ok (result, next)) :
    Valid next := by
  induction eol generalizing i stream with
  | nil =>
      cases matched
      exact valid
  | cons byte eol ih =>
      obtain ⟨reply, filled, matched⟩ := Faults.exists_of_bind matched
      obtain ⟨outcome, opened⟩ := reply
      obtain ⟨validOpened, nonempty⟩ := fillIfEmpty_valid valid filled
      cases outcome with
      | error code =>
          cases matched
          exact validOpened
      | ok _ =>
          obtain ⟨c, _, matched⟩ := Faults.exists_of_bind matched
          change (if byte = c then _ else _) = _ at matched
          by_cases same : byte = c
          · rw [if_pos same] at matched
            have advanced : Valid { opened with mInIndex := opened.mInIndex + 1 } :=
              ⟨nonempty rfl, validOpened.bounded, validOpened.capacity⟩
            exact ih advanced matched
          · rw [if_neg same] at matched
            cases matched
            exact validOpened

/-! ### Dropping a line -/

/-- What is left of getline without its text. -/
def withoutText (reply : TextReply Device) : Reply Device Unit :=
  (reply.1, reply.2.2)

/-- The loops in step: the same outcome and stream, and a text that was appended to. -/
structure SameSteps (s : Bytes) (line : Except BufferFault (TextReply Device))
    (drop : Except BufferFault (Reply Device Unit)) : Prop where
  same : line.map withoutText = drop
  appends : ∀ reply, line = .ok reply → ∃ more, reply.2.1 = s ++ more
  valid : ∀ reply, line = .ok reply → Valid reply.2.2

theorem SameSteps.fault {Device : Type} (s : Bytes) (fault : BufferFault) :
    SameSteps s (.error fault : Except BufferFault (TextReply Device)) (.error fault) := by
  constructor
  case same => rfl
  case appends => nofun
  case valid => nofun

theorem SameSteps.reply {s text more : Bytes} {result : Expected Unit} (valid : Valid next)
    (appended : text = s ++ more) :
    SameSteps s (.ok (result, text, next)) (.ok (result, next)) := by
  constructor
  case same => rfl
  case appends =>
    intro reply same
    cases same
    exact ⟨more, appended⟩
  case valid =>
    intro reply same
    cases same
    exact valid

theorem SameSteps.weaken {s front : Bytes} {line : Except BufferFault (TextReply Device)}
    {drop : Except BufferFault (Reply Device Unit)} (steps : SameSteps (s ++ front) line drop) :
    SameSteps s line drop := by
  constructor
  case same => exact steps.same
  case appends =>
    intro reply same
    obtain ⟨more, text⟩ := steps.appends reply same
    exact ⟨front ++ more, text.trans (List.append_assoc ..)⟩
  case valid => exact steps.valid

theorem getlineLoop_steps (raw : Stream Device) (valid : Valid stream) (eol : UInt8) (s : Bytes)
    (fuel : Nat) :
    SameSteps s (getlineLoop raw eol fuel stream s stream.mInIndex)
      (droplineLoop raw eol fuel stream stream.mInIndex) := by
  induction fuel generalizing stream s with
  | zero => exact SameSteps.fault s .outOfFuel
  | succ fuel ih =>
      rw [getlineLoop, droplineLoop, findEol_window valid]
      cases found : cut eol (window stream) with
      | some parts =>
          obtain ⟨line, after⟩ := parts
          obtain ⟨read, inside, _⟩ := line_read valid found
          have validNext : Valid { stream with mInIndex := stream.mInIndex + line.length + 1 } :=
            ⟨inside, valid.bounded, valid.capacity⟩
          change SameSteps s ((stream.mInBuffer.read stream.mInIndex
            (stream.mInIndex + line.length - stream.mInIndex)).bind _) _
          rw [read]
          exact SameSteps.reply validNext rfl
      | none =>
          change SameSteps s ((stream.mInBuffer.read stream.mInIndex _).bind _)
            ((fillbuf raw stream.resetInput).bind _)
          rw [BytesBuffer.read_eq valid.ordered valid.bounded]
          change SameSteps s ((fillbuf raw stream.resetInput).bind _) _
          cases filled : fillbuf raw stream.resetInput with
          | error fault => exact SameSteps.fault s fault
          | ok reply =>
              obtain ⟨result, refilled⟩ := reply
              obtain ⟨validRefilled, index, _⟩ := fillbuf_valid valid.resetInput filled
              cases result with
              | error code => exact SameSteps.reply validRefilled rfl
              | ok _ =>
                  have steps := (ih validRefilled (s ++ window stream)).weaken
                  rw [index rfl] at steps
                  exact steps

theorem getlineViewLoop_steps (raw : Stream Device) (valid : Valid stream) (eol s : Bytes)
    (limit fuel : Nat) :
    SameSteps s (getlineViewLoop raw limit eol fuel stream s)
      (droplineViewLoop raw limit eol fuel stream) := by
  induction fuel generalizing stream s with
  | zero => exact SameSteps.fault s .outOfFuel
  | succ fuel ih =>
      cases eol with
      | nil => exact SameSteps.fault s .outOfBounds
      | cons first rest =>
          have steps := getlineLoop_steps raw valid first s limit
          have same := steps.same
          change SameSteps s ((getline raw limit stream s first).bind _)
            ((dropline raw limit stream first).bind _)
          change (getline raw limit stream s first).map withoutText =
            dropline raw limit stream first at same
          cases line : getline raw limit stream s first with
          | error fault =>
              rw [line] at same
              rw [← same]
              exact SameSteps.fault s fault
          | ok reply =>
              obtain ⟨more, appended⟩ := steps.appends reply line
              have validNext := steps.valid reply line
              obtain ⟨result, text, next⟩ := reply
              rw [line] at same
              rw [← same]
              cases result with
              | error code => exact SameSteps.reply validNext appended
              | ok _ =>
                  change SameSteps s ((matchEol raw rest 1 next).bind _)
                    ((matchEol raw rest 1 next).bind _)
                  cases matched : matchEol raw rest 1 next with
                  | error fault => exact SameSteps.fault s fault
                  | ok reply =>
                      obtain ⟨outcome, last⟩ := reply
                      have validLast := matchEol_valid validNext matched
                      match outcome with
                      | .error code => exact SameSteps.reply validLast appended
                      | .ok none => exact SameSteps.reply validLast appended
                      | .ok (some i) =>
                          have later := ih validLast (text ++ (first :: rest).take i)
                          rw [show text = s ++ more from appended] at later ⊢
                          exact later.weaken.weaken

/-- dropline and getline, with a byte and with a string_view. -/
theorem dropline_is_getline (raw : Stream Device) (stream : BorrowedStream Device)
    (valid : Valid stream) (fuel : Nat) (s : Bytes) :
    (∀ eol : UInt8, SameSteps s (getline raw fuel stream s eol) (dropline raw fuel stream eol)) ∧
      ∀ eol : Bytes, SameSteps s (getlineView raw fuel stream s eol)
        (droplineView raw fuel stream eol) := by
  constructor
  · intro eol
    exact getlineLoop_steps raw valid eol s fuel
  · intro eol
    exact getlineViewLoop_steps raw valid eol s fuel fuel

theorem dropline_is_getline_failing :
    SameSteps [7] (getlineView (stepwise 1).toStream 8 (fresh [104, 13, 13, 10]) [7] [13, 10])
      (droplineView (stepwise 1).toStream 8 (fresh [104, 13, 13, 10]) [13, 10]) :=
  (dropline_is_getline (stepwise 1).toStream (fresh [104, 13, 13, 10]) (Valid.fresh _) 8 [7]).2
    [13, 10]

/-! ### A device that only splits its bytes -/

def Unfailing (source : Source Device) : Prop :=
  ∀ device span code next, source.rawRead device span = (.error code, next) → code = .eofError

variable {source : Source Device}

theorem Refill.unfailing {before : Bytes} {code : ErrorCode} (unfailing : Unfailing source)
    (refill : Refill source before next (.error code)) : code = .eofError ∧ before = [] := by
  cases refill with
  | ended nothing still => exact ⟨rfl, nothing⟩
  | failed code notEnd reported same =>
      obtain ⟨device, span, answer⟩ := reported
      exact absurd (unfailing device span code _ answer) notEnd

theorem getline_cuts (unfailing : Unfailing source) (valid : Valid stream) (s : Bytes)
    (eol : UInt8) {limit : Nat} (enough : (remaining source stream).length < limit) :
    ∃ result text next, getline source.toStream limit stream s eol = .ok (result, text, next) ∧
      Valid next ∧
      match cut eol (remaining source stream) with
      | none => result = .error .eofError
      | some (line, after) => result = .ok () ∧ text = s ++ line ∧ remaining source next = after := by
  have shorter : (source.pending stream.mRaw).length < limit := by
    unfold remaining at enough
    rw [List.length_append] at enough
    omega
  obtain ⟨result, text, next, returns, validNext, follows⟩ :=
    getlineLoop_follows source valid eol s limit shorter
  refine ⟨result, text, next, returns, validNext, ?_⟩
  cases follows with
  | exact answer same =>
      unfold Reading.onBytes at same
      dsimp only at same
      cases found : cut eol (remaining source stream) with
      | none =>
          rw [found] at same
          dsimp only at same
          rw [Option.some.injEq, Prod.mk.injEq, Answer.text.injEq] at same
          exact same.1.2.symm
      | some parts =>
          obtain ⟨line, after⟩ := parts
          rw [found] at same
          dsimp only at same
          rw [Option.some.injEq, Prod.mk.injEq, Answer.text.injEq] at same
          exact ⟨same.1.2.symm, same.1.1.symm, same.2.symm⟩
  | interrupted code taken suspends notEnd reported kept split =>
      obtain ⟨device, span, answer⟩ := reported
      exact absurd (unfailing device span code _ answer) notEnd

/-- How the rest of the delimiter compares with the bytes behind its first byte. -/
inductive Compared (source : Source Device) (eol before : Bytes) (i : Nat)
    (next : BorrowedStream Device) : Expected (Option Nat) → Prop
  | whole (met : agree eol before = eol.length)
      (behind : remaining source next = before.drop eol.length) :
      Compared source eol before i next (.ok none)
  | part (other : agree eol before ≠ eol.length)
      (behind : remaining source next = before.drop (agree eol before)) :
      Compared source eol before i next (.ok (some (i + agree eol before)))
  | ended (other : agree eol before ≠ eol.length) (nothing : before.length ≤ agree eol before) :
      Compared source eol before i next (.error .eofError)

theorem Compared.cons {eol before : Bytes} {i : Nat} {result : Expected (Option Nat)}
    (compared : Compared source eol before (i + 1) next result) (byte : UInt8) :
    Compared source (byte :: eol) (byte :: before) i next result := by
  have longer : agree (byte :: eol) (byte :: before) = agree eol before + 1 :=
    agree_cons_self eol before
  cases compared with
  | whole met behind => exact .whole (by rw [longer, met, List.length_cons]) behind
  | part other behind =>
      have index : i + 1 + agree eol before = i + agree (byte :: eol) (byte :: before) := by
        omega
      rw [index]
      apply Compared.part
      · rw [longer, List.length_cons]
        omega
      · rw [longer, List.drop_succ_cons, behind]
  | ended other nothing =>
      apply Compared.ended
      · rw [longer, List.length_cons]
        omega
      · rw [longer, List.length_cons]
        omega

theorem matchEol_compares (unfailing : Unfailing source) (valid : Valid stream) (eol : Bytes)
    (i : Nat) :
    ∃ result next, matchEol source.toStream eol i stream = .ok (result, next) ∧ Valid next ∧
      Compared source eol (remaining source stream) i next result := by
  induction eol generalizing stream i with
  | nil => exact ⟨.ok none, stream, rfl, valid, .whole rfl rfl⟩
  | cons byte eol ih =>
      obtain ⟨filled, opened, done, validOpened, refill⟩ := fillIfEmpty_refill source valid
      cases filled with
      | error code =>
          obtain ⟨isEnd, nothing⟩ := refill.unfailing unfailing
          have passes : matchEol source.toStream (byte :: eol) i stream =
              .ok (.error code, opened) := by
            change (fillIfEmpty source.toStream stream).bind _ = _
            rw [done]
            rfl
          rw [nothing, isEnd] at *
          exact ⟨_, opened, passes, validOpened, .ended nofun (Nat.le_refl 0)⟩
      | ok _ =>
          cases refill with
          | filled nonempty same =>
              obtain ⟨c, got, validNext, split⟩ := first_byte source validOpened nonempty
              have passes : matchEol source.toStream (byte :: eol) i stream =
                  if byte = c then
                    matchEol source.toStream eol (i + 1)
                      { opened with mInIndex := opened.mInIndex + 1 }
                  else .ok (.ok (some i), opened) := by
                change (fillIfEmpty source.toStream stream).bind _ = _
                rw [done]
                change (opened.mInBuffer.get opened.mInIndex).bind _ = _
                rw [got]
                rfl
              rw [passes, ← same, split]
              by_cases equal : byte = c
              · obtain ⟨result, last, matched, validLast, compared⟩ := ih validNext (i + 1)
                rw [if_pos equal, ← equal]
                exact ⟨result, last, matched, validLast, compared.cons byte⟩
              · have apart : agree (byte :: eol)
                    (c :: remaining source { opened with mInIndex := opened.mInIndex + 1 }) = 0 :=
                  if_neg equal
                rw [if_neg equal]
                refine ⟨_, opened, rfl, validOpened, ?_⟩
                change Compared source (byte :: eol) _ i opened (.ok (some (i + 0)))
                rw [← apart]
                apply Compared.part
                · rw [apart]
                  nofun
                · rw [apart]
                  exact split

theorem scan_nil (first : UInt8) (rest : Bytes) (fuel : Nat) : scan first rest fuel [] = none := by
  cases fuel <;> rfl

/-- What the loop leaves, given what the search on the remaining bytes finds. -/
def Scanned (source : Source Device) (s : Bytes) (found : Option (Bytes × Bytes)) :
    TextReply Device → Prop
  | (result, text, next) =>
      match found with
      | none => result = .error .eofError
      | some (line, after) =>
          result = .ok () ∧ text = s ++ line ∧ remaining source next = after

theorem Scanned.map {s line : Bytes} {found : Option (Bytes × Bytes)} {reply : TextReply Device}
    (scanned : Scanned source (s ++ line) found reply) :
    Scanned source s (found.map fun found => (line ++ found.1, found.2)) reply := by
  cases found with
  | none => exact scanned
  | some parts =>
      obtain ⟨returns, text, behind⟩ := scanned
      exact ⟨returns, text.trans (List.append_assoc ..), behind⟩

/-- One pass of the loop, once the first byte of the delimiter has been searched for. -/
theorem getlineViewLoop_pass {first : UInt8} {rest s text : Bytes} {limit fuel : Nat}
    (line : getline raw limit stream s first = .ok (.ok (), text, next)) :
    getlineViewLoop raw limit (first :: rest) (fuel + 1) stream s =
      (matchEol raw rest 1 next).bind fun reply =>
        match reply.1 with
        | .error code => .ok (.error code, text, reply.2)
        | .ok none => .ok (.ok (), text, reply.2)
        | .ok (some i) =>
            getlineViewLoop raw limit (first :: rest) fuel reply.2
              (text ++ (first :: rest).take i) := by
  change (getline raw limit stream s first).bind _ = _
  rw [line]
  rfl

theorem getlineViewLoop_stop {first : UInt8} {rest s text : Bytes} {limit fuel : Nat}
    {code : ErrorCode} (line : getline raw limit stream s first = .ok (.error code, text, next)) :
    getlineViewLoop raw limit (first :: rest) (fuel + 1) stream s =
      .ok (.error code, text, next) := by
  change (getline raw limit stream s first).bind _ = _
  rw [line]
  rfl

theorem getlineViewLoop_scans (unfailing : Unfailing source) (valid : Valid stream)
    (first : UInt8) (rest s : Bytes) {limit fuel : Nat}
    (enough : (remaining source stream).length < limit)
    (passes : (remaining source stream).length < fuel) :
    ∃ reply, getlineViewLoop source.toStream limit (first :: rest) fuel stream s = .ok reply ∧
      Scanned source s (scan first rest fuel (remaining source stream)) reply := by
  induction fuel generalizing stream s with
  | zero => cases passes
  | succ fuel ih =>
      obtain ⟨result, text, behind, line, validBehind, cuts⟩ :=
        getline_cuts unfailing valid s first enough
      rw [scan]
      cases cutEq : cut first (remaining source stream) with
      | none =>
          rw [cutEq] at cuts
          have ended : result = .error .eofError := cuts
          rw [ended] at line
          exact ⟨_, getlineViewLoop_stop line, rfl⟩
      | some parts =>
          obtain ⟨front, after⟩ := parts
          rw [cutEq] at cuts
          obtain ⟨returns, textEq, afterEq⟩ : result = .ok () ∧ text = s ++ front ∧
            remaining source behind = after := cuts
          obtain ⟨outcome, last, matched, validLast, compared⟩ :=
            matchEol_compares unfailing validBehind rest 1
          rw [returns] at line
          rw [getlineViewLoop_pass line, matched]
          rw [afterEq] at compared
          have whole := congrArg List.length (eq_of_cut cutEq)
          rw [List.length_append, List.length_cons] at whole
          dsimp only
          cases compared with
          | whole met behindEq =>
              rw [if_pos met]
              exact ⟨_, rfl, rfl, textEq, behindEq⟩
          | part other behindEq =>
              have shorter : (remaining source last).length ≤ after.length := by
                rw [behindEq, List.length_drop]
                exact Nat.sub_le _ _
              obtain ⟨reply, loops, scanned⟩ := ih validLast
                (text ++ (first :: rest).take (1 + agree rest after)) (by omega) (by omega)
              rw [if_neg other]
              refine ⟨reply, loops, ?_⟩
              rw [behindEq, textEq, Nat.add_comm 1, List.take_succ_cons, List.append_assoc] at scanned
              exact scanned.map
          | ended other nothing =>
              rw [if_neg other, List.drop_eq_nil_of_le nothing, scan_nil]
              exact ⟨_, rfl, rfl⟩

theorem getlineView_iff_scan (unfailing : Unfailing source) (valid : Valid stream) (s : Bytes)
    (first : UInt8) (rest line after : Bytes) {fuel : Nat}
    (enough : (remaining source stream).length < fuel) :
    (∃ next, getlineView source.toStream fuel stream s (first :: rest) =
        .ok (.ok (), s ++ line, next) ∧ remaining source next = after) ↔
      scan first rest fuel (remaining source stream) = some (line, after) := by
  obtain ⟨reply, loops, scanned⟩ :=
    getlineViewLoop_scans unfailing valid first rest s enough enough
  rw [getlineView, loops]
  constructor
  · intro finds
    obtain ⟨next, same, behind⟩ := finds
    cases same
    cases scans : scan first rest fuel (remaining source stream) with
    | none =>
        rw [scans] at scanned
        cases scanned
    | some parts =>
        obtain ⟨front, back⟩ := parts
        rw [scans] at scanned
        obtain ⟨_, text, left⟩ := scanned
        rw [List.append_cancel_left text, ← left, behind]
  · intro scans
    rw [scans] at scanned
    obtain ⟨result, text, next⟩ := reply
    obtain ⟨returns, textEq, behind⟩ := scanned
    rw [returns, textEq]
    exact ⟨next, rfl, behind⟩

theorem stepwise_unfailing (count : Nat) : Unfailing (stepwise count) :=
  nofun

/-- A delimiter whose first byte does not come again in it, as "\r\n", is always found. -/
theorem getlineView_finds (unfailing : Unfailing source) (valid : Valid stream) (s : Bytes)
    {first : UInt8} {rest : Bytes} (once : first ∉ rest)
    (occurs : first :: rest <:+: remaining source stream) {fuel : Nat}
    (enough : (remaining source stream).length < fuel) :
    ∃ line after next, First (first :: rest) (remaining source stream) line after ∧
      getlineView source.toStream fuel stream s (first :: rest) = .ok (.ok (), s ++ line, next) ∧
      remaining source next = after := by
  obtain ⟨line, after, found⟩ := exists_first occurs
  have scans := (scan_first_iff found enough).2 (clear_of_not_mem found once)
  obtain ⟨next, returns, behind⟩ :=
    (getlineView_iff_scan unfailing valid s first rest line after enough).2 scans
  exact ⟨line, after, next, found, returns, behind⟩

theorem getlineView_finds_crlf :
    ∃ line after next, First [13, 10] [104, 13, 13, 10, 105] line after ∧
      getlineView (stepwise 1).toStream 8 (fresh [104, 13, 13, 10, 105]) [7] [13, 10] =
        .ok (.ok (), [7] ++ line, next) ∧ remaining (stepwise 1) next = after :=
  getlineView_finds (stepwise_unfailing 1) (Valid.fresh [104, 13, 13, 10, 105]) [7]
    (by decide : (13 : UInt8) ∉ [(10 : UInt8)]) ⟨[104, 13], [105], rfl⟩
    (by decide : [104, 13, 13, 10, 105].length < 8)

/-- getline finds the first occurrence just when no comparison has run into it. -/
theorem getline_view_first_iff (source : Source Device) (unfailing : Unfailing source)
    (stream : BorrowedStream Device) (valid : Valid stream) (s : Bytes) (first : UInt8)
    (rest line after : Bytes)
    (found : First (first :: rest) (remaining source stream) line after) {fuel : Nat}
    (enough : (remaining source stream).length < fuel) :
    (∃ next, getlineView source.toStream fuel stream s (first :: rest) =
        .ok (.ok (), s ++ line, next) ∧ remaining source next = after) ↔
      Clear first rest (remaining source stream) line.length := by
  rw [getlineView_iff_scan unfailing valid s first rest line after enough]
  exact scan_first_iff found enough

theorem getline_view_first_iff_crlf :
    ∃ next, getlineView (stepwise 1).toStream 8 (fresh [104, 13, 13, 10, 105]) [7] [13, 10] =
      .ok (.ok (), [7] ++ [104, 13], next) ∧ remaining (stepwise 1) next = [105] := by
  apply (getline_view_first_iff (stepwise 1) (stepwise_unfailing 1)
    (fresh [104, 13, 13, 10, 105]) (Valid.fresh _) [7] 13 [10] [104, 13] [105] ⟨rfl, by decide⟩
    (by decide : [104, 13, 13, 10, 105].length < 8)).2
  intro position before _
  have ended : ∀ position < 2,
      position + agree [(13 : UInt8), 10] ([104, 13, 13, 10, 105].drop position) ≤ 2 := by decide
  exact ended position before

/-- The delimiter "aab" in "aaab": the comparison that begins in front takes "aa" with it. -/
theorem overlapping_eol_missed :
    First [97, 97, 98] (remaining (stepwise 1) (fresh [97, 97, 97, 98])) [97] [] ∧
      ∃ text next, getlineView (stepwise 1).toStream 8 (fresh [97, 97, 97, 98]) [] [97, 97, 98] =
        .ok (.error .eofError, text, next) := by
  have short : (remaining (stepwise 1) (fresh [97, 97, 97, 98])).length < 8 := by decide
  obtain ⟨reply, loops, scanned⟩ := getlineViewLoop_scans (stepwise_unfailing 1)
    (Valid.fresh [97, 97, 97, 98]) 97 [97, 98] [] short short
  obtain ⟨result, text, next⟩ := reply
  have ended : result = .error .eofError := scanned
  rw [ended] at loops
  exact ⟨⟨rfl, by decide⟩, text, next, loops⟩

end MCoro.StreamReads
