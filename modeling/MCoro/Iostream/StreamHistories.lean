/-
Writing to a device that may do anything: take a part of what it is given, take
nothing, or fail.

The device keeps the history of the calls to it. What it has received is what it
took in them, one after the other. flush puts the pieces it sends in the right order,
but forgets what it has sent when a later piece fails.
-/

import MCoro.Iostream.StreamWrites

namespace MCoro

open Segments

/-- A raw operation and the device's answer to it. -/
inductive DeviceCall where
  | rawWrite (bytes : Bytes) (reply : Expected Nat)
  | rawSeek (pos : Nat) (reply : Expected Unit)
  deriving DecidableEq

namespace DeviceCall

/-- The bytes the device took; a call that fails takes none. -/
def taken : DeviceCall → Bytes
  | rawWrite bytes (.ok count) => bytes.take count
  | rawWrite _ (.error _) | rawSeek _ _ => []

def Partly : DeviceCall → Prop
  | rawWrite bytes (.ok count) => 0 < count ∧ count < bytes.length
  | rawWrite _ (.error _) | rawSeek _ _ => False

def Stalled : DeviceCall → Prop
  | rawWrite _ (.ok count) => count = 0
  | rawWrite _ (.error _) => True
  | rawSeek _ _ => False

end DeviceCall

structure Recorded (Device : Type) where
  device : Device
  log : List DeviceCall

def record {Device : Type} (raw : SeekableStream Device) : SeekableStream (Recorded Device) where
  rawRead recorded span :=
    let (reply, device) := raw.rawRead recorded.device span
    (reply, { recorded with device := device })
  rawWrite recorded bytes :=
    let (reply, device) := raw.rawWrite recorded.device bytes
    (reply, ⟨device, recorded.log ++ [.rawWrite bytes reply]⟩)
  rawFlush recorded :=
    let (reply, device) := raw.rawFlush recorded.device
    (reply, { recorded with device := device })
  rawSeek recorded pos :=
    let (reply, device) := raw.rawSeek recorded.device pos
    (reply, ⟨device, recorded.log ++ [.rawSeek pos reply]⟩)

/-- raw_write returns the number of bytes written, which is at most what it was given. -/
def Counts {Device : Type} (raw : Stream Device) : Prop :=
  ∀ device bytes count next, raw.rawWrite device bytes = (.ok count, next) →
    count ≤ bytes.length

namespace StreamHistories

open BorrowedStream
open StreamWrites (Valid Flushed take_unallocated block_to_send allocoutbuf_keeps)

def received (log : List DeviceCall) : Bytes :=
  log.flatMap DeviceCall.taken

/-- After a write that took a part, the next one takes something. -/
def Smooth (log : List DeviceCall) : Prop :=
  log.IsChain fun first second => first.Partly → ¬second.Stalled

/-- Whatever smooth log comes next, the whole is smooth. -/
def Settled (log : List DeviceCall) : Prop :=
  ∀ more, Smooth more → Smooth (log ++ more)

theorem received_append (front back : List DeviceCall) :
    received (front ++ back) = received front ++ received back :=
  List.flatMap_append

theorem Settled.nil : Settled [] :=
  fun _ smooth => smooth

theorem Settled.append {front back : List DeviceCall} (first : Settled front)
    (second : Settled back) : Settled (front ++ back) := by
  intro more smooth
  rw [List.append_assoc]
  exact first _ (second more smooth)

theorem Settled.smooth {log : List DeviceCall} (settled : Settled log) : Smooth log := by
  have whole := settled [] .nil
  rw [List.append_nil] at whole
  exact whole

theorem Smooth.left {front back : List DeviceCall} (smooth : Smooth (front ++ back)) :
    Smooth front :=
  List.IsChain.left_of_append smooth

theorem Smooth.right {front back : List DeviceCall} (smooth : Smooth (front ++ back)) :
    Smooth back :=
  List.IsChain.right_of_append smooth

theorem Smooth.of_unstalled {log : List DeviceCall} (unstalled : ∀ call ∈ log, ¬call.Stalled) :
    Smooth log := by
  induction log with
  | nil => exact .nil
  | cons call rest ih =>
      have smooth := ih fun later member => unstalled later (List.mem_cons_of_mem _ member)
      apply List.IsChain.cons smooth
      intro next first _
      exact unstalled next (List.mem_cons_of_mem _ (List.mem_of_mem_head? first))

theorem taken_of_stalled {call : DeviceCall} (stalled : call.Stalled) :
    call.taken = [] := by
  cases call with
  | rawWrite bytes reply =>
      cases reply with
      | error code => rfl
      | ok count =>
          change bytes.take count = []
          rw [show count = 0 from stalled, List.take_zero]
  | rawSeek pos reply => cases stalled

/-! ### The loop of flush -/

/-- The calls the loop makes to send the bytes, and the last answer. -/
inductive Sending : Bytes → List DeviceCall → Expected Nat → Prop
  | failed (buf : Bytes) (code : ErrorCode) :
      Sending buf [.rawWrite buf (.error code)] (.error code)
  | nothing (buf : Bytes) : Sending buf [.rawWrite buf (.ok 0)] (.ok 0)
  | whole (buf : Bytes) (nonempty : buf ≠ []) :
      Sending buf [.rawWrite buf (.ok buf.length)] (.ok buf.length)
  | part (buf : Bytes) (count : Nat) {more : List DeviceCall} {result : Expected Nat}
      (positive : 0 < count) (short : count < buf.length)
      (rest : Sending (buf.drop count) more result) :
      Sending buf (.rawWrite buf (.ok count) :: more) result

section Loop

variable {Device : Type} {raw : SeekableStream Device} {buf : Bytes} {log : List DeviceCall}
  {result : Expected Nat}

/-- The call carried bytes, and the device answered it. -/
def Answered (raw : Stream Device) : DeviceCall → Prop
  | .rawWrite bytes reply =>
      bytes ≠ [] ∧ ∃ device next, raw.rawWrite device bytes = (reply, next)
  | .rawSeek _ _ => False

theorem record_rawWrite {recorded : Recorded Device} {bytes : Bytes} {reply : Expected Nat}
    {device : Device} (answer : raw.rawWrite recorded.device bytes = (reply, device)) :
    (record raw).rawWrite recorded bytes =
      (reply, ⟨device, recorded.log ++ [.rawWrite bytes reply]⟩) := by
  simp [record, answer]

theorem writeLoop_sending (counts : Counts raw.toStream) (fuel : Nat) (recorded : Recorded Device)
    (nonempty : buf ≠ []) (enough : buf.length ≤ fuel) :
    ∃ result next more,
      writeLoop (record raw).toStream fuel recorded buf = .ok (result, next) ∧
        next.log = recorded.log ++ more ∧ Sending buf more result ∧
        ∀ call ∈ more, Answered raw.toStream call := by
  induction fuel generalizing recorded buf with
  | zero => exact absurd (List.length_eq_zero_iff.1 (Nat.le_zero.1 enough)) nonempty
  | succ fuel ih =>
      cases answer : raw.rawWrite recorded.device buf with
      | mk reply device =>
          have answered : Answered raw.toStream (.rawWrite buf reply) :=
            ⟨nonempty, _, _, answer⟩
          have one : ∀ call ∈ [.rawWrite buf reply], Answered raw.toStream call := by
            intro call member
            rw [List.mem_singleton.1 member]
            exact answered
          unfold writeLoop
          rw [record_rawWrite answer]
          cases reply with
          | error code => exact ⟨.error code, _, _, rfl, rfl, .failed buf code, one⟩
          | ok count =>
              have fits := counts _ _ _ _ answer
              change ∃ result next more,
                (if 0 < count ∧ count ≠ buf.length then _ else _) = _ ∧ _
              by_cases again : 0 < count ∧ count ≠ buf.length
              · obtain ⟨positive, notWhole⟩ := again
                have short : count < buf.length := Nat.lt_of_le_of_ne fits notWhole
                have restNonempty : buf.drop count ≠ [] := by
                  intro none
                  have used := List.drop_eq_nil_iff.1 none
                  omega
                have restEnough : (buf.drop count).length ≤ fuel := by
                  rw [List.length_drop]
                  omega
                obtain ⟨result, next, more, sent, log, sending, all⟩ :=
                  ih ⟨device, recorded.log ++ [.rawWrite buf (.ok count)]⟩ restNonempty restEnough
                rw [if_pos ⟨positive, notWhole⟩, if_pos fits]
                refine ⟨result, next, _, sent, ?_, .part buf count positive short sending, ?_⟩
                · rw [log, List.append_assoc]
                  rfl
                · intro call member
                  rcases List.mem_cons.1 member with first | later
                  · rw [first]
                    exact answered
                  · exact all call later
              · rw [if_neg again]
                refine ⟨.ok count, _, _, rfl, rfl, ?_, one⟩
                by_cases none : count = 0
                · rw [none]
                  exact .nothing buf
                · have whole : count = buf.length := by
                    by_contra notWhole
                    exact again ⟨Nat.pos_of_ne_zero none, notWhole⟩
                  rw [whole]
                  exact .whole buf nonempty

theorem Sending.first (sending : Sending buf log result) :
    ∃ reply rest, log = .rawWrite buf reply :: rest := by
  cases sending <;> exact ⟨_, _, rfl⟩

/-- A loop that ends well has sent all the bytes, and no call of it stalled. -/
theorem Sending.complete (sending : Sending buf log result) {count : Nat}
    (ends : result = .ok (count + 1)) :
    received log = buf ∧ (∀ call ∈ log, ¬call.Stalled) ∧ Settled log := by
  induction sending with
  | failed buf code => cases ends
  | nothing buf => cases ends
  | whole buf nonempty =>
      refine ⟨?_, ?_, ?_⟩
      · change buf.take buf.length ++ [] = buf
        rw [List.take_length, List.append_nil]
      · intro call member stalled
        rw [List.mem_singleton.1 member] at stalled
        exact nonempty (List.length_eq_zero_iff.1 stalled)
      · intro more smooth
        apply List.IsChain.cons smooth
        intro _ _ partly
        exact absurd partly.2 (Nat.lt_irrefl _)
  | part buf count positive short rest ih =>
      obtain ⟨all, unstalled, settled⟩ := ih ends
      refine ⟨?_, ?_, ?_⟩
      · change buf.take count ++ received _ = buf
        rw [all, List.take_append_drop]
      · intro call member stalled
        rcases List.mem_cons.1 member with first | later
        · rw [first] at stalled
          exact absurd stalled (Nat.ne_of_gt positive)
        · exact unstalled call later stalled
      · intro more smooth
        obtain ⟨reply, tail, shape⟩ := rest.first
        apply List.IsChain.cons (settled more smooth)
        intro next first _
        apply unstalled next
        rw [shape] at first ⊢
        cases first
        exact List.mem_cons_self

/-- A loop that ends badly stops at a call that stalled; in a smooth log there is no
other call before it. -/
theorem Sending.stopped (sending : Sending buf log result)
    (ends : ∀ count, result ≠ .ok (count + 1)) :
    (∃ call ∈ log, call.Stalled) ∧ (Smooth log → ∃ call, log = [call] ∧ call.Stalled) := by
  induction sending with
  | failed buf code =>
      exact ⟨⟨_, List.mem_singleton_self _, trivial⟩, fun _ => ⟨_, rfl, trivial⟩⟩
  | nothing buf => exact ⟨⟨_, List.mem_singleton_self _, rfl⟩, fun _ => ⟨_, rfl, rfl⟩⟩
  | whole buf nonempty =>
      obtain ⟨less, countEq⟩ :=
        Nat.exists_eq_succ_of_ne_zero (Nat.ne_of_gt (List.length_pos_of_ne_nil nonempty))
      exact absurd (congrArg Except.ok countEq) (ends less)
  | part buf count positive short rest ih =>
      obtain ⟨⟨call, member, stalled⟩, only⟩ := ih ends
      refine ⟨⟨call, List.mem_cons_of_mem _ member, stalled⟩, ?_⟩
      intro smooth
      obtain ⟨next, shape, stalled⟩ := only smooth.of_cons
      rw [shape] at smooth
      exact absurd stalled ((List.isChain_cons_cons.1 smooth).1 ⟨positive, short⟩)

end Loop

/-! ### What a call sends -/

section Calls

variable {Device : Type} {raw : SeekableStream Device}
  {stream middle next : BorrowedStream (Recorded Device)}

def buffered (stream : BorrowedStream (Recorded Device)) : Bytes :=
  stream.mOutBuffer.data.take stream.mOutIndex

/-- The bytes the device has received, and those that are to follow. -/
def output (stream : BorrowedStream (Recorded Device)) : Bytes :=
  received stream.mRaw.log ++ buffered stream

/-- A call that is to add the bytes `full`, with the calls it makes to the device. A call
that fails adds a first part of them, unless the device spoils it. -/
structure Sends (raw : Stream Device) (stream : BorrowedStream (Recorded Device)) (full : Bytes)
    (calls : List DeviceCall) (result : Expected Unit)
    (next : BorrowedStream (Recorded Device)) : Prop where
  valid : Valid next
  log : next.mRaw.log = stream.mRaw.log ++ calls
  answered : ∀ call ∈ calls, Answered raw call
  settled : result = .ok () → Settled calls
  kept : Smooth calls → ∃ bytes, bytes <+: full ∧ (result = .ok () → bytes = full) ∧
    output next = output stream ++ bytes

theorem Sends.trans {first second : Bytes} {calls more : List DeviceCall}
    {result : Expected Unit} (sends : Sends raw.toStream stream first calls (.ok ()) middle)
    (then_sends : Sends raw.toStream middle second more result next) :
    Sends raw.toStream stream (first ++ second) (calls ++ more) result next where
  valid := then_sends.valid
  log := by
    rw [then_sends.log, sends.log, List.append_assoc]
  answered := by
    intro call member
    rcases List.mem_append.1 member with early | late
    · exact sends.answered call early
    · exact then_sends.answered call late
  settled := by
    intro ends
    exact (sends.settled rfl).append (then_sends.settled ends)
  kept := by
    intro smooth
    obtain ⟨bytes, _, whole, outputMiddle⟩ := sends.kept smooth.left
    obtain ⟨later, front, all, outputNext⟩ := then_sends.kept smooth.right
    rw [whole rfl] at outputMiddle
    refine ⟨first ++ later, ?_, ?_, ?_⟩
    · exact (List.prefix_append_right_inj first).2 front
    · intro ends
      rw [all ends]
    · rw [outputNext, outputMiddle, List.append_assoc]

theorem Sends.widen {first full : Bytes} {calls : List DeviceCall} {code : ErrorCode}
    (sends : Sends raw.toStream stream first calls (.error code) next) (front : first <+: full) :
    Sends raw.toStream stream full calls (.error code) next where
  valid := sends.valid
  log := sends.log
  answered := sends.answered
  settled := nofun
  kept := by
    intro smooth
    obtain ⟨bytes, part, _, same⟩ := sends.kept smooth
    exact ⟨bytes, part.trans front, nofun, same⟩

theorem Sends.still {bytes : Bytes} (valid : Valid next) (device : next.mRaw = stream.mRaw)
    (added : buffered next = buffered stream ++ bytes) :
    Sends raw.toStream stream bytes [] (.ok ()) next where
  valid := valid
  log := by
    rw [device, List.append_nil]
  answered := nofun
  settled := fun _ => .nil
  kept := by
    intro _
    refine ⟨bytes, List.prefix_rfl, fun _ => rfl, ?_⟩
    unfold output
    rw [device, added, List.append_assoc]

theorem store_sends (raw : SeekableStream Device) (valid : Valid stream) (bytes : Bytes)
    (fits : stream.mOutIndex + bytes.length ≤ stream.mOutBuffer.size) :
    ∃ buffer, stream.mOutBuffer.write stream.mOutIndex bytes = .ok buffer ∧
      buffer.size = stream.mOutBuffer.size ∧
      Sends raw.toStream stream bytes [] (.ok ()) { stream with
        mOutBuffer := buffer
        mOutIndex := stream.mOutIndex + bytes.length } := by
  obtain ⟨buffer, stored, size, validNext, contents⟩ :=
    StreamWrites.store_valid valid bytes fits
  exact ⟨buffer, stored, size, .still validNext rfl contents⟩

/-! ### The calls -/

/-- Either nothing is left in the buffer, or the device stalled. -/
def Emptied (calls : List DeviceCall) (next : BorrowedStream (Recorded Device)) : Prop :=
  next.mOutIndex = 0 ∨ ∃ call ∈ calls, call.Stalled

theorem settle_sends {recorded : Recorded Device} {calls : List DeviceCall}
    {len : Expected Nat} (valid : Valid stream)
    (log : recorded.log = stream.mRaw.log ++ calls)
    (answered : ∀ call ∈ calls, Answered raw.toStream call)
    (sending : Sending (buffered stream) calls len) :
    ∃ result next, settle (record raw).toStream { stream with mRaw := recorded } len =
        (result, next) ∧
      Sends raw.toStream stream [] calls result next ∧ Emptied calls next ∧
      (result = .ok () → next.mOutIndex = 0 ∧ next.mOutBuffer = stream.mOutBuffer) := by
  have stops (code : ErrorCode) (ends : ∀ count, len ≠ .ok (count + 1)) :
      Sends raw.toStream stream [] calls (.error code) { stream with mRaw := recorded } ∧
        Emptied calls { stream with mRaw := recorded } := by
    obtain ⟨stalls, only⟩ := sending.stopped ends
    refine ⟨⟨⟨valid.inside, valid.capacity⟩, log, answered, nofun, ?_⟩, .inr stalls⟩
    intro smooth
    obtain ⟨call, alone, stalled⟩ := only smooth
    have nothing : received calls = [] := by
      rw [alone]
      exact List.append_eq_nil_iff.2 ⟨taken_of_stalled stalled, rfl⟩
    refine ⟨[], List.prefix_rfl, fun _ => rfl, ?_⟩
    unfold output
    change received recorded.log ++ buffered stream = _
    rw [log, received_append, nothing, List.append_nil, List.append_nil]
  cases len with
  | error code =>
      obtain ⟨sends, emptied⟩ := stops code nofun
      exact ⟨.error code, _, rfl, sends, emptied, nofun⟩
  | ok count =>
      cases count with
      | zero =>
          obtain ⟨sends, emptied⟩ := stops .eofError nofun
          exact ⟨.error .eofError, _, rfl, sends, emptied, nofun⟩
      | succ count =>
          obtain ⟨all, _, settled⟩ := sending.complete rfl
          refine ⟨(raw.rawFlush recorded.device).1, _, rfl, ?_, .inl rfl, fun _ => ⟨rfl, rfl⟩⟩
          constructor
          case valid => exact ⟨Nat.zero_le _, valid.capacity⟩
          case log => exact log
          case answered => exact answered
          case settled => exact fun _ => settled
          case kept =>
            intro _
            refine ⟨[], List.prefix_rfl, fun _ => rfl, ?_⟩
            unfold output
            change received recorded.log ++ [] = received stream.mRaw.log ++ buffered stream ++ []
            rw [log, received_append, all]

theorem flush_history (counts : Counts raw.toStream) (valid : Valid stream) (fuel : Nat)
    (enough : kStreamBufferSize ≤ fuel) :
    ∃ result next calls, stream.flush (record raw).toStream fuel = .ok (result, next) ∧
      Sends raw.toStream stream [] calls result next ∧ Emptied calls next ∧
      (result = .ok () → Flushed next) := by
  cases allocated : stream.mOutBuffer.mData with
  | none =>
      have flushed : Flushed { stream with
          mOutBuffer := .allocate kStreamBufferSize
          mOutIndex := 0 } := ⟨rfl, List.length_replicate⟩
      have nothing : buffered stream = [] := take_unallocated allocated _
      refine ⟨.ok (), _, [], ?_, .still flushed.valid rfl ?_, .inl rfl, fun _ => flushed⟩
      · unfold flush allocoutbuf
        rw [allocated]
      · rw [nothing]
        rfl
  | some block =>
      have size := valid.size allocated
      unfold flush
      rw [allocated]
      change ∃ result next calls, (if stream.mOutIndex = 0 then _ else _) = _ ∧ _
      by_cases empty : stream.mOutIndex = 0
      · rw [if_pos empty]
        refine ⟨.ok (), stream, [], rfl, .still valid rfl ?_, .inl empty, fun _ => ⟨empty, size⟩⟩
        rw [List.append_nil]
      · rw [if_neg empty]
        have inside := valid.inside
        obtain ⟨length, nonempty, read⟩ := block_to_send inside empty
        obtain ⟨len, recorded, calls, sent, log, sending, answered⟩ :=
          writeLoop_sending counts fuel stream.mRaw nonempty (by omega)
        obtain ⟨result, next, settles, sends, emptied, kept⟩ :=
          settle_sends valid log answered sending
        refine ⟨result, next, calls, ?_, sends, emptied, ?_⟩
        · change (stream.mOutBuffer.read 0 stream.mOutIndex).bind _ = _
          rw [read]
          change (writeLoop (record raw).toStream fuel stream.mRaw _).bind _ = _
          rw [sent, ← settles]
          rfl
        · intro ends
          obtain ⟨index, same⟩ := kept ends
          refine ⟨index, ?_⟩
          rw [same]
          exact size

theorem putchar_history (counts : Counts raw.toStream) (valid : Valid stream) (c : UInt8)
    (fuel : Nat) (enough : kStreamBufferSize ≤ fuel) :
    ∃ result next calls, stream.putchar (record raw).toStream fuel c = .ok (result, next) ∧
      Sends raw.toStream stream [c] calls result next := by
  have opens : ∃ result opened calls,
      flushIfFull (record raw).toStream fuel stream = .ok (result, opened) ∧
        Sends raw.toStream stream [] calls result opened ∧
        (result = .ok () → opened.mOutIndex + 1 ≤ opened.mOutBuffer.size) := by
    unfold flushIfFull
    by_cases full : stream.mOutIndex = stream.mOutBuffer.size
    · obtain ⟨result, opened, calls, done, sends, _, flushed⟩ :=
        flush_history counts valid fuel enough
      have isFull : stream.buffull = true := decide_eq_true full
      rw [if_pos isFull]
      refine ⟨result, opened, calls, done, sends, ?_⟩
      intro ends
      rw [(flushed ends).index, (flushed ends).size]
      exact Nat.le_of_ble_eq_true rfl
    · have inside := valid.inside
      have notFull : ¬stream.buffull = true := by simpa [buffull] using full
      rw [if_neg notFull]
      refine ⟨.ok (), stream, [], rfl, .still valid rfl (List.append_nil _).symm, ?_⟩
      intro _
      omega
  obtain ⟨result, opened, calls, done, sends, room⟩ := opens
  unfold putchar
  rw [done]
  cases result with
  | error code => exact ⟨.error code, opened, calls, rfl, sends.widen List.nil_prefix⟩
  | ok _ =>
      obtain ⟨buffer, stored, _, stores⟩ :=
        store_sends raw sends.valid [c] (room rfl)
      refine ⟨.ok (), _, _, ?_, sends.trans stores⟩
      change (opened.mOutBuffer.write opened.mOutIndex [c]).bind _ = _
      rw [stored]
      rfl

theorem putspanLoop_room (raw : SeekableStream Device) (valid : Valid stream) (p : Bytes)
    (limit fuel : Nat) (fits : p.length ≤ stream.mOutBuffer.size - stream.mOutIndex) :
    ∃ next,
      putspanLoop (record raw).toStream limit (fuel + 1) stream p = .ok (.ok (), next) ∧
        Sends raw.toStream stream p [] (.ok ()) next := by
  have inside := valid.inside
  obtain ⟨buffer, stored, _, stores⟩ := store_sends raw valid p (by omega)
  refine ⟨_, ?_, stores⟩
  rw [putspanLoop, if_pos fits]
  change (stream.mOutBuffer.write stream.mOutIndex p).bind _ = _
  rw [stored]
  rfl

theorem putspanLoop_step (counts : Counts raw.toStream) (valid : Valid stream) (p : Bytes)
    (limit fuel : Nat) (enough : kStreamBufferSize ≤ limit) :
    (∃ result next calls,
        putspanLoop (record raw).toStream limit (fuel + 1) stream p = .ok (result, next) ∧
          Sends raw.toStream stream p calls result next) ∨
      stream.mOutBuffer.size - stream.mOutIndex < p.length ∧
        ∃ next calls,
          putspanLoop (record raw).toStream limit (fuel + 1) stream p =
              putspanLoop (record raw).toStream limit fuel next
                (p.drop (stream.mOutBuffer.size - stream.mOutIndex)) ∧
            Flushed next ∧
            Sends raw.toStream stream (p.take (stream.mOutBuffer.size - stream.mOutIndex)) calls
              (.ok ()) next := by
  have inside := valid.inside
  by_cases fits : p.length ≤ stream.mOutBuffer.size - stream.mOutIndex
  · left
    obtain ⟨next, done, sends⟩ := putspanLoop_room raw valid p limit fuel fits
    exact ⟨.ok (), next, [], done, sends⟩
  · have length : (p.take (stream.mOutBuffer.size - stream.mOutIndex)).length =
        stream.mOutBuffer.size - stream.mOutIndex := by
      rw [List.length_take]
      omega
    obtain ⟨buffer, stored, _, stores⟩ :=
      store_sends raw valid (p.take (stream.mOutBuffer.size - stream.mOutIndex))
        (by omega)
    rw [length, Nat.add_sub_of_le inside] at stores
    obtain ⟨result, next, calls, done, sends, _, flushed⟩ :=
      flush_history counts stores.valid limit enough
    have both := stores.trans sends
    rw [List.append_nil, List.nil_append] at both
    rw [putspanLoop_full fits stored done]
    cases result with
    | error code =>
        left
        exact ⟨.error code, next, calls, rfl, both.widen (List.take_prefix _ p)⟩
    | ok _ =>
        right
        have same : { next with mOutIndex := 0 } = next := by
          rw [← (flushed rfl).index]
        rw [same]
        exact ⟨Nat.lt_of_not_le fits, next, calls, rfl, flushed rfl, both⟩

theorem putspanLoop_history (counts : Counts raw.toStream) (flushed : Flushed stream) (p : Bytes)
    (limit fuel : Nat) (enough : kStreamBufferSize ≤ limit) (passes : p.length < fuel) :
    ∃ result next calls,
      putspanLoop (record raw).toStream limit fuel stream p = .ok (result, next) ∧
        Sends raw.toStream stream p calls result next := by
  induction fuel generalizing stream p with
  | zero => omega
  | succ fuel ih =>
      rcases putspanLoop_step counts flushed.valid p limit fuel enough with
        done | ⟨long, middle, calls, again, flushedMiddle, sends⟩
      · exact done
      · have positive : 0 < stream.mOutBuffer.size - stream.mOutIndex := by
          rw [flushed.index, flushed.size]
          exact Nat.zero_lt_succ _
        obtain ⟨result, next, more, done, sendsRest⟩ := ih flushedMiddle
          (p.drop (stream.mOutBuffer.size - stream.mOutIndex)) (by
            rw [List.length_drop]
            omega)
        have both := sends.trans sendsRest
        rw [List.take_append_drop] at both
        exact ⟨result, next, _, again.trans done, both⟩

theorem putspan_history (counts : Counts raw.toStream) (valid : Valid stream) (s : Bytes)
    (fuel : Nat) (enough : kStreamBufferSize ≤ fuel) (passes : s.length + 1 < fuel) :
    ∃ result next calls, stream.putspan (record raw).toStream fuel s = .ok (result, next) ∧
      Sends raw.toStream stream s calls result next := by
  obtain ⟨less, fuelEq⟩ : ∃ less, fuel = less + 1 := ⟨fuel - 1, by omega⟩
  have first := putspanLoop_step counts valid s fuel less enough
  rw [← fuelEq] at first
  unfold putspan
  rcases first with done | ⟨long, middle, calls, again, flushedMiddle, sends⟩
  · exact done
  · obtain ⟨result, next, more, done, sendsRest⟩ := putspanLoop_history counts flushedMiddle
      (s.drop (stream.mOutBuffer.size - stream.mOutIndex)) fuel less enough (by
        rw [List.length_drop]
        omega)
    have both := sends.trans sendsRest
    rw [List.take_append_drop] at both
    exact ⟨result, next, _, again.trans done, both⟩

theorem trywrite_history (raw : SeekableStream Device) (valid : Valid stream) (s : Bytes) :
    ∃ n next, stream.trywrite s = .ok (n, next) ∧ n ≤ s.length ∧
      Sends raw.toStream stream (s.take n) [] (.ok ()) next := by
  obtain ⟨validOpened, device, same⟩ := allocoutbuf_keeps valid
  unfold trywrite
  generalize stream.allocoutbuf kStreamBufferSize = opened at validOpened device same ⊢
  have inside := validOpened.inside
  have opens : Sends raw.toStream stream [] [] (.ok ()) opened := by
    apply Sends.still validOpened device
    unfold buffered
    rw [same, List.append_nil]
  change ∃ n next, (if s.length ≤ opened.mOutBuffer.size - opened.mOutIndex then _ else _) = _ ∧ _
  by_cases fits : s.length ≤ opened.mOutBuffer.size - opened.mOutIndex
  · obtain ⟨buffer, stored, _, stores⟩ := store_sends raw validOpened s (by omega)
    rw [if_pos fits]
    refine ⟨s.length, { opened with
      mOutBuffer := buffer
      mOutIndex := opened.mOutIndex + s.length }, ?_, Nat.le_refl _, ?_⟩
    · change (opened.mOutBuffer.write opened.mOutIndex s).bind _ = _
      rw [stored]
      rfl
    · rw [List.take_length]
      exact opens.trans stores
  · have length : (s.take (opened.mOutBuffer.size - opened.mOutIndex)).length =
        opened.mOutBuffer.size - opened.mOutIndex := by
      rw [List.length_take]
      omega
    obtain ⟨buffer, stored, _, stores⟩ := store_sends raw validOpened
      (s.take (opened.mOutBuffer.size - opened.mOutIndex)) (by omega)
    rw [length, Nat.add_sub_of_le inside] at stores
    rw [if_neg fits]
    refine ⟨opened.mOutBuffer.size - opened.mOutIndex, _, ?_, by omega, opens.trans stores⟩
    change (opened.mOutBuffer.write opened.mOutIndex _).bind _ = _
    rw [stored]
    rfl

theorem putchunk_history (counts : Counts raw.toStream) (valid : Valid stream) (s : Bytes)
    (fuel : Nat) (enough : kStreamBufferSize ≤ fuel) (passes : s.length + 1 < fuel) :
    ∃ result next calls, stream.putchunk (record raw).toStream fuel s = .ok (result, next) ∧
      Sends raw.toStream stream s calls result next := by
  obtain ⟨put, filled, calls, done, sends⟩ := putspan_history counts valid s fuel enough passes
  unfold putchunk puts
  rw [done]
  cases put with
  | error code => exact ⟨.error code, filled, calls, rfl, sends⟩
  | ok _ =>
      obtain ⟨result, next, more, flushes, sendsRest, _⟩ :=
        flush_history counts sends.valid fuel enough
      have both := sends.trans sendsRest
      rw [List.append_nil] at both
      exact ⟨result, next, _, flushes, both⟩

theorem putline_history (counts : Counts raw.toStream) (valid : Valid stream) (s : Bytes)
    (fuel : Nat) (enough : kStreamBufferSize ≤ fuel) (passes : s.length + 1 < fuel) :
    ∃ result next calls, stream.putline (record raw).toStream fuel s = .ok (result, next) ∧
      Sends raw.toStream stream (s ++ [newline]) calls result next := by
  obtain ⟨put, filled, calls, done, sends⟩ := putspan_history counts valid s fuel enough passes
  unfold putline puts
  rw [done]
  cases put with
  | error code =>
      exact ⟨.error code, filled, calls, rfl, sends.widen (List.prefix_append s [newline])⟩
  | ok _ =>
      obtain ⟨put, ended, more, ends, sendsEnd⟩ :=
        putchar_history counts sends.valid newline fuel enough
      have line := sends.trans sendsEnd
      change ∃ result next calls, (filled.putchar (record raw).toStream fuel newline).bind _ = _ ∧ _
      rw [ends]
      cases put with
      | error code => exact ⟨.error code, ended, _, rfl, line⟩
      | ok _ =>
          obtain ⟨result, next, last, flushes, sendsRest, _⟩ :=
            flush_history counts line.valid fuel enough
          have all := line.trans sendsRest
          rw [List.append_nil] at all
          exact ⟨result, next, _, flushes, all⟩

/-- The outcome of a call; trywrite has no other than success. -/
def outcome : StreamWrites.Receipt → Expected Unit
  | .done result => result
  | .count _ => .ok ()

theorem perform_history (counts : Counts raw.toStream) (valid : Valid stream)
    (writing : StreamWrites.Writing) (fuel : Nat) (enough : kStreamBufferSize ≤ fuel)
    (passes : writing.argument.length + 1 < fuel) :
    ∃ receipt next calls,
      writing.perform (record raw).toStream fuel stream = .ok (receipt, next) ∧
        Sends raw.toStream stream (writing.accepted receipt) calls (outcome receipt) next := by
  cases writing with
  | putchar c =>
      obtain ⟨result, next, calls, done, sends⟩ := putchar_history counts valid c fuel enough
      refine ⟨.done result, next, calls, ?_, sends⟩
      rw [StreamWrites.Writing.perform, done]
      rfl
  | putspan s =>
      obtain ⟨result, next, calls, done, sends⟩ :=
        putspan_history counts valid s fuel enough passes
      refine ⟨.done result, next, calls, ?_, sends⟩
      rw [StreamWrites.Writing.perform, done]
      rfl
  | puts s =>
      obtain ⟨result, next, calls, done, sends⟩ :=
        putspan_history counts valid s fuel enough passes
      refine ⟨.done result, next, calls, ?_, sends⟩
      rw [StreamWrites.Writing.perform, puts, done]
      rfl
  | putstruct s =>
      obtain ⟨result, next, calls, done, sends⟩ :=
        putspan_history counts valid s fuel enough passes
      refine ⟨.done result, next, calls, ?_, sends⟩
      rw [StreamWrites.Writing.perform, putstruct, done]
      rfl
  | trywrite s =>
      obtain ⟨n, next, done, _, sends⟩ := trywrite_history raw valid s
      refine ⟨.count n, next, [], ?_, sends⟩
      rw [StreamWrites.Writing.perform, done]
      rfl
  | putline s =>
      obtain ⟨result, next, calls, done, sends⟩ :=
        putline_history counts valid s fuel enough passes
      refine ⟨.done result, next, calls, ?_, sends⟩
      rw [StreamWrites.Writing.perform, done]
      rfl
  | putchunk s =>
      obtain ⟨result, next, calls, done, sends⟩ :=
        putchunk_history counts valid s fuel enough passes
      refine ⟨.done result, next, calls, ?_, sends⟩
      rw [StreamWrites.Writing.perform, done]
      rfl
  | flush =>
      obtain ⟨result, next, calls, done, sends, _⟩ :=
        flush_history counts valid fuel enough
      refine ⟨.done result, next, calls, ?_, sends⟩
      rw [StreamWrites.Writing.perform, done]
      rfl

end Calls

end StreamHistories

end MCoro
