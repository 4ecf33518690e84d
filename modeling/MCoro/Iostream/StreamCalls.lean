/-
Runs of puts, flushes, write and seek on one stream.

write goes past the buffer when the buffer is full, and seek empties it without
sending it. As long as neither meets bytes that wait in the buffer, and no flush
fails behind a piece it has sent, what the device has received with what is
buffered is what the calls accepted, in the order of the calls.
-/

import MCoro.Iostream.StreamHistories

namespace MCoro.StreamHistories

open Segments
open BorrowedStream
open StreamWrites (Valid Flushed Writing Receipt)

/-! ### The calls -/

inductive Call where
  | put (writing : Writing)
  | write (buffer : Bytes)
  | seek (pos : Nat)
  deriving DecidableEq, Repr

inductive Answer where
  | put (receipt : Receipt)
  | wrote (result : Expected Nat)
  | moved (result : Expected Unit)

def Answer.outcome : Answer → Expected Unit
  | put receipt => StreamHistories.outcome receipt
  | wrote (.ok _) => .ok ()
  | wrote (.error code) => .error code
  | moved result => result

namespace Call

def perform {Device : Type} (raw : SeekableStream Device) (fuel : Nat)
    (stream : BorrowedStream Device) :
    Call → Except BufferFault (Answer × BorrowedStream Device)
  | put writing => do
      let (receipt, stream) ← writing.perform raw.toStream fuel stream
      return (.put receipt, stream)
  | write buffer => do
      let (result, stream) ← stream.write raw.toStream fuel buffer
      return (.wrote result, stream)
  | seek pos =>
      let (result, stream) := stream.seek raw pos
      .ok (.moved result, stream)

def argument : Call → Bytes
  | put writing => writing.argument
  | write buffer => buffer
  | seek _ => []

def accepted : Call → Answer → Bytes
  | put writing, .put receipt => writing.accepted receipt
  | write buffer, .wrote (.ok n) => buffer.take n
  | _, _ => []

/-- A call that fails may have accepted a first part. -/
def Accepts (call : Call) (answer : Answer) (bytes : Bytes) : Prop :=
  bytes <+: call.accepted answer ∧ (answer.outcome = .ok () → bytes = call.accepted answer)

end Call

/-- The concatenation of what the calls accepted. -/
inductive Accepted : List Call → List Answer → Bytes → Prop
  | nil : Accepted [] [] []
  | cons {call : Call} {answer : Answer} {bytes more : Bytes} {calls : List Call}
      {answers : List Answer} (one : call.Accepts answer bytes)
      (rest : Accepted calls answers more) :
      Accepted (call :: calls) (answer :: answers) (bytes ++ more)

def acceptedBy (calls : List Call) (answers : List Answer) : Bytes :=
  (List.zipWith Call.accepted calls answers).flatten

theorem Accepted.whole {calls : List Call} {answers : List Answer} {bytes : Bytes}
    (accepted : Accepted calls answers bytes)
    (succeeded : ∀ answer ∈ answers, answer.outcome = .ok ()) :
    bytes = acceptedBy calls answers := by
  induction accepted with
  | nil => rfl
  | cons one rest ih =>
      have same := one.2 (succeeded _ List.mem_cons_self)
      have others := ih fun answer member => succeeded answer (List.mem_cons_of_mem _ member)
      rw [same, others]
      rfl

theorem Accepted.length_le {calls : List Call} {answers : List Answer} {bytes : Bytes}
    (accepted : Accepted calls answers bytes) :
    bytes.length ≤ (acceptedBy calls answers).length := by
  induction accepted with
  | nil => exact Nat.le_refl _
  | cons one rest ih =>
      change _ ≤ (Call.accepted _ _ ++ acceptedBy _ _).length
      rw [List.length_append, List.length_append]
      exact Nat.add_le_add one.1.length_le ih

section Steps

variable {Device : Type} {raw : SeekableStream Device}
  {stream next : BorrowedStream (Recorded Device)}

/-- The call meets no bytes that wait, or lets none pass. -/
def Orderly (raw : Stream Device) (stream : BorrowedStream (Recorded Device)) : Call → Prop
  | .put _ => True
  | .write buffer => stream.buffull = true → stream.mOutIndex = 0 ∨
      ∀ count, (raw.rawWrite stream.mRaw.device buffer).1 = .ok count → buffer.take count = []
  | .seek _ => stream.mOutIndex = 0

theorem write_room (raw : SeekableStream Device) (valid : Valid stream) (buffer : Bytes)
    {fuel : Nat} (enough : 0 < fuel) (room : ¬stream.buffull = true) :
    ∃ n next, stream.write (record raw).toStream fuel buffer = .ok (.ok n, next) ∧
      Sends raw.toStream stream (buffer.take n) [] (.ok ()) next := by
  obtain ⟨fuel, rfl⟩ : ∃ less, fuel = less + 1 := ⟨fuel - 1, by omega⟩
  have fits : (buffer.take (min (stream.mOutBuffer.size - stream.mOutIndex)
      buffer.length)).length ≤ stream.mOutBuffer.size - stream.mOutIndex := by
    rw [List.length_take]
    omega
  obtain ⟨next, put, sends⟩ := putspanLoop_room raw valid _ (fuel + 1) fuel fits
  refine ⟨_, next, ?_, sends⟩
  unfold BorrowedStream.write
  rw [if_neg room]
  change (stream.putspan (record raw).toStream (fuel + 1) _).bind _ = _
  rw [putspan, put]
  rfl

theorem write_full (raw : SeekableStream Device) (buffer : Bytes) (fuel : Nat)
    (full : stream.buffull = true) {reply : Expected Nat} {device : Device}
    (answer : raw.rawWrite stream.mRaw.device buffer = (reply, device)) :
    stream.write (record raw).toStream fuel buffer =
      .ok (reply, { stream with
        mRaw := ⟨device, stream.mRaw.log ++ [.rawWrite buffer reply]⟩ }) := by
  unfold BorrowedStream.write
  rw [if_pos full, record_rawWrite answer]

theorem seek_moves (raw : SeekableStream Device) (pos : Nat) {device : Device}
    (answer : raw.rawSeek stream.mRaw.device pos = (.ok (), device)) :
    stream.seek (record raw) pos =
      (.ok (), { stream with
        mInIndex := 0
        mInEnd := 0
        mOutIndex := 0
        mRaw := ⟨device, stream.mRaw.log ++ [.rawSeek pos (.ok ())]⟩ }) := by
  simp [BorrowedStream.seek, record, answer]

theorem seek_stays (raw : SeekableStream Device) (pos : Nat) {device : Device} {code : ErrorCode}
    (answer : raw.rawSeek stream.mRaw.device pos = (.error code, device)) :
    stream.seek (record raw) pos =
      (.error code, { stream with
        mRaw := ⟨device, stream.mRaw.log ++ [.rawSeek pos (.error code)]⟩ }) := by
  simp [BorrowedStream.seek, record, answer]

theorem seek_performed {pos : Nat} (fuel : Nat) {result : Expected Unit}
    (sought : stream.seek (record raw) pos = (result, next)) :
    (Call.seek pos).perform (record raw) fuel stream = .ok (.moved result, next) := by
  rw [Call.perform, sought]

/-- What a call does; `log` is what it adds to the history of the device. -/
structure Step (raw : SeekableStream Device) (stream : BorrowedStream (Recorded Device))
    (call : Call) (answer : Answer) (log : List DeviceCall)
    (next : BorrowedStream (Recorded Device)) : Prop where
  valid : Valid next
  extends_log : next.mRaw.log = stream.mRaw.log ++ log
  stalls : (∀ buffer, call ≠ .write buffer) → ∀ entry ∈ log, entry.Stalled →
    Answered raw.toStream entry
  kept : Orderly raw.toStream stream call → answer.outcome = .ok () ∨ Smooth log →
    ∃ bytes, call.Accepts answer bytes ∧ output next = output stream ++ bytes

theorem Sends.step {call : Call} {answer : Answer} {log : List DeviceCall}
    (sends : Sends raw.toStream stream (call.accepted answer) log answer.outcome next) :
    Step raw stream call answer log next where
  valid := sends.valid
  extends_log := sends.log
  stalls := fun _ entry member _ => sends.answered entry member
  kept := by
    intro _ unspoiled
    have smooth : Smooth log := unspoiled.elim (fun ends => (sends.settled ends).smooth) id
    obtain ⟨bytes, front, whole, same⟩ := sends.kept smooth
    exact ⟨bytes, ⟨front, whole⟩, same⟩

theorem Step.direct {call : Call} {answer : Answer} {entry : DeviceCall}
    (valid : Valid next) (log : next.mRaw.log = stream.mRaw.log ++ [entry])
    (stalls : (∀ buffer, call ≠ .write buffer) → ¬entry.Stalled)
    (accepts : call.accepted answer = entry.taken)
    (kept : Orderly raw.toStream stream call → buffered next = buffered stream ∧
      (entry.taken = [] ∨ buffered stream = [])) :
    Step raw stream call answer [entry] next where
  valid := valid
  extends_log := log
  stalls := by
    intro notWrite other member stalled
    rw [List.mem_singleton.1 member] at stalled
    exact absurd stalled (stalls notWrite)
  kept := by
    intro orderly _
    obtain ⟨same, free⟩ := kept orderly
    refine ⟨entry.taken, ⟨?_, fun _ => accepts.symm⟩, ?_⟩
    · rw [accepts]
    · unfold output
      rw [log, received_append, same]
      change received stream.mRaw.log ++ (entry.taken ++ []) ++ buffered stream = _
      rcases free with nothing | empty
      · rw [nothing]
        simp
      · rw [empty]
        simp

theorem perform_step (counts : Counts raw.toStream) (valid : Valid stream) (call : Call)
    (fuel : Nat) (enough : kStreamBufferSize ≤ fuel) (passes : call.argument.length + 1 < fuel) :
    ∃ answer next log, call.perform (record raw) fuel stream = .ok (answer, next) ∧
      Step raw stream call answer log next := by
  cases call with
  | put writing =>
      obtain ⟨receipt, next, log, done, sends⟩ :=
        perform_history counts valid writing fuel enough passes
      refine ⟨.put receipt, next, log, ?_, Sends.step sends⟩
      rw [Call.perform, done]
      rfl
  | write buffer =>
      by_cases full : stream.buffull = true
      · cases reply : raw.rawWrite stream.mRaw.device buffer with
        | mk result device =>
            have done : (Call.write buffer).perform (record raw) fuel stream =
                .ok (.wrote result, { stream with
                  mRaw := ⟨device, stream.mRaw.log ++ [.rawWrite buffer result]⟩ }) := by
              rw [Call.perform, write_full raw buffer fuel full reply]
              rfl
            refine ⟨_, _, [.rawWrite buffer result], done, ?_⟩
            apply Step.direct
            · exact ⟨valid.inside, valid.capacity⟩
            · rfl
            · intro notWrite
              exact absurd rfl (notWrite buffer)
            · cases result <;> rfl
            · intro orderly
              refine ⟨rfl, ?_⟩
              rcases orderly full with empty | nothing
              · right
                unfold buffered
                rw [empty, List.take_zero]
              · left
                rw [reply] at nothing
                cases result with
                | error code => rfl
                | ok count => exact nothing count rfl
      · obtain ⟨n, next, done, sends⟩ :=
          write_room raw valid buffer (Nat.lt_of_lt_of_le (Nat.zero_lt_succ _) enough) full
        refine ⟨.wrote (.ok n), next, [], ?_, Sends.step sends⟩
        rw [Call.perform, done]
        rfl
  | seek pos =>
      cases reply : raw.rawSeek stream.mRaw.device pos with
      | mk result device =>
          cases result with
          | error code =>
              have done := seek_performed fuel (seek_stays raw pos reply)
              refine ⟨_, _, [.rawSeek pos (.error code)], done, ?_⟩
              apply Step.direct
              · exact ⟨valid.inside, valid.capacity⟩
              · rfl
              · exact fun _ => id
              · rfl
              · exact fun _ => ⟨rfl, .inl rfl⟩
          | ok _ =>
              have done := seek_performed fuel (seek_moves raw pos reply)
              refine ⟨_, _, [.rawSeek pos (.ok ())], done, ?_⟩
              apply Step.direct
              · exact ⟨Nat.zero_le _, valid.capacity⟩
              · rfl
              · exact fun _ => id
              · rfl
              · intro empty
                have nothing : stream.mOutIndex = 0 := empty
                refine ⟨?_, .inl rfl⟩
                unfold buffered
                rw [nothing]

end Steps

/-! ### Runs -/

section Runs

variable {Device : Type} {raw : SeekableStream Device}
  {stream : BorrowedStream (Recorded Device)}

def run (raw : SeekableStream Device) (fuel : Nat) (stream : BorrowedStream Device) :
    List Call → Except BufferFault (List Answer × BorrowedStream Device)
  | [] => .ok ([], stream)
  | call :: rest => do
      let (answer, stream) ← call.perform raw fuel stream
      let (answers, stream) ← run raw fuel stream rest
      return (answer :: answers, stream)

/-- The condition holds before every call of the run. -/
def Throughout (raw : SeekableStream Device) (fuel : Nat)
    (condition : BorrowedStream Device → Call → Prop) : BorrowedStream Device → List Call → Prop
  | _, [] => True
  | stream, call :: rest => condition stream call ∧
      ∀ answer next, call.perform raw fuel stream = .ok (answer, next) →
        Throughout raw fuel condition next rest

theorem run_cons {calls : List Call} {call : Call} {fuel : Nat} {answer : Answer}
    {answers : List Answer} {next last : BorrowedStream (Recorded Device)}
    (done : call.perform (record raw) fuel stream = .ok (answer, next))
    (ran : run (record raw) fuel next calls = .ok (answers, last)) :
    run (record raw) fuel stream (call :: calls) = .ok (answer :: answers, last) := by
  rw [run, done]
  change (run (record raw) fuel next calls).bind _ = _
  rw [ran]
  rfl

/-- The run lemma; `steps` are the answers with what each call adds to the history. -/
theorem run_steps (counts : Counts raw.toStream) (valid : Valid stream) (calls : List Call)
    (fuel : Nat) (enough : kStreamBufferSize ≤ fuel)
    (passes : ∀ call ∈ calls, call.argument.length + 1 < fuel) :
    ∃ (steps : List (Answer × List DeviceCall)) (last : BorrowedStream (Recorded Device)),
      run (record raw) fuel stream calls = .ok (steps.map Prod.fst, last) ∧ Valid last ∧
        last.mRaw.log = stream.mRaw.log ++ steps.flatMap Prod.snd ∧
        ((∀ buffer, .write buffer ∉ calls) → ∀ step ∈ steps, ∀ entry ∈ step.2, entry.Stalled →
          Answered raw.toStream entry) ∧
        (Throughout (record raw) fuel (Orderly raw.toStream) stream calls →
          (∀ step ∈ steps, step.1.outcome = .ok () ∨ Smooth step.2) →
          ∃ bytes, Accepted calls (steps.map Prod.fst) bytes ∧
            output last = output stream ++ bytes) := by
  induction calls generalizing stream with
  | nil =>
      refine ⟨[], stream, rfl, valid, ?_, nofun, fun _ _ => ⟨[], .nil, ?_⟩⟩
      · exact (List.append_nil _).symm
      · exact (List.append_nil _).symm
  | cons call rest ih =>
      obtain ⟨answer, next, log, done, step⟩ :=
        perform_step counts valid call fuel enough (passes call List.mem_cons_self)
      obtain ⟨steps, last, ran, validLast, logLast, stalls, kept⟩ :=
        ih step.valid fun later member => passes later (List.mem_cons_of_mem _ member)
      refine ⟨(answer, log) :: steps, last, run_cons done ran, validLast, ?_, ?_, ?_⟩
      · rw [logLast, step.extends_log, List.append_assoc]
        rfl
      · intro noWrite other member
        rcases List.mem_cons.1 member with first | later
        · rw [first]
          apply step.stalls
          intro buffer same
          exact noWrite buffer (same ▸ List.mem_cons_self)
        · exact stalls (fun buffer inRest => noWrite buffer (List.mem_cons_of_mem _ inRest))
            other later
      · intro throughout unspoiled
        obtain ⟨orderly, onwards⟩ := throughout
        obtain ⟨bytes, accepts, outputNext⟩ :=
          step.kept orderly (unspoiled (answer, log) List.mem_cons_self)
        obtain ⟨more, accepted, outputLast⟩ := kept (onwards answer next done)
          fun other member => unspoiled other (List.mem_cons_of_mem _ member)
        refine ⟨bytes ++ more, .cons accepts accepted, ?_⟩
        rw [outputLast, outputNext, List.append_assoc]

theorem run_snoc {calls : List Call} {call : Call} {fuel : Nat} {answer : Answer}
    {answers : List Answer} {state next : BorrowedStream (Recorded Device)}
    (ran : run (record raw) fuel stream calls = .ok (answers, state))
    (done : call.perform (record raw) fuel state = .ok (answer, next)) :
    run (record raw) fuel stream (calls ++ [call]) = .ok (answers ++ [answer], next) := by
  induction calls generalizing stream answers with
  | nil =>
      cases ran
      exact run_cons done rfl
  | cons first rest ih =>
      obtain ⟨⟨firstAnswer, middle⟩, made, ran⟩ := Faults.exists_of_bind ran
      obtain ⟨⟨restAnswers, last⟩, ranRest, same⟩ := Faults.exists_of_bind ran
      cases same
      exact run_cons made (ih ranRest)

theorem Throughout.split {fuel : Nat}
    {condition : BorrowedStream (Recorded Device) → Call → Prop} {before after : List Call}
    {call : Call} (throughout : Throughout (record raw) fuel condition stream
      (before ++ call :: after)) :
    Throughout (record raw) fuel condition stream before ∧
      ∀ answers state, run (record raw) fuel stream before = .ok (answers, state) →
        condition state call := by
  induction before generalizing stream with
  | nil =>
      refine ⟨trivial, ?_⟩
      intro answers state ran
      cases ran
      exact throughout.1
  | cons first rest ih =>
      constructor
      · refine ⟨throughout.1, ?_⟩
        intro answer next done
        exact (ih (throughout.2 answer next done)).1
      · intro answers state ran
        obtain ⟨⟨answer, middle⟩, made, ran⟩ := Faults.exists_of_bind ran
        obtain ⟨⟨restAnswers, last⟩, ranRest, same⟩ := Faults.exists_of_bind ran
        cases same
        exact (ih (throughout.2 answer middle made)).2 _ _ ranRest

theorem throughout_puts (fuel : Nat) (writings : List Writing) :
    Throughout (record raw) fuel (Orderly raw.toStream) stream (writings.map .put) := by
  induction writings generalizing stream with
  | nil => trivial
  | cons writing rest ih => exact ⟨trivial, fun _ _ _ => ih⟩

theorem smooth_of_mem {steps : List (Answer × List DeviceCall)}
    {step : Answer × List DeviceCall} (smooth : Smooth (steps.flatMap Prod.snd))
    (member : step ∈ steps) : Smooth step.2 := by
  obtain ⟨front, back, rfl⟩ := List.append_of_mem member
  rw [List.flatMap_append, List.flatMap_cons] at smooth
  exact smooth.right.left

end Runs

/-! ### What a run promises -/

section Promises

variable {Device : Type} {raw : SeekableStream Device}

/-- In a run of puts and flushes on a device that does what it likes, retries
included, the device has received what is not buffered, each byte once and in order,
as long as no write that took a part is followed by one that stalls. -/
theorem puts_arrive_once (raw : SeekableStream Device) (counts : Counts raw.toStream)
    (device : Device) (writings : List Writing) (fuel : Nat) (enough : kStreamBufferSize ≤ fuel)
    (passes : ∀ writing ∈ writings, writing.argument.length + 1 < fuel) :
    ∃ answers last,
      run (record raw) fuel (fresh ⟨device, []⟩) (writings.map .put) = .ok (answers, last) ∧
        Valid last ∧
        (Smooth last.mRaw.log → ∃ bytes, Accepted (writings.map .put) answers bytes ∧
          received last.mRaw.log ++ buffered last = bytes) := by
  have passesCalls : ∀ call ∈ writings.map Call.put, call.argument.length + 1 < fuel := by
    intro call member
    obtain ⟨writing, inside, rfl⟩ := List.mem_map.1 member
    exact passes writing inside
  obtain ⟨steps, last, ran, valid, log, _, kept⟩ :=
    run_steps counts (Valid.fresh ⟨device, []⟩) (writings.map .put) fuel enough passesCalls
  refine ⟨_, last, ran, valid, ?_⟩
  intro smooth
  have whole : last.mRaw.log = steps.flatMap Prod.snd := log
  rw [whole] at smooth
  obtain ⟨bytes, accepted, same⟩ := kept (throughout_puts fuel writings)
    fun step member => .inr (smooth_of_mem smooth member)
  exact ⟨bytes, accepted, same⟩

/-- A device that answers writes as its script says, and takes everything behind it. -/
def scripted : SeekableStream (List (Expected Nat)) where
  rawRead device _ := (.ok [], device)
  rawWrite device bytes :=
    match device with
    | [] => (.ok bytes.length, [])
    | .ok count :: rest => (.ok (min count bytes.length), rest)
    | .error code :: rest => (.error code, rest)
  rawFlush device := (.ok (), device)
  rawSeek device _ := (.ok (), device)

theorem scripted_counts : Counts scripted.toStream := by
  intro device bytes count next answer
  match device with
  | [] =>
      cases answer
      exact Nat.le_refl _
  | .ok _ :: _ =>
      cases answer
      exact Nat.min_le_right _ _
  | .error _ :: _ => cases answer

theorem puts_arrive_once_scripted :
    ∃ answers last,
      run (record scripted) 8192 (fresh ⟨[.ok 1], []⟩)
          ([Writing.putspan [1, 2, 3], .flush].map .put) = .ok (answers, last) ∧
        Valid last ∧
        (Smooth last.mRaw.log → ∃ bytes,
          Accepted ([Writing.putspan [1, 2, 3], .flush].map .put) answers bytes ∧
            received last.mRaw.log ++ buffered last = bytes) :=
  puts_arrive_once scripted scripted_counts [.ok 1] [.putspan [1, 2, 3], .flush] 8192
    (Nat.le_refl _) (by simp [Writing.argument])

def observe {α : Type} (view : List Answer → BorrowedStream (Recorded Device) → α)
    (ran : Except BufferFault (List Answer × BorrowedStream (Recorded Device))) : Option α :=
  ran.toOption.map fun ends => view ends.1 ends.2

theorem observe_some {α : Type} {view : List Answer → BorrowedStream (Recorded Device) → α}
    {ran : Except BufferFault (List Answer × BorrowedStream (Recorded Device))} {seen : α}
    (observed : observe view ran = some seen) :
    ∃ answers last, ran = .ok (answers, last) ∧ view answers last = seen := by
  cases ran with
  | error fault => cases observed
  | ok ends => exact ⟨ends.1, ends.2, rfl, Option.some.inj observed⟩

/-- A flush that fails after its first byte, and the flush after it: the byte arrives twice. -/
theorem retried_flush_repeats :
    ∃ answers last,
      run (record scripted) 8192 (fresh ⟨[.ok 1, .error (.errc 5)], []⟩)
          [.put (.putspan [1, 2, 3]), .put .flush, .put .flush] = .ok (answers, last) ∧
        received last.mRaw.log = [1, 1, 2, 3] ∧
        ¬∃ bytes, Accepted [.put (.putspan [1, 2, 3]), .put .flush, .put .flush] answers bytes ∧
          received last.mRaw.log ++ buffered last = bytes := by
  have seen : observe (fun answers last => (received last.mRaw.log,
        acceptedBy [.put (.putspan [1, 2, 3]), .put .flush, .put .flush] answers))
      (run (record scripted) 8192 (fresh ⟨[.ok 1, .error (.errc 5)], []⟩)
        [.put (.putspan [1, 2, 3]), .put .flush, .put .flush]) =
      some ([1, 1, 2, 3], [1, 2, 3]) := by
    decide +kernel
  obtain ⟨answers, last, ran, views⟩ := observe_some seen
  obtain ⟨twice, all⟩ := Prod.mk.inj views
  refine ⟨answers, last, ran, twice, ?_⟩
  intro once
  obtain ⟨bytes, accepted, same⟩ := once
  have short := accepted.length_le
  rw [all, ← same, twice, List.length_append] at short
  exact absurd (Nat.le_trans (Nat.le_add_right 4 _) short) (Nat.lt_irrefl 3)

/-- In a run of calls that all succeed the bytes reach the device in call order, as long
as no write finds the buffer full and lets bytes pass those that wait in it. -/
theorem writes_keep_the_order (raw : SeekableStream Device) (counts : Counts raw.toStream)
    (device : Device) (calls : List Call) (fuel : Nat) (enough : kStreamBufferSize ≤ fuel)
    (passes : ∀ call ∈ calls, call.argument.length + 1 < fuel)
    (orderly : Throughout (record raw) fuel (Orderly raw.toStream) (fresh ⟨device, []⟩) calls) :
    ∃ answers last, run (record raw) fuel (fresh ⟨device, []⟩) calls = .ok (answers, last) ∧
      Valid last ∧
      ((∀ answer ∈ answers, answer.outcome = .ok ()) →
        received last.mRaw.log ++ buffered last = acceptedBy calls answers) := by
  obtain ⟨steps, last, ran, valid, _, _, kept⟩ :=
    run_steps counts (Valid.fresh ⟨device, []⟩) calls fuel enough passes
  refine ⟨_, last, ran, valid, ?_⟩
  intro succeeded
  obtain ⟨bytes, accepted, same⟩ := kept orderly
    fun step member => .inl (succeeded step.1 (List.mem_map_of_mem member))
  rw [← accepted.whole succeeded]
  exact same

theorem writes_keep_the_order_scripted :
    ∃ answers last,
      run (record scripted) 8192 (fresh ⟨[.ok 1], []⟩) [.write [2, 3], .put (.putchar 4)] =
          .ok (answers, last) ∧
        Valid last ∧
        ((∀ answer ∈ answers, answer.outcome = .ok ()) →
          received last.mRaw.log ++ buffered last =
            acceptedBy [.write [2, 3], .put (.putchar 4)] answers) :=
  writes_keep_the_order scripted scripted_counts [.ok 1] [.write [2, 3], .put (.putchar 4)] 8192
    (Nat.le_refl _) (by simp [Call.argument, Writing.argument])
    ⟨fun _ => .inl rfl, fun _ _ _ => ⟨trivial, fun _ _ _ => trivial⟩⟩

/-- A buffer filled to its last byte, and a write: its byte arrives before the others. -/
theorem write_passes_the_buffer :
    ∃ answers last,
      run (record scripted) 8194 (fresh ⟨[], []⟩)
          [.put (.putspan (List.replicate 8192 7)), .write [1]] = .ok (answers, last) ∧
        (∀ answer ∈ answers, answer.outcome = .ok ()) ∧
        received last.mRaw.log = [1] ∧
        received last.mRaw.log ++ buffered last ≠
          acceptedBy [.put (.putspan (List.replicate 8192 7)), .write [1]] answers := by
  have seen : observe (fun answers last => (decide (∀ answer ∈ answers, answer.outcome = .ok ()),
        received last.mRaw.log,
        (acceptedBy [.put (.putspan (List.replicate 8192 7)), .write [1]] answers).head?))
      (run (record scripted) 8194 (fresh ⟨[], []⟩)
        [.put (.putspan (List.replicate 8192 7)), .write [1]]) = some (true, [1], some 7) := by
    decide +kernel
  obtain ⟨answers, last, ran, views⟩ := observe_some seen
  obtain ⟨succeeded, views⟩ := Prod.mk.inj views
  obtain ⟨one, first⟩ := Prod.mk.inj views
  refine ⟨answers, last, ran, of_decide_eq_true succeeded, one, ?_⟩
  intro same
  rw [← same, one] at first
  cases first

/-- A device whose raw_write and raw_seek succeed. -/
structure Willing (raw : SeekableStream Device) : Prop where
  counts : Counts raw.toStream
  writes : ∀ device bytes, bytes ≠ [] →
    ∃ count next, raw.rawWrite device bytes = (.ok (count + 1), next)
  seeks : ∀ device pos, ∃ next, raw.rawSeek device pos = (.ok (), next)

theorem Willing.not_stalled (willing : Willing raw) {entry : DeviceCall}
    (answered : Answered raw.toStream entry) : ¬entry.Stalled := by
  intro stalled
  cases entry with
  | rawWrite bytes reply =>
      obtain ⟨nonempty, device, next, answer⟩ := answered
      obtain ⟨count, other, positive⟩ := willing.writes device bytes nonempty
      cases answer.symm.trans positive
      cases stalled
  | rawSeek pos reply => cases answered

theorem Willing.flush_empties (willing : Willing raw)
    {stream : BorrowedStream (Recorded Device)} (valid : Valid stream) (fuel : Nat)
    (enough : kStreamBufferSize ≤ fuel) :
    ∃ answer next, (Call.put .flush).perform (record raw) fuel stream = .ok (answer, next) ∧
      buffered next = [] := by
  obtain ⟨result, next, log, done, sends, emptied, _⟩ :=
    flush_history willing.counts valid fuel enough
  refine ⟨.put (.done result), next, ?_, ?_⟩
  · rw [Call.perform, Writing.perform, done]
    rfl
  · rcases emptied with empty | ⟨entry, member, stalled⟩
    · unfold buffered
      rw [empty, List.take_zero]
    · exact absurd stalled (willing.not_stalled (sends.answered entry member))

/-- In a run of puts, flushes and seeks on a willing device, as long as every seek finds
the output buffer empty, all bytes accepted before a seek have been written when the device
moves, and all bytes have been written behind a final flush. -/
theorem seeks_lose_nothing (raw : SeekableStream Device) (willing : Willing raw)
    (device : Device) (calls : List Call) (noWrite : ∀ buffer, .write buffer ∉ calls)
    (fuel : Nat) (enough : kStreamBufferSize ≤ fuel)
    (passes : ∀ call ∈ calls, call.argument.length + 1 < fuel)
    (orderly : Throughout (record raw) fuel (Orderly raw.toStream) (fresh ⟨device, []⟩) calls) :
    (∃ answers last bytes,
      run (record raw) fuel (fresh ⟨device, []⟩) calls = .ok (answers, last) ∧
        Accepted calls answers bytes ∧ received last.mRaw.log ++ buffered last = bytes ∧
        ((∃ before, calls = before ++ [.put .flush]) → received last.mRaw.log = bytes)) ∧
      ∀ before pos after, calls = before ++ .seek pos :: after →
        ∃ answers state bytes next,
          run (record raw) fuel (fresh ⟨device, []⟩) before = .ok (answers, state) ∧
            Accepted before answers bytes ∧ received state.mRaw.log = bytes ∧
            state.seek (record raw) pos = (.ok (), next) ∧
            next.mRaw.log = state.mRaw.log ++ [.rawSeek pos (.ok ())] := by
  have runs (front : List Call) (part : front <+: calls)
      (orderlyFront : Throughout (record raw) fuel (Orderly raw.toStream)
        (fresh ⟨device, []⟩) front) :
      ∃ answers last bytes,
        run (record raw) fuel (fresh ⟨device, []⟩) front = .ok (answers, last) ∧ Valid last ∧
          Accepted front answers bytes ∧ received last.mRaw.log ++ buffered last = bytes := by
    obtain ⟨steps, last, ran, valid, _, stalls, kept⟩ :=
      run_steps willing.counts (Valid.fresh ⟨device, []⟩) front fuel enough
        fun call member => passes call (part.subset member)
    obtain ⟨bytes, accepted, same⟩ := kept orderlyFront fun step member =>
      .inr (Smooth.of_unstalled fun entry inStep stalled =>
        willing.not_stalled (stalls (fun buffer inFront => noWrite buffer (part.subset inFront))
          step member entry inStep stalled) stalled)
    exact ⟨_, last, bytes, ran, valid, accepted, same⟩
  constructor
  · obtain ⟨answers, last, bytes, ran, _, accepted, same⟩ := runs calls List.prefix_rfl orderly
    refine ⟨answers, last, bytes, ran, accepted, same, ?_⟩
    intro ends
    obtain ⟨before, rfl⟩ := ends
    obtain ⟨_, state, _, ranBefore, valid, _⟩ :=
      runs before (List.prefix_append _ _) orderly.split.1
    obtain ⟨answer, next, done, empty⟩ := willing.flush_empties valid fuel enough
    cases (run_snoc ranBefore done).symm.trans ran
    rw [empty, List.append_nil] at same
    exact same
  · intro before pos after split
    rw [split] at orderly
    obtain ⟨orderlyBefore, atSeek⟩ := orderly.split
    obtain ⟨answers, state, bytes, ran, _, accepted, same⟩ :=
      runs before (split ▸ List.prefix_append before _) orderlyBefore
    have empty : state.mOutIndex = 0 := atSeek answers state ran
    have nothing : buffered state = [] := by
      unfold buffered
      rw [empty, List.take_zero]
    rw [nothing, List.append_nil] at same
    obtain ⟨moved, answer⟩ := willing.seeks state.mRaw.device pos
    exact ⟨answers, state, bytes, _, ran, accepted, same, seek_moves raw pos answer, rfl⟩

def greedy : SeekableStream Unit where
  rawRead device _ := (.ok [], device)
  rawWrite device bytes := (.ok bytes.length, device)
  rawFlush device := (.ok (), device)
  rawSeek device _ := (.ok (), device)

theorem greedy_willing : Willing greedy where
  counts := by
    intro device bytes count next answer
    cases answer
    exact Nat.le_refl _
  writes := by
    intro device bytes nonempty
    obtain ⟨count, same⟩ :=
      Nat.exists_eq_succ_of_ne_zero (Nat.ne_of_gt (List.length_pos_of_ne_nil nonempty))
    refine ⟨count, device, ?_⟩
    change (Except.ok bytes.length, device) = _
    rw [same]
  seeks := fun device _ => ⟨device, rfl⟩

/-- A byte that is flushed, a seek to 7 and two bytes behind it, which are flushed too. -/
def flushedSeek : List Call :=
  [.put (.putchar 1), .put .flush, .seek 7, .put (.putspan [2, 3]), .put .flush]

theorem seeks_lose_nothing_greedy :
    (∃ answers last bytes,
      run (record greedy) 8192 (fresh ⟨(), []⟩) flushedSeek = .ok (answers, last) ∧
        Accepted flushedSeek answers bytes ∧ received last.mRaw.log = bytes ∧ bytes = [1, 2, 3]) ∧
      ∃ answers state bytes next,
        run (record greedy) 8192 (fresh ⟨(), []⟩) [.put (.putchar 1), .put .flush] =
            .ok (answers, state) ∧
          Accepted [.put (.putchar 1), .put .flush] answers bytes ∧
          received state.mRaw.log = bytes ∧ state.seek (record greedy) 7 = (.ok (), next) ∧
          next.mRaw.log = state.mRaw.log ++ [.rawSeek 7 (.ok ())] := by
  have settled : observe (fun _ last => last.mOutIndex) (run (record greedy) 8192
      (fresh ⟨(), []⟩) [.put (.putchar 1), .put .flush]) = some 0 := by
    decide +kernel
  have arrived : observe (fun _ last => received last.mRaw.log) (run (record greedy) 8192
      (fresh ⟨(), []⟩) flushedSeek) = some [1, 2, 3] := by
    decide +kernel
  have orderly : Throughout (record greedy) 8192 (Orderly greedy.toStream) (fresh ⟨(), []⟩)
      flushedSeek := by
    refine ⟨trivial, fun _ _ put => ⟨trivial, fun _ _ flushed => ⟨?_, fun _ _ _ =>
      ⟨trivial, fun _ _ _ => ⟨trivial, fun _ _ _ => trivial⟩⟩⟩⟩⟩
    rw [run_cons put (run_cons flushed rfl)] at settled
    exact Option.some.inj settled
  obtain ⟨⟨answers, last, bytes, ran, accepted, _, final⟩, seeks⟩ :=
    seeks_lose_nothing greedy greedy_willing () flushedSeek (by simp [flushedSeek]) 8192
      (Nat.le_refl _) (by simp [flushedSeek, Call.argument, Writing.argument]) orderly
  have same : received last.mRaw.log = bytes :=
    final ⟨[.put (.putchar 1), .put .flush, .seek 7, .put (.putspan [2, 3])], rfl⟩
  rw [ran] at arrived
  refine ⟨⟨answers, last, bytes, ran, accepted, same, ?_⟩, ?_⟩
  · rw [← same]
    exact Option.some.inj arrived
  · exact seeks [.put (.putchar 1), .put .flush] 7 [.put (.putspan [2, 3]), .put .flush] rfl

/-- A byte that waits in the buffer when the stream seeks never arrives. -/
theorem seek_drops_the_buffer :
    ∃ answers last,
      run (record greedy) 8192 (fresh ⟨(), []⟩) [.put (.putchar 1), .seek 7, .put .flush] =
          .ok (answers, last) ∧
        (∀ answer ∈ answers, answer.outcome = .ok ()) ∧
        acceptedBy [.put (.putchar 1), .seek 7, .put .flush] answers = [1] ∧
        last.mRaw.log = [.rawSeek 7 (.ok ())] ∧ received last.mRaw.log = [] ∧
        buffered last = [] := by
  have seen : observe (fun answers last => (decide (∀ answer ∈ answers, answer.outcome = .ok ()),
        acceptedBy [.put (.putchar 1), .seek 7, .put .flush] answers, last.mRaw.log,
        buffered last))
      (run (record greedy) 8192 (fresh ⟨(), []⟩) [.put (.putchar 1), .seek 7, .put .flush]) =
        some (true, [1], [.rawSeek 7 (.ok ())], []) := by
    decide +kernel
  obtain ⟨answers, last, ran, views⟩ := observe_some seen
  obtain ⟨succeeded, views⟩ := Prod.mk.inj views
  obtain ⟨all, views⟩ := Prod.mk.inj views
  obtain ⟨log, nothing⟩ := Prod.mk.inj views
  refine ⟨answers, last, ran, of_decide_eq_true succeeded, all, log, ?_, nothing⟩
  rw [log]
  rfl

end Promises

end MCoro.StreamHistories
