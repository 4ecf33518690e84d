/-
The FileStream of co_async/iostream/file_stream.cpp, and where a zero from the ring ends up.

A stream takes a read of zero bytes, and a write of zero bytes in flush, for the end of
the file. For one request that is right unless the size is a multiple of 2^32; flush goes
on with what is left of its buffer, so it comes to such a size whenever it starts with
2^32 bytes or more.
-/

import MCoro.Iostream.StreamReads
import MCoro.Platform.FileTransfers

namespace MCoro

open FileTransfers

namespace FileStream

variable {State : Type}

/-- The stream of the file with that descriptor. -/
def stream (kernel : FileKernel State) (mFile : Int) : Stream State where
  rawRead state size :=
    let (result, bytes, state) := fsRead kernel state mFile size currentPosition
    (result.transform fun _ => bytes, state)
  rawWrite state buffer := fsWrite kernel state mFile buffer currentPosition
  rawFlush state := (.ok (), state)

/-- A zero from fs_read means the end of the file. -/
def ReadTellsEnd (size : Nat) : Prop :=
  ∀ (State : Type) (kernel : FileKernel State), kernel.Documented → ∀ state file offset,
    (fsRead kernel state file size offset).1 = .ok 0 → kernel.atEnd state file offset

/-- An empty answer from read, which had an empty buffer, means the end of the file. -/
def StreamReadTellsEnd (size : Nat) : Prop :=
  ∀ (State : Type) (kernel : FileKernel State), kernel.Documented → ∀ file,
    ∀ borrowed : BorrowedStream State, borrowed.mInIndex ≤ borrowed.mInEnd → ∀ next,
      borrowed.read (stream kernel file) size = .ok (.ok [], next) →
        kernel.atEnd borrowed.mRaw file currentPosition

/-- No flush of that many bytes ends with eofError. -/
def FlushNeverEof (size : Nat) : Prop :=
  ∀ (State : Type) (kernel : FileKernel State), kernel.Documented → ∀ file,
    ∀ borrowed : BorrowedStream State, borrowed.mOutIndex = size →
      size ≤ borrowed.mOutBuffer.size → ∀ fuel next,
        borrowed.flush (stream kernel file) fuel ≠ .ok (.error .eofError, next)

variable {kernel : FileKernel State}

/-! ### Reading -/

theorem rawRead_nil (documented : kernel.Documented) {state next : State} {file : Int} {size : Nat}
    (empty : (stream kernel file).rawRead state size = (.ok [], next)) :
    2 ^ 32 ∣ size ∨ kernel.atEnd state file currentPosition := by
  have answer := congrArg Prod.fst empty
  change (fsRead kernel state file size currentPosition).1.transform
    (fun _ => (fsRead kernel state file size currentPosition).2.1) = .ok [] at answer
  cases result : (fsRead kernel state file size currentPosition).1 with
  | error code =>
      rw [result] at answer
      cases answer
  | ok n =>
      rw [result] at answer
      have nothing : (fsRead kernel state file size currentPosition).2.1 = [] :=
        Except.ok.inj answer
      have length := fsRead_stores documented result
      rw [nothing, List.length_nil] at length
      rw [← length] at result
      exact fsRead_zero documented result

theorem read_nil (documented : kernel.Documented) {file : Int} {size : Nat} (positive : 0 < size)
    {borrowed next : BorrowedStream State} (ordered : borrowed.mInIndex ≤ borrowed.mInEnd)
    (empty : borrowed.read (stream kernel file) size = .ok (.ok [], next)) :
    2 ^ 32 ∣ size ∨ kernel.atEnd borrowed.mRaw file currentPosition := by
  unfold BorrowedStream.read at empty
  by_cases nothing : borrowed.bufempty = true
  · rw [if_pos nothing] at empty
    have raw := congrArg Prod.fst (Except.ok.inj empty)
    exact rawRead_nil documented (Prod.ext raw rfl)
  · rw [if_neg nothing] at empty
    obtain ⟨bytes, copied, ends⟩ := Faults.exists_of_bind empty
    have taken : bytes = [] := Except.ok.inj (congrArg Prod.fst (Except.ok.inj ends))
    have length := BytesBuffer.read_length copied
    have several : borrowed.mInIndex ≠ borrowed.mInEnd := fun same => nothing (decide_eq_true same)
    have available : 0 < borrowed.mInEnd - borrowed.mInIndex := by omega
    rw [taken, List.length_nil] at length
    exact absurd length (Nat.ne_of_lt (Nat.lt_min.2 ⟨available, positive⟩))

/-! ### Writing -/

theorem writeLoop_pass {raw : Stream State} {fuel : Nat} {state next : State} {buf : Bytes}
    {result : Expected Nat} :
    raw.rawWrite state buf = (result, next) →
      BorrowedStream.writeLoop raw (fuel + 1) state buf =
        match result with
        | .error code => .ok (.error code, next)
        | .ok len =>
            if 0 < len ∧ len ≠ buf.length then
              if len ≤ buf.length then BorrowedStream.writeLoop raw fuel next (buf.drop len)
              else .error .outOfBounds
            else .ok (.ok len, next) := by
  intro written
  rw [BorrowedStream.writeLoop, written]
  cases result <;> rfl

/-- The writes of flush, of a buffer that an entry can hold, do not end with a zero. -/
theorem writeLoop_small (documented : kernel.Documented) {file : Int} (fuel : Nat) {state : State}
    {buf : Bytes} (positive : 0 < buf.length) (small : buf.length < 2 ^ 32) {result : Expected Nat}
    {next : State}
    (ended : BorrowedStream.writeLoop (stream kernel file) fuel state buf = .ok (result, next)) :
    result ≠ .ok 0 ∧ result ≠ .error .eofError := by
  induction fuel generalizing state buf with
  | zero => cases ended
  | succ fuel ih =>
      cases written : (stream kernel file).rawWrite state buf with
      | mk answer after =>
          have first : answer = (fsWrite kernel state file buf currentPosition).1 :=
            (congrArg Prod.fst written).symm
          rw [writeLoop_pass written] at ended
          cases answer with
          | error code =>
              have same : .error code = result := congrArg Prod.fst (Except.ok.inj ended)
              constructor
              · rw [← same]
                exact fun same => by cases same
              · rw [← same, first]
                exact retried_ne_eof _ _
          | ok len =>
              dsimp only at ended
              by_cases again : 0 < len ∧ len ≠ buf.length
              · rw [if_pos again] at ended
                by_cases within : len ≤ buf.length
                · rw [if_pos within] at ended
                  have rest : (buf.drop len).length = buf.length - len := List.length_drop
                  exact ih (by omega) (by omega) ended
                · rw [if_neg within] at ended
                  cases ended
              · rw [if_neg again] at ended
                have same : .ok len = result := congrArg Prod.fst (Except.ok.inj ended)
                have some_ : len ≠ 0 := by
                  intro zero
                  rw [zero] at first
                  have multiple := Nat.le_of_dvd positive (fsWrite_zero documented first.symm)
                  omega
                constructor
                · rw [← same]
                  exact fun zero => some_ (Except.ok.inj zero)
                · rw [← same]
                  exact fun same => by cases same

theorem writeLoop_large (documented : kernel.Documented) {file : Int}
    (taken : ∀ state entry, 0 ≤ (kernel.complete state entry).1) (fuel : Nat) {state : State}
    {buf : Bytes} (large : 2 ^ 32 ≤ buf.length) (enough : UringOp.unsignedInt buf.length < fuel) :
    ∃ next, BorrowedStream.writeLoop (stream kernel file) fuel state buf = .ok (.ok 0, next) := by
  induction fuel generalizing state buf with
  | zero => exact absurd enough (Nat.not_lt_zero _)
  | succ fuel ih =>
      have accepted := fsWrite_taken documented
        (taken state (UringOp.prepWrite file buf currentPosition))
      obtain ⟨len, answer, within, nothing⟩ := accepted
      have written : (stream kernel file).rawWrite state buf =
          (.ok len, (fsWrite kernel state file buf currentPosition).2) := Prod.ext answer rfl
      unfold UringOp.unsignedInt at *
      rw [writeLoop_pass written]
      dsimp only
      by_cases zero : len = 0
      · refine ⟨(fsWrite kernel state file buf currentPosition).2, ?_⟩
        rw [if_neg (by omega), zero]
      · -- What is left is still more than an entry can hold, and closer to a multiple.
        have rest : (buf.drop len).length = buf.length - len := List.length_drop
        rw [if_pos (by omega), if_pos (by omega)]
        exact ih (by omega) (by omega)

theorem flush_buffer {borrowed : BorrowedStream State}
    (inside : borrowed.mOutIndex ≤ borrowed.mOutBuffer.size) :
    ∃ buf, borrowed.mOutBuffer.read 0 borrowed.mOutIndex = .ok buf ∧
      buf.length = borrowed.mOutIndex := by
  have read := BytesBuffer.read_eq (Nat.zero_le _) inside
  rw [Nat.sub_zero] at read
  exact ⟨_, read, BytesBuffer.read_length read⟩

theorem flush_pass {raw : Stream State} {fuel : Nat} {borrowed : BorrowedStream State} {buf block : Bytes}
    {result : Expected Nat} {device : State} (allocated : borrowed.mOutBuffer.mData = some block)
    (some_ : borrowed.mOutIndex ≠ 0) (read : borrowed.mOutBuffer.read 0 borrowed.mOutIndex = .ok buf)
    (written : BorrowedStream.writeLoop raw fuel borrowed.mRaw buf = .ok (result, device)) :
    borrowed.flush raw fuel =
      .ok (BorrowedStream.settle raw { borrowed with mRaw := device } result) := by
  unfold BorrowedStream.flush
  rw [allocated]
  dsimp only
  rw [if_neg some_, read]
  change (BorrowedStream.writeLoop raw fuel borrowed.mRaw buf).bind _ = _
  rw [written]
  rfl

theorem flush_small (documented : kernel.Documented) {file : Int} {fuel : Nat}
    {borrowed next : BorrowedStream State} (inside : borrowed.mOutIndex ≤ borrowed.mOutBuffer.size)
    (small : borrowed.mOutIndex < 2 ^ 32) :
    borrowed.flush (stream kernel file) fuel ≠ .ok (.error .eofError, next) := by
  intro flushed
  cases allocated : borrowed.mOutBuffer.mData with
  | none =>
      unfold BorrowedStream.flush at flushed
      rw [allocated] at flushed
      cases congrArg Prod.fst (Except.ok.inj flushed)
  | some block =>
      by_cases nothing : borrowed.mOutIndex = 0
      · unfold BorrowedStream.flush at flushed
        rw [allocated] at flushed
        dsimp only at flushed
        rw [if_pos nothing] at flushed
        cases congrArg Prod.fst (Except.ok.inj flushed)
      · obtain ⟨buf, read, length⟩ := flush_buffer inside
        have called := flushed
        unfold BorrowedStream.flush at called
        rw [allocated] at called
        dsimp only at called
        rw [if_neg nothing, read] at called
        change (BorrowedStream.writeLoop _ _ _ _).bind _ = _ at called
        obtain ⟨⟨result, device⟩, written, _⟩ := Faults.exists_of_bind called
        obtain ⟨positive, other⟩ := writeLoop_small documented fuel (by omega) (by omega) written
        rw [flush_pass allocated nothing read written] at flushed
        have answer := congrArg Prod.fst (Except.ok.inj flushed)
        cases result with
        | error code =>
            have code : code = .eofError := Except.error.inj answer
            rw [code] at other
            exact other rfl
        | ok len =>
            cases len with
            | zero => exact positive rfl
            | succ len => cases answer

theorem flush_large (documented : kernel.Documented) {file : Int}
    (taken : ∀ state entry, 0 ≤ (kernel.complete state entry).1) {borrowed : BorrowedStream State}
    (inside : borrowed.mOutIndex ≤ borrowed.mOutBuffer.size) (large : 2 ^ 32 ≤ borrowed.mOutIndex)
    {fuel : Nat} (enough : UringOp.unsignedInt borrowed.mOutIndex < fuel) :
    ∃ next, borrowed.flush (stream kernel file) fuel = .ok (.error .eofError, next) := by
  obtain ⟨buf, read, length⟩ := flush_buffer inside
  have zero : ∃ device, BorrowedStream.writeLoop (stream kernel file) fuel borrowed.mRaw buf =
      .ok (.ok 0, device) := by
    apply writeLoop_large documented taken fuel
    · rw [length]
      exact large
    · rw [length]
      exact enough
  obtain ⟨device, written⟩ := zero
  cases allocated : borrowed.mOutBuffer.mData with
  | none =>
      have empty : borrowed.mOutBuffer.size = 0 := by
        unfold BytesBuffer.size BytesBuffer.data
        rw [allocated]
        rfl
      omega
  | some block =>
      refine ⟨{ borrowed with mRaw := device }, ?_⟩
      rw [flush_pass allocated (by omega) read written]
      rfl

/-! ### When a zero means the end -/

/-- The entries that fs_read, fs_write and fs_splice prepare for so many bytes. -/
inductive Prepared (size : Nat) : TransferEntry → Prop
  | read (file : Int) (offset : Nat) : Prepared size (UringOp.prepRead file size offset)
  | write (file : Int) (buffer : Bytes) (offset : Nat) (length : buffer.length = size) :
      Prepared size (UringOp.prepWrite file buffer offset)
  | splice (fileIn fileOut : Int) (offsetIn offsetOut : Int) :
      Prepared size (UringOp.prepSplice fileIn offsetIn fileOut offsetOut size 0)

theorem Prepared.len_eq {size : Nat} {entry : TransferEntry} (prepared : Prepared size entry) :
    entry.len = UringOp.unsignedInt size := by
  cases prepared with
  | read file offset => rfl
  | write file buffer offset length => exact congrArg UringOp.unsignedInt length
  | splice fileIn fileOut offsetIn offsetOut => rfl

theorem readTellsEnd_iff (size : Nat) : ReadTellsEnd size ↔ ¬2 ^ 32 ∣ size := by
  constructor
  · intro tells multiple
    have zero : (fsRead plainFile [0] 0 size 0).1 = .ok 0 :=
      fsRead_multiple plainFile_documented multiple (plainFile_takes [0] _)
    have ended : [(0 : UInt8)] = [] := tells Bytes plainFile plainFile_documented [0] 0 0 zero
    exact List.cons_ne_nil _ _ ended
  · intro other State kernel documented state file offset zero
    exact (fsRead_zero documented zero).resolve_left other

theorem streamReadTellsEnd_iff {size : Nat} (positive : 0 < size) :
    StreamReadTellsEnd size ↔ ¬2 ^ 32 ∣ size := by
  constructor
  · intro tells multiple
    have zero := fsRead_multiple plainFile_documented multiple
      (plainFile_takes [0] (UringOp.prepRead 0 size currentPosition))
    have stored := fsRead_stores plainFile_documented zero
    have nothing := List.eq_nil_of_length_eq_zero stored
    have raw : ((stream plainFile 0).rawRead [0] size).1 = .ok [] := by
      change (fsRead plainFile [0] 0 size currentPosition).1.transform
        (fun _ => (fsRead plainFile [0] 0 size currentPosition).2.1) = .ok []
      rw [zero, nothing]
      rfl
    have ended : [(0 : UInt8)] = [] := by
      apply tells Bytes plainFile plainFile_documented 0 (BorrowedStream.fresh [0])
        (Nat.le_refl 0) { BorrowedStream.fresh [0] with
          mRaw := ((stream plainFile 0).rawRead [0] size).2 }
      have empty : (BorrowedStream.fresh [(0 : UInt8)]).bufempty = true := rfl
      unfold BorrowedStream.read
      rw [if_pos empty]
      exact congrArg Except.ok (Prod.ext raw rfl)
    exact List.cons_ne_nil _ _ ended
  · intro other State kernel documented file borrowed ordered next empty
    exact (read_nil documented positive ordered empty).resolve_left other

theorem flushNeverEof_iff (size : Nat) : FlushNeverEof size ↔ size < 2 ^ 32 := by
  constructor
  · intro never
    by_contra large
    rw [Nat.not_lt] at large
    let full : BorrowedStream Bytes := { BorrowedStream.fresh [] with
      mOutBuffer := .allocate size
      mOutIndex := size }
    have inside : full.mOutIndex ≤ full.mOutBuffer.size := by
      change size ≤ (List.replicate size (0 : UInt8)).length
      rw [List.length_replicate]
    have eof : ∃ next, full.flush (stream plainFile 0) (UringOp.unsignedInt size + 1) =
        .ok (.error .eofError, next) :=
      flush_large plainFile_documented plainFile_takes inside large (Nat.lt_succ_self _)
    obtain ⟨next, ended⟩ := eof
    exact never Bytes plainFile plainFile_documented 0 full rfl inside _ next ended
  · intro small State kernel documented file borrowed index inside fuel next
    subst index
    exact flush_small documented inside small

/-- No entry asks for more than the span, and for a non-empty one it asks for something just
where its size is no multiple of 2^32. Then a zero means the end of the file; flush, which
goes on with the rest, needs a size below 2^32. -/
theorem handed_length_iff (size : Nat) (positive : 0 < size) :
    (∀ entry, Prepared size entry →
      entry.len ≤ size ∧ (entry.len ≠ 0 ↔ ¬2 ^ 32 ∣ size)) ∧
      (ReadTellsEnd size ↔ ¬2 ^ 32 ∣ size) ∧
      (StreamReadTellsEnd size ↔ ¬2 ^ 32 ∣ size) ∧
      (FlushNeverEof size ↔ size < 2 ^ 32) := by
  refine ⟨?_, readTellsEnd_iff size, streamReadTellsEnd_iff positive, flushNeverEof_iff size⟩
  intro entry prepared
  rw [prepared.len_eq]
  exact ⟨UringOp.unsignedInt_le size, not_congr (UringOp.unsignedInt_eq_zero size)⟩

/-- A page at the end of a file. -/
theorem handed_length_page :
    (UringOp.prepRead 3 4096 0).len ≠ 0 ∧ plainFile.atEnd [] 3 0 ∧ FlushNeverEof 4096 := by
  obtain ⟨lengths, reads, _, flushes⟩ := handed_length_iff 4096 (by omega)
  refine ⟨(lengths _ (.read 3 0)).2.2 (by decide), ?_, flushes.2 (by omega)⟩
  exact reads.2 (by decide) Bytes plainFile plainFile_documented [] 3 0 rfl

/-- A read of 2^32 bytes from a file that has one asks the ring for nothing, and has a zero. -/
theorem handed_length_4GiB :
    (UringOp.prepRead 3 (2 ^ 32) currentPosition).len = 0 ∧
      (fsRead plainFile [104] 3 (2 ^ 32) currentPosition).1 = .ok 0 ∧
      ¬plainFile.atEnd [104] 3 currentPosition ∧
      ((BorrowedStream.fresh [104]).read (stream plainFile 3) (2 ^ 32)).map (fun reply => reply.1) =
        .ok (.ok []) := by
  refine ⟨rfl, rfl, List.cons_ne_nil _ _, rfl⟩

end FileStream

end MCoro
