/-
FileWatch of co_async/platform/fs_watch.hpp, over an inotify instance.

The kernel queues a record for every event. A read of the instance delivers whole
records, one at least and as many more as it likes of those that fit; where no record is
queued it blocks, so wait is only asked for where it can end. The watches of the kernel
keep the path that they were made with, which no record tells. Their masks, and whether
a path can be resolved, are the kernel's business and left out.
-/

import MCoro.Iostream.StreamSpans
import MCoro.Library.LittleEndian
import MCoro.Platform.Fallbacks
import MCoro.Utils.StringUtils

namespace MCoro.FileWatches

open BorrowedStream LittleEndian StreamReads StringUtils

/-! ### Paths -/

/-- `std::filesystem::path`, by its native string. -/
abbrev Path := Text

def slash : UInt8 := 47

/-- `operator/=`. -/
def append (path other : Path) : Path :=
  if other.head? = some slash then other
  else if path = [] ∨ path.getLast? = some slash then path ++ other
  else path ++ slash :: other

def makePath (path : Text) : Path :=
  cStr path

/-! ### The kernel -/

/-- A `struct inotify_event`, the name behind it and the null characters behind the name. -/
structure Record where
  wd : Int32
  mask : UInt32
  cookie : UInt32
  name : Text
  padding : Nat
  deriving DecidableEq

namespace Record

def len (record : Record) : Nat :=
  record.name.length + record.padding

def body (record : Record) : Bytes :=
  record.name ++ List.replicate record.padding 0

def header (record : Record) : Bytes :=
  store 4 record.wd.toUInt32.toNat ++ (store 4 record.mask.toNat ++
    (store 4 record.cookie.toNat ++ (store 4 record.len ++ [])))

def encode (record : Record) : Bytes :=
  record.header ++ record.body

/-- What the kernel promises of its records: they fit into the buffer of the stream, and
a name has no null characters. -/
structure WellFormed (record : Record) : Prop where
  small : record.encode.length ≤ kStreamBufferSize
  named : 0 ∉ record.name

end Record

def inIgnored : UInt32 := 0x8000

def inQOverflow : UInt32 := 0x4000

def Record.ignored (wd : Int32) : Record :=
  { wd := wd
    mask := inIgnored
    cookie := 0
    name := []
    padding := 0 }

/-- The record of a queue that was full. It is of no watch. -/
def Record.overflow : Record :=
  { wd := -1
    mask := inQOverflow
    cookie := 0
    name := []
    padding := 0 }

/-- `limit` is how many records the next read delivers beside the first, at most. -/
structure Inotify where
  queue : List Record := []
  watches : Int32 → Option Path := fun _ => none
  limit : Nat := 0

def encodeAll (records : List Record) : Bytes :=
  records.flatMap Record.encode

/-- The records that a read of the span delivers, of at most so many. -/
def batch (span : Nat) : Nat → List Record → List Record
  | 0, _ => []
  | _ + 1, [] => []
  | limit + 1, record :: rest =>
      if record.encode.length ≤ span then
        record :: batch (span - record.encode.length) limit rest
      else []

/-- `EINVAL` is for a span in which the first record does not fit. -/
def Inotify.read (inotify : Inotify) (span : Nat) : Expected Bytes × Inotify :=
  let delivered := batch span (inotify.limit + 1) inotify.queue
  if delivered = [] ∧ inotify.queue ≠ [] then (.error (.errc Fallbacks.invalidArgument), inotify)
  else (.ok (encodeAll delivered),
    { inotify with queue := inotify.queue.drop delivered.length })

/-- `std::map::emplace`. -/
def emplace (entries : Int32 → Option Path) (key : Int32) (path : Path) : Int32 → Option Path :=
  match entries key with
  | some _ => entries
  | none => Function.update entries key (some path)

/-- `inotify_add_watch` that returns `res`. The number of a watch that is there already is
returned where it is on the same file. -/
def Inotify.addWatch (inotify : Inotify) (path : Path) (res : Int32) : Inotify :=
  if res = -1 then inotify else { inotify with watches := emplace inotify.watches res path }

def Inotify.rmWatch (inotify : Inotify) (wd : Int32) : Int32 × Inotify :=
  match inotify.watches wd with
  | none => (-1, inotify)
  | some _ => (0, { inotify with
      queue := inotify.queue ++ [.ignored wd]
      watches := Function.update inotify.watches wd none })

/-! ### The reads of the kernel -/

theorem batch_starts (span limit : Nat) (queue : List Record) :
    batch span limit queue <+: queue := by
  induction limit generalizing span queue with
  | zero => exact List.nil_prefix
  | succ limit ih =>
      cases queue with
      | nil => exact List.nil_prefix
      | cons record rest =>
          unfold batch
          by_cases fits : record.encode.length ≤ span
          · rw [if_pos fits]
            exact List.cons_prefix_cons.2 ⟨rfl, ih ..⟩
          · rw [if_neg fits]
            exact List.nil_prefix

theorem batch_fits (span limit : Nat) (queue : List Record) :
    (encodeAll (batch span limit queue)).length ≤ span := by
  induction limit generalizing span queue with
  | zero => exact Nat.zero_le _
  | succ limit ih =>
      cases queue with
      | nil => exact Nat.zero_le _
      | cons record rest =>
          unfold batch
          by_cases fits : record.encode.length ≤ span
          · have later := ih (span - record.encode.length) rest
            rw [if_pos fits]
            unfold encodeAll at later ⊢
            rw [List.flatMap_cons, List.length_append]
            omega
          · rw [if_neg fits]
            exact Nat.zero_le _

theorem Record.length_header (record : Record) : record.header.length = 16 := by
  unfold header
  rw [List.length_append, List.length_append, List.length_append, List.length_append]
  rw [length_store, length_store, length_store, length_store]
  rfl

theorem Record.encode_ne_nil (record : Record) : record.encode ≠ [] := by
  intro empty
  have length := congrArg List.length empty
  unfold encode at length
  rw [List.length_append, record.length_header] at length
  rw [List.length_nil] at length
  omega

theorem encodeAll_eq_nil {records : List Record} (empty : encodeAll records = []) :
    records = [] := by
  cases records with
  | nil => rfl
  | cons record rest =>
      have first := (List.append_eq_nil_iff.1 empty).1
      exact absurd first record.encode_ne_nil

theorem encodeAll_append (front back : List Record) :
    encodeAll (front ++ back) = encodeAll front ++ encodeAll back :=
  List.flatMap_append

theorem Inotify.read_ok {inotify next : Inotify} {span : Nat} {bytes : Bytes}
    (answer : inotify.read span = (.ok bytes, next)) :
    ∃ delivered, bytes = encodeAll delivered ∧ inotify.queue = delivered ++ next.queue ∧
      next.watches = inotify.watches ∧ bytes.length ≤ span ∧
      (delivered = [] → inotify.queue = []) := by
  unfold read at answer
  dsimp only at answer
  by_cases blocked : batch span (inotify.limit + 1) inotify.queue = [] ∧ inotify.queue ≠ []
  · rw [if_pos blocked] at answer
    cases answer
  · rw [if_neg blocked] at answer
    cases answer
    refine ⟨_, rfl, ?_, rfl, batch_fits .., ?_⟩
    · exact List.prefix_iff_eq_append.1 (batch_starts ..) |>.symm
    · intro nothing
      by_contra waiting
      exact blocked ⟨nothing, waiting⟩

def source : Source Inotify where
  rawRead := Inotify.read
  rawWrite inotify _ := (.error (.errc Fallbacks.badFileDescriptor), inotify)
  rawFlush inotify := (.ok (), inotify)
  pending inotify := encodeAll inotify.queue
  fits := by
    intro inotify span bytes next answer
    obtain ⟨_, _, _, _, fits, _⟩ := Inotify.read_ok answer
    exact fits
  delivers := by
    intro inotify span bytes next answer
    obtain ⟨delivered, rfl, split, _⟩ := Inotify.read_ok answer
    rw [split, encodeAll_append]
  progress := by
    intro inotify span next answer
    obtain ⟨delivered, empty, _, _, _, nothing⟩ := Inotify.read_ok answer
    right
    rw [nothing (encodeAll_eq_nil empty.symm)]
    rfl
  failure := by
    intro inotify span code next answer
    unfold Inotify.read at answer
    dsimp only at answer
    by_cases blocked : batch span (inotify.limit + 1) inotify.queue = [] ∧ inotify.queue ≠ []
    · rw [if_pos blocked] at answer
      cases answer
      exact ⟨rfl, nofun⟩
    · rw [if_neg blocked] at answer
      cases answer

theorem Inotify.read_first {inotify : Inotify} {record : Record} {rest : List Record}
    (queue : inotify.queue = record :: rest) (fits : record.encode.length ≤ kStreamBufferSize) :
    ∃ more next, inotify.read kStreamBufferSize = (.ok (encodeAll (record :: more)), next) ∧
      rest = more ++ next.queue ∧ next.watches = inotify.watches := by
  have first : batch kStreamBufferSize (inotify.limit + 1) inotify.queue =
      record :: batch (kStreamBufferSize - record.encode.length) inotify.limit rest := by
    rw [queue, batch, if_pos fits]
  cases answer : inotify.read kStreamBufferSize with
  | mk reply next =>
      unfold read at answer
      rw [first] at answer
      dsimp only at answer
      rw [if_neg (fun both => by cases both.1), queue] at answer
      cases answer
      refine ⟨_, _, rfl, ?_, rfl⟩
      exact List.prefix_iff_eq_append.1 (batch_starts ..) |>.symm

/-! ### FileWatch -/

/-- `std::system_error` with the number in errno. -/
structure SystemError where
  deriving DecidableEq, Repr

def throwingErrorErrno (res : Int32) : Except SystemError Int32 :=
  if res = -1 then .error {} else .ok res

/-- mFile is the descriptor of the instance that the stream reads. -/
structure FileWatch where
  mStream : BorrowedStream Inotify
  mEventBuffer : Bytes
  mWatches : Int32 → Option Path

structure WaitFileResult where
  path : Path
  event : UInt32
  deriving DecidableEq, Repr

inductive WaitException where
  | runtimeError (what : String)
  | outOfRange
  deriving DecidableEq, Repr

inductive Waited where
  | value (result : WaitFileResult)
  | error (code : ErrorCode)
  | thrown (exception : WaitException)
  deriving DecidableEq, Repr

namespace FileWatch

def new : FileWatch :=
  { mStream := fresh {}
    mEventBuffer := List.replicate 16 0
    mWatches := fun _ => none }

def inotify (watch : FileWatch) : Inotify :=
  watch.mStream.mRaw

def setInotify (watch : FileWatch) (inotify : Inotify) : FileWatch :=
  { watch with mStream := { watch.mStream with mRaw := inotify } }

/-- `res` is what the kernel returns. -/
def add (watch : FileWatch) (path : Path) (res : Int32) : Except SystemError Int32 × FileWatch :=
  let watch := watch.setInotify (watch.inotify.addWatch path res)
  match throwingErrorErrno res with
  | .error e => (.error e, watch)
  | .ok wd => (.ok wd, { watch with mWatches := emplace watch.mWatches wd path })

/-- The calls of add in watch, up to the first that throws. -/
def addAll (watch : FileWatch) : List (Path × Int32) → Except SystemError Unit × FileWatch
  | [] => (.ok (), watch)
  | (path, res) :: rest =>
      match watch.add path res with
      | (.error e, watch) => (.error e, watch)
      | (.ok _, watch) => addAll watch rest

/-- What watch adds; the entries are those that the directory iterator comes to. -/
def watched (path : Path × Int32) (recursive isDirectory : Bool) (entries : List (Path × Int32)) :
    List (Path × Int32) :=
  path :: if recursive && isDirectory then entries else []

def watch (files : FileWatch) (path : Path × Int32) (recursive isDirectory : Bool)
    (entries : List (Path × Int32)) : Except SystemError Unit × FileWatch :=
  files.addAll (watched path recursive isDirectory entries)

def remove (watch : FileWatch) (wd : Int32) : Except SystemError Unit × FileWatch :=
  let (res, inotify) := watch.inotify.rmWatch wd
  let watch := watch.setInotify inotify
  match throwingErrorErrno res with
  | .error e => (.error e, watch)
  | .ok _ => (.ok (), { watch with mWatches := Function.update watch.mWatches wd none })

/-! The fields of the structure in mEventBuffer. -/

def eventWd (watch : FileWatch) : Int32 :=
  (UInt32.ofNat (field watch.mEventBuffer 0 4)).toInt32

def eventMask (watch : FileWatch) : UInt32 :=
  UInt32.ofNat (field watch.mEventBuffer 4 4)

def eventLen (watch : FileWatch) : Nat :=
  field watch.mEventBuffer 12 4

/-- `path /= make_path(name)` where there is a name. -/
def joined (path : Path) (name : Text) : Path :=
  if name = [] then path else append path (makePath name)

def wait (fuel : Nat) (watch : FileWatch) : Except BufferFault (Waited × FileWatch) := do
  let (got, buffer, stream) ← watch.mStream.getstruct source.toStream fuel watch.mEventBuffer
  let watch := { watch with
    mStream := stream
    mEventBuffer := buffer }
  match got with
  | .error _ => return (.thrown (.runtimeError "EOF while reading struct"), watch)
  | .ok () =>
      let (got, name, stream) ← watch.mStream.getn source.toStream fuel [] watch.eventLen
      let watch := { watch with mStream := stream }
      match got with
      | .error code => return (.error code, watch)
      | .ok () =>
          match watch.mWatches watch.eventWd with
          | none => return (.thrown .outOfRange, watch)
          | some path =>
              return (.value
                { path := joined path (cStr name)
                  event := watch.eventMask }, watch)

end FileWatch

/-! ### What wait does -/

/-- What is to be returned for a record of a watch that was made with the path. -/
def Record.result (record : Record) (path : Path) : WaitFileResult :=
  { path := if record.name = [] then path else append path record.name
    event := record.mask }

/-- What wait returns for a record, given the entry of its watch. -/
def Record.outcome (record : Record) : Option Path → Waited
  | none => .thrown .outOfRange
  | some path => .value (record.result path)

theorem cStr_body {record : Record} (formed : record.WellFormed) : cStr record.body = record.name := by
  unfold cStr Record.body
  rw [List.takeWhile_append_of_pos]
  · cases record.padding with
    | zero => exact List.append_nil _
    | succ padding => exact List.append_nil _
  · intro c member
    have differs : c ≠ 0 := by
      rintro rfl
      exact formed.named member
    exact decide_eq_true differs

theorem cStr_name {record : Record} (formed : record.WellFormed) : cStr record.name = record.name := by
  unfold cStr
  rw [List.takeWhile_eq_self_iff]
  intro c member
  have differs : c ≠ 0 := by
    rintro rfl
    exact formed.named member
  exact decide_eq_true differs

theorem Record.length_body (record : Record) : record.body.length = record.len := by
  unfold body len
  rw [List.length_append, List.length_replicate]

theorem Record.len_lt {record : Record} (formed : record.WellFormed) : record.len < 256 ^ 4 := by
  have small := formed.small
  unfold encode kStreamBufferSize at small
  rw [List.length_append, record.length_body] at small
  omega

theorem word_lt (word : UInt32) : word.toNat < 256 ^ 4 :=
  word.toNat_lt

section Header

variable {watch : FileWatch} {record : Record}

theorem eventWd_header (loaded : watch.mEventBuffer = record.header) :
    watch.eventWd = record.wd := by
  have before : ([] : Bytes).length = 0 := rfl
  have wd : field record.header 0 4 = record.wd.toUInt32.toNat :=
    field_store before (word_lt record.wd.toUInt32)
  unfold FileWatch.eventWd
  rw [loaded, wd, UInt32.ofNat_toNat]
  rfl

theorem eventMask_header (loaded : watch.mEventBuffer = record.header) :
    watch.eventMask = record.mask := by
  have mask : field record.header 4 4 = record.mask.toNat :=
    field_store (length_store 4 record.wd.toUInt32.toNat) (word_lt record.mask)
  unfold FileWatch.eventMask
  rw [loaded, mask, UInt32.ofNat_toNat]

theorem eventLen_header (formed : record.WellFormed)
    (loaded : watch.mEventBuffer = record.header) : watch.eventLen = record.len := by
  have before : (store 4 record.wd.toUInt32.toNat ++
      (store 4 record.mask.toNat ++ store 4 record.cookie.toNat)).length = 12 := by
    rw [List.length_append, List.length_append, length_store, length_store, length_store]
  have len : field record.header 12 4 = record.len := by
    unfold Record.header
    rw [← List.append_assoc (store 4 record.mask.toNat), ← List.append_assoc]
    exact field_store before (Record.len_lt formed)
  unfold FileWatch.eventLen
  rw [loaded, len]

end Header

/-- What is true between the calls: the buffer of the stream and the queue of the kernel
hold the records, and the buffer ends between two of them. -/
structure Unread (watch : FileWatch) (records : List Record) : Prop where
  valid : Valid watch.mStream
  loaded : watch.mEventBuffer.length = 16
  formed : ∀ record ∈ records, record.WellFormed
  stored : ∃ buffered, window watch.mStream = encodeAll buffered ∧
    records = buffered ++ watch.inotify.queue

theorem Unread.setInotify {watch : FileWatch} {records queued : List Record}
    (unread : Unread watch records) (inotify : Inotify)
    (queue : inotify.queue = watch.inotify.queue ++ queued)
    (formed : ∀ record ∈ queued, record.WellFormed) :
    Unread (watch.setInotify inotify) (records ++ queued) := by
  obtain ⟨buffered, stored, split⟩ := unread.stored
  constructor
  case valid => exact ⟨unread.valid.ordered, unread.valid.bounded, unread.valid.capacity⟩
  case loaded => exact unread.loaded
  case formed =>
    intro record member
    rcases List.mem_append.1 member with earlier | later
    · exact unread.formed record earlier
    · exact formed record later
  case stored =>
    refine ⟨buffered, stored, ?_⟩
    change _ = buffered ++ inotify.queue
    rw [split, queue, List.append_assoc]

theorem Unread.setWatches {watch : FileWatch} {records : List Record}
    (unread : Unread watch records) (entries : Int32 → Option Path) :
    Unread { watch with mWatches := entries } records :=
  ⟨unread.valid, unread.loaded, unread.formed, unread.stored⟩

theorem unread_new : Unread .new [] where
  valid := Valid.fresh ({} : Inotify)
  loaded := rfl
  formed := fun _ => nofun
  stored := ⟨[], rfl, rfl⟩

/-- getstruct leaves what stands behind the header of the first record. -/
structure Headed (watch : FileWatch) (record : Record) (rest : List Record)
    (stream : BorrowedStream Inotify) : Prop where
  valid : Valid stream
  watches : stream.mRaw.watches = watch.inotify.watches
  stored : ∃ buffered, window stream = record.body ++ encodeAll buffered ∧
    rest = buffered ++ stream.mRaw.queue

theorem getstruct_buffered {stream : BorrowedStream Inotify} (valid : Valid stream) {ret : Bytes}
    (sized : ret.length = 16) {record : Record} {more : List Record}
    (stored : window stream = encodeAll (record :: more)) (fuel : Nat) :
    ∃ next, stream.getstruct source.toStream (fuel + 1) ret =
        .ok (.ok (), record.header, next) ∧ Valid next ∧ next.mRaw = stream.mRaw ∧
      window next = record.body ++ encodeAll more := by
  have whole : window stream = record.header ++ (record.body ++ encodeAll more) := by
    rw [stored, ← List.append_assoc]
    rfl
  have inside : ret.length ≤ (window stream).length := by
    rw [whole, List.length_append, record.length_header, sized]
    exact Nat.le_add_right ..
  have reads := getspanLoop_buffered source.toStream valid (by omega : ret.length < 2 ^ 63) inside
    fuel
  refine ⟨stream.seenbuf ret.length, ?_, (remaining_seenbuf source valid inside).1, rfl, ?_⟩
  · rw [getstruct, getspan, reads, whole, sized, List.take_left' record.length_header]
  · rw [window_seenbuf, whole, sized, List.drop_left' record.length_header]

theorem getstruct_headed {watch : FileWatch} {record : Record} {rest : List Record}
    (unread : Unread watch (record :: rest)) {fuel : Nat} (enough : 2 ≤ fuel) :
    ∃ stream, watch.mStream.getstruct source.toStream fuel watch.mEventBuffer =
        .ok (.ok (), record.header, stream) ∧ Headed watch record rest stream := by
  obtain ⟨fuel, rfl⟩ := Nat.exists_eq_add_of_le' enough
  obtain ⟨buffered, stored, split⟩ := unread.stored
  have small := (unread.formed record (List.mem_cons_self ..)).small
  cases buffered with
  | cons first more =>
      have heads := List.cons.inj split
      obtain ⟨rfl, behind⟩ := heads
      obtain ⟨stream, gets, valid, same, left⟩ :=
        getstruct_buffered unread.valid unread.loaded stored (fuel + 1)
      refine ⟨stream, gets, ?_⟩
      constructor
      case valid => exact valid
      case watches => exact congrArg Inotify.watches same
      case stored =>
        refine ⟨more, left, ?_⟩
        rw [same]
        exact behind
  | nil =>
      -- the buffer is empty, and one read brings the record
      obtain ⟨more, next, answer, behind, watches⟩ := Inotify.read_first split.symm small
      have delivered : encodeAll (record :: more) ≠ [] := by
        intro nothing
        cases encodeAll_eq_nil nothing
      have nonempty : watch.mEventBuffer ≠ [] := by
        intro nothing
        have length := unread.loaded
        rw [nothing] at length
        cases length
      obtain ⟨refilled, starts, valid, full, device⟩ :=
        getspan_empty source unread.valid (by rw [unread.loaded]; decide) nonempty stored answer
          delivered (fuel + 1)
      obtain ⟨stream, gets, valid, same, left⟩ :=
        getstruct_buffered valid unread.loaded full fuel
      refine ⟨stream, ?_, ?_⟩
      · rw [getstruct, starts]
        exact gets
      · constructor
        case valid => exact valid
        case watches =>
          rw [same, device]
          exact watches
        case stored =>
          refine ⟨more, left, ?_⟩
          rw [same, device]
          exact behind

theorem wait_takes {watch : FileWatch} {record : Record} {rest : List Record}
    (unread : Unread watch (record :: rest)) {fuel : Nat} (enough : 2 ≤ fuel) :
    ∃ next, watch.wait fuel = .ok (record.outcome (watch.mWatches record.wd), next) ∧
      Unread next rest ∧ next.mWatches = watch.mWatches ∧
      next.inotify.watches = watch.inotify.watches := by
  have formed := unread.formed record (List.mem_cons_self ..)
  obtain ⟨stream, gets, headed⟩ := getstruct_headed unread enough
  obtain ⟨buffered, stored, split⟩ := headed.stored
  let loaded : FileWatch := { watch with
    mStream := stream
    mEventBuffer := record.header }
  have len : loaded.eventLen = record.body.length := by
    rw [eventLen_header formed rfl, record.length_body]
  have inside : record.body.length ≤ (window stream).length := by
    rw [stored, List.length_append]
    exact Nat.le_add_right ..
  have name : stream.getn source.toStream fuel [] loaded.eventLen =
      .ok (.ok (), record.body, stream.seenbuf record.body.length) := by
    obtain ⟨fuel, rfl⟩ := Nat.exists_eq_add_of_le' enough
    rw [len, getn, getnLoop_buffered source.toStream headed.valid [] inside, stored, List.take_left]
    rfl
  let next : FileWatch := { loaded with mStream := stream.seenbuf record.body.length }
  have takes : watch.wait fuel = .ok (record.outcome (watch.mWatches record.wd), next) := by
    unfold FileWatch.wait
    rw [gets]
    change (stream.getn source.toStream fuel [] loaded.eventLen).bind _ = _
    rw [name]
    change (match watch.mWatches next.eventWd with
      | none => Except.ok (Waited.thrown .outOfRange, next)
      | some path => Except.ok (Waited.value
          { path := FileWatch.joined path (cStr record.body)
            event := next.eventMask }, next)) = _
    have wd : next.eventWd = record.wd := eventWd_header rfl
    have mask : next.eventMask = record.mask := eventMask_header rfl
    rw [wd, mask, cStr_body formed]
    cases watch.mWatches record.wd with
    | none => rfl
    | some path =>
        have same : FileWatch.joined path record.name = (record.result path).path := by
          unfold FileWatch.joined makePath
          rw [cStr_name formed]
          rfl
        dsimp only
        rw [same]
        rfl
  refine ⟨next, takes, ?_, rfl, headed.watches⟩
  constructor
  case valid => exact (remaining_seenbuf source headed.valid inside).1
  case loaded => exact record.length_header
  case formed =>
    intro other member
    exact unread.formed other (List.mem_cons_of_mem record member)
  case stored =>
    refine ⟨buffered, ?_, split⟩
    change window (stream.seenbuf record.body.length) = _
    rw [window_seenbuf, stored, List.drop_left]

end MCoro.FileWatches
