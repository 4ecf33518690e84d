/-
The fixed buffers and files of PlatformIOContext, from co_async/platform/platform_io.cpp.

Both are an array of the context and the table that the kernel has of it. The
registrations succeed. One growth doubles the capacity and adds one, whatever the
number of entries that a call adds, so a call with more than fit writes behind the
end of the array.
-/

import MCoro.Iostream.BytesBuffer

namespace MCoro

open Segments

/-- The array with its two counters, and the table in the kernel. -/
structure FixedTable (Entry : Type) where
  entries : List Entry := []
  num : Nat := 0
  cap : Nat := 0
  registered : List (Option Entry) := []

/-- Stores through a pointer to an element of the array. -/
def storeAll {Entry : Type} (entries : List Entry) (start : Nat) (values : List Entry) :
    Except BufferFault (List Entry) :=
  if start + values.length ≤ entries.length then .ok (overwrite entries start values)
  else .error .outOfBounds

/-- `memcpy` of the first elements of an array. -/
def loadAll {Entry : Type} (entries : List Entry) (count : Nat) :
    Except BufferFault (List Entry) :=
  if count ≤ entries.length then .ok (entries.take count) else .error .outOfBounds

namespace FixedTable

variable {Entry : Type}

/-- The update_tag calls. -/
def updateTag (registered : List (Option Entry)) (off : Nat) (values : List Entry) :
    List (Option Entry) :=
  overwrite registered off (values.map some)

/-- reserveBuffers and reserveFiles. The sparse registration, behind the removal of an
earlier one, is a table of empty slots. -/
def reserve (zero : Entry) (table : FixedTable Entry) (n : Nat) :
    Except BufferFault (FixedTable Entry) := do
  let old ← loadAll table.entries table.num
  let entries ← storeAll (List.replicate n zero) 0 old
  let sparse := List.replicate (n % 2 ^ 32) none
  return { entries := entries
           num := table.num
           cap := n % 2 ^ 32
           registered := updateTag sparse 0 (entries.take table.num) }

/-- The opening lines of addBuffers and addFiles. -/
def reserveIfFull (zero : Entry) (table : FixedTable Entry) :
    Except BufferFault (FixedTable Entry) :=
  if table.cap ≤ table.num then table.reserve zero ((table.cap * 2 + 1) % 2 ^ 32) else .ok table

def add (zero : Entry) (table : FixedTable Entry) (values : List Entry) :
    Except BufferFault (Nat × FixedTable Entry) := do
  let table ← table.reserveIfFull zero
  let entries ← storeAll table.entries table.num values
  let added := slice entries table.num (table.num + values.length)
  return (table.num,
    { entries := entries
      num := (table.num + values.length % 2 ^ 32) % 2 ^ 32
      cap := table.cap
      registered := updateTag table.registered table.num added })

end FixedTable

structure CharSpan where
  data : UInt64
  size : UInt64
  deriving DecidableEq, Repr

structure Iovec where
  iovBase : UInt64
  iovLen : UInt64
  deriving DecidableEq, Repr

def Iovec.ofSpan (buf : CharSpan) : Iovec :=
  { iovBase := buf.data
    iovLen := buf.size }

/-- The members of PlatformIOContext for fixed buffers and files. -/
structure Registrations where
  buffers : FixedTable Iovec := {}
  files : FixedTable Int32 := {}

namespace Registrations

def reserveBuffers (context : Registrations) (nbufs : Nat) : Except BufferFault Registrations := do
  let buffers ← context.buffers.reserve { iovBase := 0, iovLen := 0 } nbufs
  return { context with buffers := buffers }

def addBuffers (context : Registrations) (bufs : List CharSpan) :
    Except BufferFault (Nat × Registrations) := do
  let (ret, buffers) ← context.buffers.add { iovBase := 0, iovLen := 0 } (bufs.map Iovec.ofSpan)
  return (ret, { context with buffers := buffers })

def reserveFiles (context : Registrations) (nfiles : Nat) : Except BufferFault Registrations := do
  let files ← context.files.reserve 0 nfiles
  return { context with files := files }

def addFiles (context : Registrations) (files : List Int32) :
    Except BufferFault (Nat × Registrations) := do
  let (ret, files) ← context.files.add 0 files
  return (ret, { context with files := files })

end Registrations

/-! ### One call -/

namespace FixedTable

variable {Entry : Type} {zero : Entry} {table : FixedTable Entry} {values : List Entry}

/-- The counters are those of the array, and the kernel has the entries. -/
structure Inv (table : FixedTable Entry) : Prop where
  bounded : table.num ≤ table.cap
  allocated : table.cap = table.entries.length
  small : table.cap < 2 ^ 32
  slots : table.registered.length = table.cap
  known : table.registered.take table.num = (table.entries.take table.num).map some

/-- What a call is to do: the entries stay where they are, and the new ones come behind
them, in the array and in the kernel. -/
structure Adds (before : FixedTable Entry) (values : List Entry) (ret : Nat)
    (after : FixedTable Entry) : Prop where
  bounded : after.num ≤ after.cap
  allocated : after.cap = after.entries.length
  returned : ret = before.num
  count : after.num = before.num + values.length
  kept : after.entries.take before.num = before.entries.take before.num
  placed : slice after.entries ret (ret + values.length) = values
  registeredKept : after.registered.take before.num = before.registered.take before.num
  registeredPlaced : slice after.registered ret (ret + values.length) = values.map some

/-- The capacity that a call works with. -/
def grown (num cap : Nat) : Nat :=
  if cap ≤ num then (cap * 2 + 1) % 2 ^ 32 else cap

theorem Inv.initial : Inv ({} : FixedTable Entry) := by
  constructor
  case bounded => exact Nat.le_refl 0
  case allocated => rfl
  case small => exact Nat.two_pow_pos 32
  case slots => rfl
  case known => rfl

theorem overwrite_replicate {α : Type} (cell : α) (n : Nat) (cells : List α) :
    overwrite (List.replicate n cell) 0 cells =
      cells ++ List.replicate (n - cells.length) cell := by
  unfold overwrite
  rw [List.take_zero, List.nil_append, List.drop_replicate, Nat.zero_add]

theorem Inv.take_length (inv : Inv table) : (table.entries.take table.num).length = table.num := by
  have bounded := inv.bounded
  have allocated := inv.allocated
  rw [List.length_take]
  omega

theorem reserve_ok (zero : Entry) (inv : Inv table) {n : Nat} (fits : table.num ≤ n)
    (small : n < 2 ^ 32) :
    ∃ after, table.reserve zero n = .ok after ∧ Inv after ∧ after.num = table.num ∧
      after.cap = n ∧ after.entries.take table.num = table.entries.take table.num := by
  have length := inv.take_length
  have loaded : loadAll table.entries table.num = .ok (table.entries.take table.num) :=
    if_pos (inv.bounded.trans inv.allocated.le)
  have stored : storeAll (List.replicate n zero) 0 (table.entries.take table.num) =
      .ok (table.entries.take table.num ++ List.replicate (n - table.num) zero) := by
    unfold storeAll
    rw [if_pos (by rw [length, List.length_replicate]; omega), overwrite_replicate, length]
  have front : (table.entries.take table.num ++ List.replicate (n - table.num) zero).take
      table.num = table.entries.take table.num := List.take_left' length
  have told : updateTag (List.replicate (n % 2 ^ 32) none) 0 (table.entries.take table.num) =
      (table.entries.take table.num).map some ++ List.replicate (n - table.num) none := by
    unfold updateTag
    rw [Nat.mod_eq_of_lt small, overwrite_replicate, List.length_map, length]
  refine ⟨
    { entries := table.entries.take table.num ++ List.replicate (n - table.num) zero
      num := table.num
      cap := n
      registered :=
        (table.entries.take table.num).map some ++ List.replicate (n - table.num) none },
    ?_, ?_, rfl, rfl, front⟩
  · unfold reserve
    rw [loaded]
    change (storeAll _ 0 _).bind _ = _
    rw [stored]
    change Except.ok _ = _
    rw [front, told, Nat.mod_eq_of_lt small]
  · constructor
    case bounded => exact fits
    case allocated =>
      change n = (_ ++ _ : List Entry).length
      rw [List.length_append, length, List.length_replicate]
      omega
    case small => exact small
    case slots =>
      change (_ ++ _ : List (Option Entry)).length = n
      rw [List.length_append, List.length_map, length, List.length_replicate]
      omega
    case known =>
      change (_ ++ _ : List (Option Entry)).take table.num = _
      rw [front, List.take_append_of_le_length (by rw [List.length_map]; exact length.ge),
        List.take_of_length_le (by rw [List.length_map]; exact length.le)]

theorem reserve_fault (zero : Entry) (inv : Inv table) {n : Nat} (beyond : n < table.num) :
    table.reserve zero n = .error .outOfBounds := by
  have length := inv.take_length
  have loaded : loadAll table.entries table.num = .ok (table.entries.take table.num) :=
    if_pos (inv.bounded.trans inv.allocated.le)
  have outside : storeAll (List.replicate n zero) 0 (table.entries.take table.num) =
      .error .outOfBounds := by
    unfold storeAll
    rw [if_neg]
    rw [length, List.length_replicate]
    omega
  unfold reserve
  rw [loaded]
  change (storeAll _ 0 _).bind _ = _
  rw [outside]
  rfl

theorem reserveIfFull_ok (zero : Entry) (inv : Inv table)
    (fits : table.num ≤ grown table.num table.cap) :
    ∃ after, table.reserveIfFull zero = .ok after ∧ Inv after ∧ after.num = table.num ∧
      after.cap = grown table.num table.cap ∧
      after.entries.take table.num = table.entries.take table.num := by
  unfold reserveIfFull
  unfold grown at fits ⊢
  by_cases full : table.cap ≤ table.num
  · rw [if_pos full] at fits ⊢
    rw [if_pos full]
    exact reserve_ok zero inv fits (Nat.mod_lt _ (Nat.two_pow_pos 32))
  · rw [if_neg full, if_neg full]
    exact ⟨table, rfl, inv, rfl, rfl, rfl⟩

theorem updateTag_length {registered : List (Option Entry)} {off : Nat}
    (room : off + values.length ≤ registered.length) :
    (updateTag registered off values).length = registered.length := by
  unfold updateTag
  exact overwrite_length (by rw [List.length_map]; exact room)

theorem updateTag_take {registered : List (Option Entry)} {off : Nat}
    (room : off + values.length ≤ registered.length) :
    (updateTag registered off values).take (off + values.length) =
      registered.take off ++ values.map some := by
  have length : (values.map (some : Entry → Option Entry)).length = values.length :=
    List.length_map some
  rw [← length] at room ⊢
  exact take_overwrite room

theorem take_of_take_append {α : Type} {block after cells : List α} {start count : Nat}
    (taken : after.take (start + count) = block.take start ++ cells)
    (room : start ≤ block.length) : after.take start = block.take start := by
  have length : (block.take start).length = start := by
    rw [List.length_take]
    omega
  have both := congrArg (List.take start) taken
  rw [List.take_take, Nat.min_eq_left (Nat.le_add_right start count),
    List.take_left' length] at both
  exact both

theorem add_ok (zero : Entry) (inv : Inv table)
    (fits : table.num + values.length ≤ grown table.num table.cap) :
    ∃ after, table.add zero values = .ok (table.num, after) ∧ Inv after ∧
      Adds table values table.num after ∧ after.cap = grown table.num table.cap := by
  obtain ⟨opened, reserved, openedInv, sameNum, cap, sameEntries⟩ :=
    reserveIfFull_ok zero inv (Nat.le_of_add_right_le fits)
  rw [← cap, ← sameNum] at fits
  have bounded := openedInv.bounded
  have allocated := openedInv.allocated
  have small := openedInv.small
  have slots := openedInv.slots
  have room : opened.num + values.length ≤ opened.entries.length := by omega
  have stored : storeAll opened.entries opened.num values =
      .ok (overwrite opened.entries opened.num values) := if_pos room
  have added : slice (overwrite opened.entries opened.num values) opened.num
      (opened.num + values.length) = values := slice_overwrite room
  have num : (opened.num + values.length % 2 ^ 32) % 2 ^ 32 = opened.num + values.length := by
    omega
  refine ⟨
    { entries := overwrite opened.entries opened.num values
      num := opened.num + values.length
      cap := opened.cap
      registered := updateTag opened.registered opened.num values },
    ?_, ?_, ?_, cap⟩
  · unfold add
    rw [reserved]
    change (storeAll opened.entries opened.num values).bind _ = _
    rw [stored]
    change Except.ok _ = _
    rw [added, num, sameNum]
  · constructor
    case bounded =>
      change opened.num + values.length ≤ opened.cap
      omega
    case allocated => exact allocated.trans (overwrite_length room).symm
    case small => exact small
    case slots => exact (updateTag_length (slots ▸ allocated ▸ room)).trans slots
    case known =>
      change (updateTag _ _ _).take (opened.num + values.length) = _
      rw [updateTag_take (slots ▸ allocated ▸ room), openedInv.known, take_overwrite room,
        List.map_append]
  · have told : opened.registered.take opened.num = table.registered.take table.num := by
      rw [openedInv.known, inv.known, sameNum, sameEntries]
    have toldRoom : opened.num + values.length ≤ opened.registered.length := by omega
    rw [← sameNum] at sameEntries told ⊢
    constructor
    case bounded =>
      change opened.num + values.length ≤ opened.cap
      omega
    case allocated => exact allocated.trans (overwrite_length room).symm
    case returned => exact sameNum
    case count => exact congrArg (· + values.length) sameNum
    case kept =>
      rw [← sameNum, ← sameEntries]
      exact take_of_take_append (take_overwrite room) (Nat.le_of_add_right_le room)
    case placed => exact added
    case registeredKept =>
      rw [← sameNum, ← told]
      exact take_of_take_append (updateTag_take toldRoom) (Nat.le_of_add_right_le toldRoom)
    case registeredPlaced =>
      have length : (values.map (some : Entry → Option Entry)).length = values.length :=
        List.length_map some
      rw [← length] at toldRoom ⊢
      exact slice_overwrite toldRoom

theorem add_fault (zero : Entry) (inv : Inv table)
    (beyond : ¬table.num + values.length ≤ grown table.num table.cap) :
    table.add zero values = .error .outOfBounds := by
  by_cases kept : table.num ≤ grown table.num table.cap
  · obtain ⟨opened, reserved, openedInv, sameNum, cap, _⟩ := reserveIfFull_ok zero inv kept
    have allocated := openedInv.allocated
    have outside : storeAll opened.entries opened.num values = .error .outOfBounds := by
      unfold storeAll
      rw [if_neg]
      rw [← allocated, cap, sameNum]
      exact beyond
    unfold add
    rw [reserved]
    change (storeAll opened.entries opened.num values).bind _ = _
    rw [outside]
    rfl
  · have bounded := inv.bounded
    unfold grown at kept
    have full : table.cap ≤ table.num := by
      by_contra below
      rw [if_neg below] at kept
      exact kept bounded
    rw [if_pos full] at kept
    unfold add reserveIfFull
    rw [if_pos full, reserve_fault zero inv (Nat.lt_of_not_le kept)]
    rfl

/-- Room for each of the calls that add so many entries, from the counters on. -/
def Fit : Nat → Nat → List Nat → Prop
  | _, _, [] => True
  | num, cap, count :: counts =>
      num + count ≤ grown num cap ∧ Fit (num + count) (grown num cap) counts

end FixedTable

/-! ### Many calls -/

namespace Registrations

open FixedTable

inductive AddCall where
  | buffers (bufs : List CharSpan)
  | files (fds : List Int32)
  deriving DecidableEq, Repr

def AddCall.run (context : Registrations) : AddCall → Except BufferFault (Nat × Registrations)
  | .buffers bufs => context.addBuffers bufs
  | .files fds => context.addFiles fds

/-- What the call is to do, and nothing to the other table. -/
def AddCall.Right (before : Registrations) (ret : Nat) (after : Registrations) : AddCall → Prop
  | .buffers bufs =>
      Adds before.buffers (bufs.map Iovec.ofSpan) ret after.buffers ∧ after.files = before.files
  | .files fds => Adds before.files fds ret after.files ∧ after.buffers = before.buffers

/-- Every call stays inside the arrays and does what it is to do. -/
def AllRight : Registrations → List AddCall → Prop
  | _, [] => True
  | context, call :: calls =>
      ∃ ret after, call.run context = .ok (ret, after) ∧ call.Right context ret after ∧
        AllRight after calls

def AddCall.bufferCount : AddCall → Option Nat
  | .buffers bufs => some bufs.length
  | .files _ => none

def AddCall.fileCount : AddCall → Option Nat
  | .buffers _ => none
  | .files fds => some fds.length

variable {context : Registrations} {calls : List AddCall}

theorem allRight_step {call : AddCall} {ret : Nat} {after : Registrations}
    (ran : call.run context = .ok (ret, after)) (right : call.Right context ret after) :
    AllRight context (call :: calls) ↔ AllRight after calls := by
  constructor
  · intro all
    obtain ⟨ret', after', ran', _, rest⟩ := all
    cases ran.symm.trans ran'
    exact rest
  · intro rest
    exact ⟨ret, after, ran, right, rest⟩

theorem not_allRight {call : AddCall} {fault : BufferFault}
    (ran : call.run context = .error fault) : ¬AllRight context (call :: calls) := by
  intro all
  obtain ⟨ret, after, ran', _⟩ := all
  cases ran.symm.trans ran'

theorem addBuffers_of_add {bufs : List CharSpan} {ret : Nat} {after : FixedTable Iovec}
    (added : context.buffers.add { iovBase := 0, iovLen := 0 } (bufs.map Iovec.ofSpan) =
      .ok (ret, after)) :
    context.addBuffers bufs = .ok (ret, { context with buffers := after }) := by
  unfold addBuffers
  rw [added]
  rfl

theorem addFiles_of_add {fds : List Int32} {ret : Nat} {after : FixedTable Int32}
    (added : context.files.add 0 fds = .ok (ret, after)) :
    context.addFiles fds = .ok (ret, { context with files := after }) := by
  unfold addFiles
  rw [added]
  rfl

/-- One call, on the table that it is for; `other` is what the other table asks for. -/
theorem allRight_cons {Entry : Type} {zero : Entry} {table : FixedTable Entry}
    {values : List Entry} {counts : List Nat} {other : Prop} {call : AddCall}
    {store : FixedTable Entry → Registrations} (inv : Inv table)
    (ran : ∀ ret after, table.add zero values = .ok (ret, after) →
      call.run context = .ok (ret, store after))
    (faults : table.add zero values = .error .outOfBounds →
      call.run context = .error .outOfBounds)
    (right : ∀ after, Adds table values table.num after →
      call.Right context table.num (store after))
    (rest : ∀ after : FixedTable Entry, after.Inv →
      (AllRight (store after) calls ↔ Fit after.num after.cap counts ∧ other)) :
    AllRight context (call :: calls) ↔
      Fit table.num table.cap (values.length :: counts) ∧ other := by
  by_cases fits : table.num + values.length ≤ grown table.num table.cap
  · obtain ⟨after, added, invAfter, adds, cap⟩ := add_ok zero inv fits
    rw [allRight_step (ran _ after added) (right after adds), rest after invAfter, adds.count, cap,
      Fit, and_iff_right fits]
  · have fault := faults (add_fault zero inv fits)
    exact iff_of_false (not_allRight fault) fun fit => fits fit.1.1

theorem allRight_from (calls : List AddCall) (context : Registrations)
    (bufferInv : Inv context.buffers) (fileInv : Inv context.files) :
    AllRight context calls ↔
      Fit context.buffers.num context.buffers.cap (calls.filterMap AddCall.bufferCount) ∧
        Fit context.files.num context.files.cap (calls.filterMap AddCall.fileCount) := by
  induction calls generalizing context with
  | nil => exact ⟨fun _ => ⟨trivial, trivial⟩, fun _ => trivial⟩
  | cons call calls ih =>
      cases call with
      | buffers bufs =>
          have counts : (AddCall.buffers bufs :: calls).filterMap AddCall.bufferCount =
              (bufs.map Iovec.ofSpan).length :: calls.filterMap AddCall.bufferCount := by
            rw [List.length_map]
            rfl
          rw [counts]
          apply allRight_cons bufferInv
          case ran => exact fun ret after => addBuffers_of_add
          case faults =>
            intro faults
            unfold AddCall.run addBuffers
            dsimp only
            rw [faults]
            rfl
          case right => exact fun after adds => ⟨adds, rfl⟩
          case rest => exact fun after inv => ih { context with buffers := after } inv fileInv
      | files fds =>
          have counts : (AddCall.files fds :: calls).filterMap AddCall.fileCount =
              fds.length :: calls.filterMap AddCall.fileCount := rfl
          rw [counts, and_comm]
          apply allRight_cons fileInv
          case ran => exact fun ret after => addFiles_of_add
          case faults =>
            intro faults
            unfold AddCall.run addFiles
            dsimp only
            rw [faults]
            rfl
          case right => exact fun after adds => ⟨adds, rfl⟩
          case rest =>
            intro after inv
            rw [ih { context with files := after } bufferInv inv]
            exact and_comm

/-- The calls on a fresh context keep to the arrays just when each of them fits. -/
theorem allRight_iff (calls : List AddCall) :
    AllRight {} calls ↔
      Fit 0 0 (calls.filterMap AddCall.bufferCount) ∧
        Fit 0 0 (calls.filterMap AddCall.fileCount) :=
  allRight_from calls {} Inv.initial Inv.initial

/-- The first call, with two buffers or with two files. -/
theorem not_allRight_two :
    ¬AllRight {} [.buffers [{ data := 4096, size := 16 }, { data := 8192, size := 16 }]] ∧
      ¬AllRight {} [.files [3, 4]] := by
  constructor
  · have faults : AddCall.run {}
        (.buffers [{ data := 4096, size := 16 }, { data := 8192, size := 16 }]) =
          .error .outOfBounds := rfl
    exact not_allRight faults
  · have faults : AddCall.run {} (.files [3, 4]) = .error .outOfBounds := rfl
    exact not_allRight faults

end Registrations

end MCoro
