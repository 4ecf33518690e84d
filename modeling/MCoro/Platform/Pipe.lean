/-
send_file and recv_file of co_async/platform/pipe.hpp.

Both relay what one descriptor gives to another one through a pipe. A splice moves what
the kernel chooses. The inner loop counts down the bytes that the outer one has put in
the pipe, so that the pipe is empty whenever the outer loop fills it again.
-/

import MCoro.Platform.FileTransfers

namespace MCoro

open FileTransfers

/-- The system with pipe2, which leaves the numbers in `p`, and the close of the ring. -/
structure PipeKernel (State : Type) extends FileKernel State where
  pipe2 : State → Int × (Int × Int) × State
  close : State → Int → Int × State

namespace Pipe

/-- What a coroutine returns, with the system behind it. -/
abbrev Reply (State : Type) := Expected Unit × State

variable {State : Type} (kernel : PipeKernel State)

/-- `res` is -errno where pipe2 fails. -/
def fsPipe (state : State) : Expected (Int × Int) × State :=
  let (res, p, state) := kernel.pipe2 state
  ((Fallbacks.expectError res).transform fun _ => p, state)

/-- The fs_close statements at the end; the first that fails returns its error. -/
def closeAll : List Int → State → Reply State
  | [], state => (.ok (), state)
  | file :: files, state =>
      match Fallbacks.expectError (kernel.close state file).1 with
      | .error code => (.error code, (kernel.close state file).2)
      | .ok _ => closeAll files (kernel.close state file).2

/-- `splice` without offsets. -/
def splice (state : State) (fileIn fileOut : Int) (size : Nat) : Expected Nat × State :=
  fsSplice kernel.toFileKernel state fileIn fileOut size (-1) (-1)

def emptyLoop (readPipe target : Int) : Nat → Nat → State → Option (Reply State)
  | 0, _, _ => none
  | fuel + 1, n, state =>
      match splice kernel state readPipe target n with
      | (.error code, state) => some (.error code, state)
      | (.ok m, state) =>
          if m < n then emptyLoop readPipe target fuel (n - m) state else some (.ok (), state)

/-- The outer loop; `limit` is the fuel of the inner one. -/
def relayLoop (source target readPipe writePipe : Int) (limit : Nat) : Nat → State → Option (Reply State)
  | 0, _ => none
  | fuel + 1, state =>
      match splice kernel state source writePipe 65536 with
      | (.error code, state) => some (.error code, state)
      | (.ok n, state) =>
          if n = 0 then some (.ok (), state)
          else
            match emptyLoop kernel readPipe target limit n state with
            | none => none
            | some (.error code, state) => some (.error code, state)
            | some (.ok (), state) => relayLoop source target readPipe writePipe limit fuel state

/-- The coroutine with the descriptors between which it relays; `file` is closed at the end. -/
def relay (source target file : Int) (fuel : Nat) (state : State) : Option (Reply State) :=
  match fsPipe kernel state with
  | (.error code, state) => some (.error code, state)
  | (.ok (readPipe, writePipe), state) =>
      match relayLoop kernel source target readPipe writePipe fuel fuel state with
      | none => none
      | some (.error code, state) => some (.error code, state)
      | some (.ok (), state) => some (closeAll kernel [file, readPipe, writePipe] state)

def sendFile (sock file : Int) : Nat → State → Option (Reply State) :=
  relay kernel file sock file

def recvFile (sock file : Int) : Nat → State → Option (Reply State) :=
  relay kernel sock file file

/-! ### What a splice does -/

/-- The bytes that can still be read, those in the pipe and those that have arrived. -/
structure Channel (State : Type) where
  source : State → Bytes
  pipe : State → Bytes
  destination : State → Bytes

/-- The state with `n` bytes of the source in the empty pipe. -/
structure Channel.Filled (channel : Channel State) (state next : State) (n : Nat) : Prop where
  source : channel.source next = (channel.source state).drop n
  pipe : channel.pipe next = (channel.source state).take n
  destination : channel.destination next = channel.destination state

structure Channel.Emptied (channel : Channel State) (state next : State) (n : Nat) : Prop where
  source : channel.source next = channel.source state
  pipe : channel.pipe next = (channel.pipe state).drop n
  destination : channel.destination next =
    channel.destination state ++ (channel.pipe state).take n

/-- The kernel's choices: into an empty pipe it moves some bytes, 65536 at most, or none at
the end of the source; from a pipe that is not empty at least one and no more than asked for. -/
structure Splices (channel : Channel State) (source target readPipe writePipe : Int) : Prop where
  fill : ∀ state, channel.pipe state = [] →
    ∃ (n : Nat) (next : State), kernel.complete state (UringOp.prepSplice source (-1) writePipe (-1) 65536 0) =
        ((n : Int), [], next) ∧
      n ≤ 65536 ∧ n ≤ (channel.source state).length ∧ (n = 0 → channel.source state = []) ∧
      channel.Filled state next n
  empty : ∀ state request, channel.pipe state ≠ [] → 0 < request → request ≤ 65536 →
    ∃ (n : Nat) (next : State), kernel.complete state (UringOp.prepSplice readPipe (-1) target (-1) request 0) =
        ((n : Int), [], next) ∧
      0 < n ∧ n ≤ request ∧ n ≤ (channel.pipe state).length ∧ channel.Emptied state next n

variable {kernel} {channel : Channel State} {source target readPipe writePipe : Int}

theorem splice_eq {state next : State} {fileIn fileOut : Int} {size n : Nat}
    (completed : kernel.complete state (UringOp.prepSplice fileIn (-1) fileOut (-1) size 0) =
      ((n : Int), [], next)) :
    splice kernel state fileIn fileOut size = (.ok n, next) := by
  unfold splice fsSplice
  rw [completed]
  dsimp only
  rw [Fallbacks.expectError_result]
  rfl

/-! ### The loops -/

theorem emptyLoop_delivers (splices : Splices kernel channel source target readPipe writePipe)
    {n : Nat} (fuel : Nat) {state : State} (full : (channel.pipe state).length = n)
    (positive : 0 < n) (room : n ≤ 65536) (enough : n ≤ fuel) :
    ∃ next, emptyLoop kernel readPipe target fuel n state = some (.ok (), next) ∧
      channel.pipe next = [] ∧ channel.source next = channel.source state ∧
      channel.destination next = channel.destination state ++ channel.pipe state := by
  induction fuel generalizing n state with
  | zero => omega
  | succ fuel ih =>
      have nonempty : channel.pipe state ≠ [] := by
        intro nothing
        rw [nothing, List.length_nil] at full
        omega
      obtain ⟨m, next, completed, some_, within, there, moved⟩ :=
        splices.empty state n nonempty positive room
      rw [emptyLoop, splice_eq completed]
      dsimp only
      by_cases short : m < n
      · have left : (channel.pipe next).length = n - m := by
          rw [moved.pipe, List.length_drop, full]
        obtain ⟨last, drained, none_, same, arrived⟩ := ih left (by omega) (by omega) (by omega)
        rw [if_pos short]
        refine ⟨last, drained, none_, same.trans moved.source, ?_⟩
        rw [arrived, moved.destination, moved.pipe, List.append_assoc, List.take_append_drop]
      · have all : (channel.pipe state).length ≤ m := by omega
        rw [if_neg short]
        refine ⟨next, rfl, ?_, moved.source, ?_⟩
        · rw [moved.pipe, List.drop_eq_nil_of_le all]
        · rw [moved.destination, List.take_of_length_le all]

theorem relayLoop_delivers (splices : Splices kernel channel source target readPipe writePipe)
    (limit fuel : Nat) {state : State} (nothing : channel.pipe state = [])
    (inner : (channel.source state).length ≤ limit) (enough : (channel.source state).length < fuel) :
    ∃ next, relayLoop kernel source target readPipe writePipe limit fuel state = some (.ok (), next) ∧
      channel.pipe next = [] ∧ channel.source next = [] ∧
      channel.destination next = channel.destination state ++ channel.source state := by
  induction fuel generalizing state with
  | zero => exact absurd enough (Nat.not_lt_zero _)
  | succ fuel ih =>
      obtain ⟨n, filled, completed, room, there, ended, moved⟩ := splices.fill state nothing
      rw [relayLoop, splice_eq completed]
      dsimp only
      by_cases zero : n = 0
      · have atEnd := ended zero
        rw [if_pos zero]
        refine ⟨filled, rfl, ?_, ?_, ?_⟩
        · rw [moved.pipe, atEnd, List.take_nil]
        · rw [moved.source, atEnd, List.drop_nil]
        · rw [moved.destination, atEnd, List.append_nil]
      · have full : (channel.pipe filled).length = n := by
          rw [moved.pipe, List.length_take, Nat.min_eq_left there]
        obtain ⟨drained, emptied, empty, same, arrived⟩ :=
          emptyLoop_delivers splices limit full (Nat.pos_of_ne_zero zero) room (by omega)
        have left : (channel.source drained).length = (channel.source state).length - n := by
          rw [same, moved.source, List.length_drop]
        obtain ⟨last, relayed, none_, atEnd, delivered⟩ := ih empty (by omega) (by omega)
        rw [if_neg zero, emptied]
        refine ⟨last, relayed, none_, atEnd, ?_⟩
        rw [delivered, arrived, same, moved.destination, moved.pipe, moved.source,
          List.append_assoc, List.take_append_drop]

/-! ### The coroutines -/

/-- The run ends with its closes, with an empty pipe behind the relay, and with all bytes of
the source in their order behind those of the destination. -/
def Delivers (kernel : PipeKernel State) (channel : Channel State) (file readPipe writePipe : Int)
    (created : State) (run : Nat → Option (Reply State)) : Prop :=
  ∀ fuel, (channel.source created).length < fuel →
    ∃ moved, run fuel = some (closeAll kernel [file, readPipe, writePipe] moved) ∧
      channel.pipe moved = [] ∧ channel.source moved = [] ∧
      channel.destination moved = channel.destination created ++ channel.source created

theorem relay_delivers (splices : Splices kernel channel source target readPipe writePipe) (file : Int)
    {state created : State} (opened : fsPipe kernel state = (.ok (readPipe, writePipe), created))
    (nothing : channel.pipe created = []) :
    Delivers kernel channel file readPipe writePipe created
      fun fuel => relay kernel source target file fuel state := by
  intro fuel enough
  obtain ⟨moved, relayed, empty, atEnd, delivered⟩ :=
    relayLoop_delivers splices fuel fuel nothing (Nat.le_of_lt enough) enough
  refine ⟨moved, ?_, empty, atEnd, delivered⟩
  unfold relay
  rw [opened]
  dsimp only
  rw [relayed]

/-- Both coroutines, whatever the kernel moves at a time. -/
theorem sendFile_recvFile_deliver (kernel : PipeKernel State) (sock file readPipe writePipe : Int)
    (state created : State) (opened : fsPipe kernel state = (.ok (readPipe, writePipe), created)) :
    (∀ channel, Splices kernel channel file sock readPipe writePipe →
      channel.pipe created = [] →
      Delivers kernel channel file readPipe writePipe created
        fun fuel => sendFile kernel sock file fuel state) ∧
    (∀ channel, Splices kernel channel sock file readPipe writePipe →
      channel.pipe created = [] →
      Delivers kernel channel file readPipe writePipe created
        fun fuel => recvFile kernel sock file fuel state) := by
  constructor
  case left =>
    intro channel splices nothing
    exact relay_delivers splices file opened nothing
  case right =>
    intro channel splices nothing
    exact relay_delivers splices file opened nothing

/-! ### A kernel with a plan -/

/-- Two files and a pipe, and the amounts that the next splices are to move. -/
structure Planned where
  source : Bytes
  pipe : Bytes
  destination : Bytes
  plan : List Nat
  deriving DecidableEq, Repr

/-- At least one byte, if there is one, and no more than asked for. -/
def Planned.amount (state : Planned) (request available : Nat) : Nat :=
  min (max 1 (state.plan.headD request)) (min request available)

/-- The pipe has the descriptors 5 and 6. -/
def plannedKernel : PipeKernel Planned where
  complete state
    | .splice _ _ 6 _ len _ =>
        let n := state.amount len state.source.length
        (n, [], { state with
          source := state.source.drop n
          pipe := state.pipe ++ state.source.take n
          plan := state.plan.tail })
    | .splice 5 _ _ _ len _ =>
        let n := state.amount len state.pipe.length
        (n, [], { state with
          pipe := state.pipe.drop n
          destination := state.destination ++ state.pipe.take n
          plan := state.plan.tail })
    | _ => (-9, [], state)
  read state _ _ _ := (-1, [], state)
  write state _ _ _ := (-1, state)
  atEnd state _ _ := state.source = []
  pipe2 state := (0, (5, 6), { state with pipe := [] })
  close state _ := (0, state)

def plannedChannel : Channel Planned :=
  { source := Planned.source
    pipe := Planned.pipe
    destination := Planned.destination }

theorem planned_splices : Splices plannedKernel plannedChannel 3 4 5 6 := by
  constructor
  case fill =>
    intro state nothing
    refine ⟨state.amount 65536 state.source.length, _, rfl, ?_, ?_, ?_, ?_⟩
    · unfold Planned.amount
      omega
    · change _ ≤ state.source.length
      unfold Planned.amount
      omega
    · intro zero
      change state.source = []
      unfold Planned.amount at zero
      exact List.eq_nil_of_length_eq_zero (by omega)
    · constructor
      case source => rfl
      case pipe =>
        change state.pipe ++ _ = _
        change state.pipe = [] at nothing
        rw [nothing]
        rfl
      case destination => rfl
  case empty =>
    intro state request nonempty positive room
    have available := List.length_pos_of_ne_nil nonempty
    change 0 < state.pipe.length at available
    have handed : UringOp.unsignedInt request = request := UringOp.unsignedInt_of_lt (by omega)
    unfold UringOp.prepSplice
    rw [handed]
    refine ⟨state.amount request state.pipe.length, _, rfl, ?_, ?_, ?_, ?_⟩
    · unfold Planned.amount
      omega
    · unfold Planned.amount
      omega
    · change _ ≤ state.pipe.length
      unfold Planned.amount
      omega
    · exact ⟨rfl, rfl, rfl⟩

/-- Five bytes, of which the first three leave the pipe in two parts. -/
def plannedStart : Planned :=
  { source := [1, 2, 3, 4, 5]
    pipe := []
    destination := [9]
    plan := [3, 2, 1, 2, 1] }

theorem sendFile_delivers_planned :
    ∃ moved, sendFile plannedKernel 4 3 6 plannedStart =
        some (closeAll plannedKernel [3, 5, 6] moved) ∧
      moved.pipe = [] ∧ moved.source = [] ∧ moved.destination = [9, 1, 2, 3, 4, 5] := by
  have opened : fsPipe plannedKernel plannedStart = (.ok (5, 6), plannedStart) := rfl
  have delivers := (sendFile_recvFile_deliver plannedKernel 4 3 5 6 _ _ opened).1
  exact delivers plannedChannel planned_splices rfl 6 (by decide)

end Pipe

end MCoro
