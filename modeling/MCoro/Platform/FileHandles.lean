/-
FileHandle and fs_close of co_async/platform/fs.hpp, and reader() and writer() of the
FSPipeHandlePair of pipe.hpp.

The kernel releases a descriptor also where its close completes with an error, and can
give the number to the next opening before the coroutine is resumed. What any handle,
any fs_close and any int of a caller owns is followed through every order of the steps.
-/

import MCoro.Library.Leases
import MCoro.Library.Machine
import MCoro.Platform.Fallbacks

namespace MCoro

open Leases

/-- A descriptor is its number and, what no code reads, the opening it comes from. -/
abbrev Descriptor := Lease Nat

/-- The descriptors that are open, and every close so far. -/
abbrev Kernel := Registry Nat

/-- No descriptor is −1. -/
structure FileHandle where
  mFileNo : Option Descriptor := none
  deriving DecidableEq, Repr

/-- close(2) and the one of the ring. A close of −1 releases nothing. -/
def Kernel.close (kernel : Kernel) : Option Descriptor → Kernel
  | none => kernel
  | some descriptor => kernel.giveBack descriptor

namespace FileHandle

def fileNo (handle : FileHandle) : Int :=
  match handle.mFileNo with
  | none => -1
  | some descriptor => descriptor.number

/-- `operator bool`. -/
def isOpen (handle : FileHandle) : Bool :=
  handle.mFileNo.isSome

def releaseFile (handle : FileHandle) : Option Descriptor × FileHandle :=
  (handle.mFileNo, { mFileNo := none })

/-- `FileHandle(FileHandle &&other)`: the new handle and the other one. -/
def moveConstruct (other : FileHandle) : FileHandle × FileHandle :=
  ({ mFileNo := other.releaseFile.1 }, other.releaseFile.2)

/-- `operator=(FileHandle &&other)`: both handles. -/
def moveAssign (handle other : FileHandle) : FileHandle × FileHandle :=
  ({ mFileNo := other.mFileNo }, { mFileNo := handle.mFileNo })

/-- `~FileHandle`. -/
def destroy (kernel : Kernel) (handle : FileHandle) : Kernel :=
  if handle.isOpen then kernel.close handle.mFileNo else kernel

theorem destroy_eq_close (kernel : Kernel) (handle : FileHandle) :
    handle.destroy kernel = kernel.close handle.mFileNo := by
  obtain ⟨mFileNo⟩ := handle
  cases mFileNo with
  | none => rfl
  | some descriptor => rfl

end FileHandle

/-- `std::logic_error` with its text. -/
structure LogicError where
  what : String
  deriving DecidableEq, Repr

/-- reader() and writer(), by what they do to their member: the handle that is returned
and the member. -/
def handOver (what : String) (member : FileHandle) : Except LogicError (FileHandle × FileHandle) :=
  if member.isOpen then .ok member.moveConstruct else .error ⟨what⟩

namespace FSPipeHandlePair

def reader : FileHandle → Except LogicError (FileHandle × FileHandle) :=
  handOver "PipeHandlePair::reader() can only be called once"

def writer : FileHandle → Except LogicError (FileHandle × FileHandle) :=
  handOver "PipeHandlePair::writer() can only be called once"

end FSPipeHandlePair

/-- fs_close between its suspensions: with the close in the ring, with the completion
that is to resume it, and at its end with the parameter still to be destroyed. -/
inductive FsClose where
  | submitted (file : FileHandle)
  | completed (file : FileHandle) (res : Int)
  | returned (file : FileHandle) (result : Expected Unit)
  deriving DecidableEq

namespace FsClose

/-- The statements behind the co_await. -/
def resume (file : FileHandle) (res : Int) : FsClose :=
  match Fallbacks.expectError res with
  | .error code => .returned file (.error code)
  | .ok _ => .returned file.releaseFile.2 (.ok ())

/-- What the rest of the coroutine has to release. Behind a close that succeeded the number
is only dropped. -/
def owned : FsClose → Option Descriptor
  | .submitted file => file.mFileNo
  | .completed file res => if res < 0 then file.mFileNo else none
  | .returned file _ => file.mFileNo

theorem owned_resume (file : FileHandle) (res : Int) :
    (resume file res).owned = (completed file res).owned := by
  have left : (completed file res).owned = if res < 0 then file.mFileNo else none := rfl
  unfold resume Fallbacks.expectError
  by_cases failed : res < 0
  · rw [left, if_pos failed, if_pos failed]
    rfl
  · rw [left, if_neg failed, if_neg failed]
    rfl

end FsClose

namespace FileHandles

/-- Where a descriptor can be: in a handle, in an fs_close or in an int of a caller. -/
inductive Place where
  | handle (address : Nat)
  | frame (id : Nat)
  | int (name : Nat)
  deriving DecidableEq, Repr

structure State where
  kernel : Kernel := {}
  handles : Nat → Option FileHandle := fun _ => none
  frames : Nat → Option FsClose := fun _ => none
  ints : Nat → Option Descriptor := fun _ => none

namespace State

def held (state : State) : Holdings Place Nat
  | .handle address => (state.handles address).bind FileHandle.mFileNo
  | .frame id => (state.frames id).bind FsClose.owned
  | .int name => state.ints name

def setHandle (state : State) (address : Nat) (handle : Option FileHandle) : State :=
  { state with handles := Function.update state.handles address handle }

def setFrame (state : State) (id : Nat) (frame : Option FsClose) : State :=
  { state with frames := Function.update state.frames id frame }

def setInt (state : State) (name : Nat) (descriptor : Option Descriptor) : State :=
  { state with ints := Function.update state.ints name descriptor }

theorem held_setHandle (state : State) (address : Nat) (handle : Option FileHandle) :
    (state.setHandle address handle).held =
      Function.update state.held (.handle address) (handle.bind FileHandle.mFileNo) := by
  funext place
  cases place with
  | handle other =>
      have moved := Function.update_comp_eq_of_injective state.held
        (fun _ _ => Place.handle.inj) address (handle.bind FileHandle.mFileNo)
      have stored := Function.apply_update (fun _ kept => kept.bind FileHandle.mFileNo)
        state.handles address handle other
      exact stored.trans (congrFun moved other).symm
  | frame id => exact (Function.update_of_ne Place.noConfusion ..).symm
  | int name => exact (Function.update_of_ne Place.noConfusion ..).symm

theorem held_setFrame (state : State) (id : Nat) (frame : Option FsClose) :
    (state.setFrame id frame).held =
      Function.update state.held (.frame id) (frame.bind FsClose.owned) := by
  funext place
  cases place with
  | handle address => exact (Function.update_of_ne Place.noConfusion ..).symm
  | frame other =>
      have moved := Function.update_comp_eq_of_injective state.held
        (fun _ _ => Place.frame.inj) id (frame.bind FsClose.owned)
      have stored := Function.apply_update (fun _ kept => kept.bind FsClose.owned)
        state.frames id frame other
      exact stored.trans (congrFun moved other).symm
  | int name => exact (Function.update_of_ne Place.noConfusion ..).symm

theorem held_setInt (state : State) (name : Nat) (descriptor : Option Descriptor) :
    (state.setInt name descriptor).held =
      Function.update state.held (.int name) descriptor := by
  funext place
  cases place with
  | handle address => exact (Function.update_of_ne Place.noConfusion ..).symm
  | frame id => exact (Function.update_of_ne Place.noConfusion ..).symm
  | int other =>
      have moved := Function.update_comp_eq_of_injective state.held
        (fun _ _ => Place.int.inj) name descriptor
      exact (congrFun moved other).symm

end State

/-! ### The steps -/

inductive Action where
  /-- The kernel opens the number and returns it to a caller. -/
  | open (number name : Nat)
  /-- `FileHandle()`. -/
  | construct (address : Nat)
  /-- `FileHandle(fileNo)`, which takes over what the int owns. -/
  | constructFrom (address name : Nat)
  | moveConstruct (address other : Nat)
  | moveAssign (address other : Nat)
  | releaseFile (address name : Nat)
  /-- A caller closes what it was handed. -/
  | closeInt (name : Nat)
  | destroy (address : Nat)
  /-- reader() of a pair with the member at that address. -/
  | reader (address member : Nat)
  | writer (address member : Nat)
  /-- `fs_close(std::move(other))`. -/
  | fsClose (id other : Nat)
  /-- The ring has the result of the close. -/
  | complete (id : Nat) (res : Int)
  | resume (id : Nat)
  /-- The coroutine frame is destroyed, and its parameter with it. -/
  | drop (id : Nat)
  deriving DecidableEq

/-- Objects are built in free memory and used while they live; an int that owns a
descriptor is not overwritten; −1 cannot be closed with success. -/
def Enabled (state : State) : Action → Prop
  | .open number name => state.kernel.current number = none ∧ state.ints name = none
  | .construct address => state.handles address = none
  | .constructFrom address _ => state.handles address = none
  | .moveConstruct address other =>
      state.handles address = none ∧ (state.handles other).isSome
  | .moveAssign address other =>
      (state.handles address).isSome ∧ (state.handles other).isSome
  | .releaseFile address name => (state.handles address).isSome ∧ state.ints name = none
  | .closeInt _ => True
  | .destroy address => (state.handles address).isSome
  | .reader address member => state.handles address = none ∧ (state.handles member).isSome
  | .writer address member => state.handles address = none ∧ (state.handles member).isSome
  | .fsClose id other => state.frames id = none ∧ (state.handles other).isSome
  | .complete id res =>
      match state.frames id with
      | some (.submitted file) => file.isOpen = true ∨ res < 0
      | _ => False
  | .resume id =>
      match state.frames id with
      | some (.completed _ _) => True
      | _ => False
  | .drop id =>
      match state.frames id with
      | some (.returned _ _) => True
      | _ => False

def State.at (state : State) (address : Nat) : FileHandle :=
  (state.handles address).getD {}

/-- The handle that reader() or writer() returns is built at an address. -/
def State.receive (state : State) (address member : Nat) :
    Except LogicError (FileHandle × FileHandle) → State
  | .ok (made, left) => (state.setHandle member (some left)).setHandle address (some made)
  | .error _ => state

def next (state : State) : Action → State
  | .open number name =>
      { state with kernel := state.kernel.issue number }.setInt name
        (some ⟨number, state.kernel.issued⟩)
  | .construct address => state.setHandle address (some {})
  | .constructFrom address name =>
      (state.setHandle address (some { mFileNo := state.ints name })).setInt name none
  | .moveConstruct address other =>
      let (made, left) := (state.at other).moveConstruct
      (state.setHandle other (some left)).setHandle address (some made)
  | .moveAssign address other =>
      let (assigned, left) := (state.at address).moveAssign (state.at other)
      (state.setHandle other (some left)).setHandle address (some assigned)
  | .releaseFile address name =>
      let (descriptor, left) := (state.at address).releaseFile
      (state.setHandle address (some left)).setInt name descriptor
  | .closeInt name =>
      { state with kernel := state.kernel.close (state.ints name) }.setInt name none
  | .destroy address =>
      { state with kernel := (state.at address).destroy state.kernel }.setHandle address none
  | .reader address member =>
      state.receive address member (FSPipeHandlePair.reader (state.at member))
  | .writer address member =>
      state.receive address member (FSPipeHandlePair.writer (state.at member))
  | .fsClose id other =>
      let (file, left) := (state.at other).moveConstruct
      (state.setHandle other (some left)).setFrame id (some (.submitted file))
  | .complete id res =>
      match state.frames id with
      | some (.submitted file) =>
          { state with kernel := state.kernel.close file.mFileNo }.setFrame id
            (some (.completed file res))
      | _ => state
  | .resume id =>
      match state.frames id with
      | some (.completed file res) => state.setFrame id (some (FsClose.resume file res))
      | _ => state
  | .drop id =>
      match state.frames id with
      | some (.returned file _) =>
          { state with kernel := file.destroy state.kernel }.setFrame id none
      | _ => state

def machine : Machine State Action where
  initial := {}
  Enabled := Enabled
  next := next

/-- No fs_close of a handle that owns a descriptor completes with an error. -/
def CloseSucceeds (state : State) : Action → Prop
  | .complete id res =>
      match state.frames id with
      | some (.submitted file) => file.isOpen = true → 0 ≤ res
      | _ => True
  | _ => True

instance decidableEnabled (state : State) (action : Action) :
    Decidable (machine.Enabled state action) := by
  cases action with
  | complete id res =>
      change Decidable (match state.frames id with
        | some (.submitted file) => file.isOpen = true ∨ res < 0
        | _ => False)
      split <;> infer_instance
  | resume id =>
      change Decidable (match state.frames id with
        | some (.completed _ _) => True
        | _ => False)
      split <;> infer_instance
  | drop id =>
      change Decidable (match state.frames id with
        | some (.returned _ _) => True
        | _ => False)
      split <;> infer_instance
  | _ =>
      unfold machine Enabled
      infer_instance

/-! ### The steps of fs_close -/

theorem submitted_of_enabled {state : State} {id : Nat} {res : Int}
    (enabled : Enabled state (.complete id res)) :
    ∃ file, state.frames id = some (.submitted file) ∧ (file.isOpen = true ∨ res < 0) := by
  unfold Enabled at enabled
  dsimp only at enabled
  split at enabled
  case h_1 file found => exact ⟨file, found, enabled⟩
  case h_2 => exact absurd enabled not_false

theorem completed_of_enabled {state : State} {id : Nat} (enabled : Enabled state (.resume id)) :
    ∃ file res, state.frames id = some (.completed file res) := by
  unfold Enabled at enabled
  dsimp only at enabled
  split at enabled
  case h_1 file res found => exact ⟨file, res, found⟩
  case h_2 => exact absurd enabled not_false

theorem returned_of_enabled {state : State} {id : Nat} (enabled : Enabled state (.drop id)) :
    ∃ file result, state.frames id = some (.returned file result) := by
  unfold Enabled at enabled
  dsimp only at enabled
  split at enabled
  case h_1 file result found => exact ⟨file, result, found⟩
  case h_2 => exact absurd enabled not_false

theorem next_complete {state : State} {id : Nat} {file : FileHandle} {res : Int}
    (found : state.frames id = some (.submitted file)) :
    next state (.complete id res) =
      { state with kernel := state.kernel.close file.mFileNo }.setFrame id
        (some (.completed file res)) := by
  unfold next
  dsimp only
  rw [found]

theorem next_resume {state : State} {id : Nat} {file : FileHandle} {res : Int}
    (found : state.frames id = some (.completed file res)) :
    next state (.resume id) = state.setFrame id (some (FsClose.resume file res)) := by
  unfold next
  dsimp only
  rw [found]

theorem next_drop {state : State} {id : Nat} {file : FileHandle} {result : Expected Unit}
    (found : state.frames id = some (.returned file result)) :
    next state (.drop id) =
      { state with kernel := file.destroy state.kernel }.setFrame id none := by
  unfold next
  dsimp only
  rw [found]

/-- Behind a close that succeeds, and behind one of −1, there is nothing left to release. -/
theorem owned_of_succeeds {state : State} {id : Nat} {file : FileHandle} {res : Int}
    (found : state.frames id = some (.submitted file))
    (succeeds : CloseSucceeds state (.complete id res)) :
    (FsClose.completed file res).owned = none := by
  unfold CloseSucceeds at succeeds
  dsimp only at succeeds
  rw [found] at succeeds
  change (if res < 0 then file.mFileNo else none) = none
  by_cases failed : res < 0
  · rw [if_pos failed]
    by_contra opened
    have fine := succeeds (Option.isSome_iff_ne_none.2 opened)
    exact absurd failed (Int.not_lt.2 fine)
  · rw [if_neg failed]

/-! ### What the steps do to the descriptors -/

def Holds (state : State) : Prop :=
  Sound state.kernel state.held

theorem held_handle {state : State} {address : Nat} (alive : (state.handles address).isSome) :
    state.held (.handle address) = (state.at address).mFileNo := by
  obtain ⟨handle, found⟩ := Option.isSome_iff_exists.1 alive
  change (state.handles address).bind _ = ((state.handles address).getD {}).mFileNo
  rw [found]
  rfl

theorem held_free {state : State} {address : Nat} (free : state.handles address = none) :
    state.held (.handle address) = none := by
  change (state.handles address).bind _ = none
  rw [free]
  rfl

theorem held_frame {state : State} {id : Nat} {frame : FsClose}
    (found : state.frames id = some frame) : state.held (.frame id) = frame.owned := by
  change (state.frames id).bind _ = _
  rw [found]
  rfl

theorem sound_close {kernel : Kernel} {held : Holdings Place Nat} (sound : Sound kernel held)
    {place : Place} {descriptor : Option Descriptor} (holds : held place = descriptor) :
    Sound (kernel.close descriptor) (Function.update held place none) := by
  cases descriptor with
  | none =>
      have same : Function.update held place none = held := by
        rw [← holds, Function.update_eq_self]
      rw [same]
      exact sound
  | some descriptor => exact sound.giveBack holds

theorem Holds.swap_handles {state : State} (holds : Holds state) {address other : Nat}
    {made left : FileHandle} (before : state.held (.handle address) = left.mFileNo)
    (moved : state.held (.handle other) = made.mFileNo) :
    Holds ((state.setHandle other (some left)).setHandle address (some made)) := by
  have swapped := Sound.swap holds (.handle address) (.handle other)
  rw [before, moved] at swapped
  unfold Holds
  rw [State.held_setHandle, State.held_setHandle]
  exact swapped

theorem Holds.swap_int {state : State} (holds : Holds state) {address name : Nat}
    {handle : FileHandle} {descriptor : Option Descriptor}
    (before : state.held (.handle address) = descriptor)
    (taken : state.held (.int name) = handle.mFileNo) :
    Holds ((state.setHandle address (some handle)).setInt name descriptor) := by
  have swapped := Sound.swap holds (.int name) (.handle address)
  rw [before, taken] at swapped
  unfold Holds
  rw [State.held_setInt, State.held_setHandle]
  exact swapped

theorem holds_moveConstruct {state : State} (holds : Holds state) {address other : Nat}
    (free : state.handles address = none) (alive : (state.handles other).isSome) :
    Holds (next state (.moveConstruct address other)) :=
  holds.swap_handles (held_free free) (held_handle alive)

theorem holds_receive {state : State} (holds : Holds state) {address member : Nat}
    (free : state.handles address = none) (alive : (state.handles member).isSome)
    (what : String) : Holds (state.receive address member (handOver what (state.at member))) := by
  unfold handOver
  by_cases opened : (state.at member).isOpen = true
  · rw [if_pos opened]
    exact holds_moveConstruct holds free alive
  · rw [if_neg opened]
    exact holds

theorem holds_next {state : State} {action : Action} (holds : Holds state)
    (enabled : Enabled state action) (succeeds : CloseSucceeds state action) :
    Holds (next state action) := by
  cases action with
  | «open» number name =>
      unfold Holds
      change Sound (state.kernel.issue number) (State.setInt _ name _).held
      rw [State.held_setInt]
      exact Sound.issue holds enabled.1 enabled.2
  | construct address =>
      unfold Holds
      change Sound state.kernel (state.setHandle address _).held
      rw [State.held_setHandle]
      have same : Function.update state.held (.handle address) none = state.held := by
        rw [← held_free enabled, Function.update_eq_self]
      change Sound state.kernel (Function.update state.held (.handle address) none)
      rw [same]
      exact holds
  | constructFrom address name => exact holds.swap_int (held_free enabled) rfl
  | moveConstruct address other => exact holds_moveConstruct holds enabled.1 enabled.2
  | moveAssign address other =>
      exact holds.swap_handles (held_handle enabled.1) (held_handle enabled.2)
  | releaseFile address name =>
      have empty : state.held (.int name) = none := enabled.2
      exact holds.swap_int (held_handle enabled.1) empty
  | closeInt name =>
      unfold Holds
      change Sound (state.kernel.close _) (State.setInt _ name none).held
      rw [State.held_setInt]
      exact sound_close holds rfl
  | destroy address =>
      unfold Holds
      change Sound ((state.at address).destroy state.kernel) (State.setHandle _ address none).held
      rw [State.held_setHandle, FileHandle.destroy_eq_close]
      exact sound_close holds (held_handle enabled)
  | reader address member => exact holds_receive holds enabled.1 enabled.2 _
  | writer address member => exact holds_receive holds enabled.1 enabled.2 _
  | fsClose id other =>
      have swapped := Sound.swap holds (.frame id) (.handle other)
      have empty : state.held (.frame id) = none := by
        change (state.frames id).bind _ = none
        rw [enabled.1]
        rfl
      rw [empty, held_handle enabled.2] at swapped
      unfold Holds
      change Sound state.kernel ((state.setHandle other _).setFrame id _).held
      rw [State.held_setFrame, State.held_setHandle]
      exact swapped
  | complete id res =>
      obtain ⟨file, found, _⟩ := submitted_of_enabled enabled
      have after := owned_of_succeeds found succeeds
      unfold Holds
      rw [next_complete found]
      change Sound (state.kernel.close file.mFileNo) (State.setFrame _ id _).held
      rw [State.held_setFrame]
      change Sound _ (Function.update _ _ (FsClose.completed file res).owned)
      rw [after]
      exact sound_close holds (held_frame found)
  | resume id =>
      obtain ⟨file, res, found⟩ := completed_of_enabled enabled
      have owns : state.held (.frame id) = (FsClose.resume file res).owned := by
        rw [held_frame found, FsClose.owned_resume]
      unfold Holds
      rw [next_resume found]
      change Sound state.kernel (state.setFrame id _).held
      rw [State.held_setFrame]
      change Sound state.kernel (Function.update _ _ (FsClose.resume file res).owned)
      rw [← owns, Function.update_eq_self]
      exact holds
  | drop id =>
      obtain ⟨file, result, found⟩ := returned_of_enabled enabled
      unfold Holds
      rw [next_drop found]
      change Sound (file.destroy state.kernel) (State.setFrame _ id none).held
      rw [State.held_setFrame, FileHandle.destroy_eq_close]
      exact sound_close holds (held_frame found)

theorem holds_initial : Holds machine.initial := by
  have empty : machine.initial.held = fun _ : Place => none := by
    funext place
    cases place with
    | handle address => rfl
    | frame id => rfl
    | int name => rfl
  unfold Holds
  rw [empty]
  exact sound_initial

/-! ### Runs -/

/-- Every descriptor that was opened is released once or in the hands of one owner, every
close is of what its caller owns, and no two owners have the same descriptor. Where no
handle and no fs_close is left, what is not released is in an int. -/
structure Released (state : State) : Prop where
  kept : Kept state.kernel state.held
  finished : (∀ address, state.handles address = none) → (∀ id, state.frames id = none) →
    ∀ term < state.kernel.issued, state.kernel.timesReturned term = 1 ∨
      ∃ name number, state.ints name = some ⟨number, term⟩

theorem Holds.released {state : State} (holds : Holds state) : Released state := by
  have kept := Sound.kept holds
  constructor
  case kept => exact kept
  case finished =>
    intro noHandle noFrame term issued
    rcases kept.once term issued with ⟨once, _⟩ | ⟨_, place, ⟨descriptor, owns, rfl⟩, _⟩
    · exact Or.inl once
    · right
      cases place with
      | handle address =>
          rw [held_free (noHandle address)] at owns
          cases owns
      | frame id =>
          change (state.frames id).bind _ = _ at owns
          rw [noFrame id] at owns
          cases owns
      | int name => exact ⟨name, descriptor.number, owns⟩

/-- Behind a close that fails, a handle owns a descriptor that is released. -/
theorem not_kept_of_failed {state : State} {action : Action} (holds : Holds state)
    (enabled : Enabled state action) (fails : ¬CloseSucceeds state action) :
    ¬Kept (next state action).kernel (next state action).held := by
  cases action with
  | complete id res =>
      obtain ⟨file, found, _⟩ := submitted_of_enabled enabled
      unfold CloseSucceeds at fails
      dsimp only at fails
      rw [found] at fails
      obtain ⟨opened, failed⟩ := Classical.not_imp.1 fails
      obtain ⟨descriptor, owns⟩ := Option.isSome_iff_exists.1 opened
      have before : state.held (.frame id) = some descriptor := by
        rw [held_frame found]
        exact owns
      have current := Sound.current holds before
      rw [next_complete found, State.held_setFrame]
      change ¬Kept (state.kernel.close file.mFileNo)
        (Function.update _ _ (FsClose.completed file res).owned)
      have still : (FsClose.completed file res).owned = some descriptor := by
        change (if res < 0 then file.mFileNo else none) = _
        rw [if_pos (Int.not_le.1 failed), owns]
      rw [still, owns]
      intro kept
      have owner : Function.update state.held (.frame id) (some descriptor) (.frame id) =
          some descriptor := Function.update_self ..
      rcases kept.once descriptor.term (Sound.below holds _ _ current) with
        ⟨_, nobody⟩ | ⟨never, _⟩
      · exact nobody ⟨.frame id, descriptor, owner, rfl⟩
      · change (state.kernel.giveBack descriptor).timesReturned descriptor.term = 0 at never
        rw [Registry.timesReturned_giveBack, if_pos rfl] at never
        exact Nat.succ_ne_zero _ never
  | _ => exact absurd trivial fails

/-- The handles release what they own, once, in every state of a run just where none of its
fs_close completes with an error. -/
theorem released_iff_closes_succeed {actions : List Action}
    (runs : machine.Runs machine.initial actions) :
    (∀ front back, actions = front ++ back → Released (machine.after machine.initial front)) ↔
      machine.Along CloseSucceeds machine.initial actions := by
  apply Machine.forall_front_iff_along Holds (fun _ _ => holds_next) (fun _ holds => holds.released)
  case breaks =>
    intro state action holds enabled fails released
    exact not_kept_of_failed holds enabled fails released.kept
  case start => exact holds_initial
  case runs => exact runs

/-- A descriptor that is closed with success and opened again for another handle. -/
theorem released_iff_closes_succeed_reused :
    machine.Runs machine.initial
        [.open 5 0, .constructFrom 0 0, .fsClose 0 0, .complete 0 0, .open 5 0,
          .constructFrom 1 0, .resume 0, .drop 0, .destroy 1] ∧
      (∀ front back,
        [.open 5 0, .constructFrom 0 0, .fsClose 0 0, .complete 0 0, .open 5 0,
          .constructFrom 1 0, .resume 0, .drop 0, .destroy 1] = front ++ back →
        Released (machine.after machine.initial front)) := by
  refine ⟨by decide, (released_iff_closes_succeed (by decide)).2 ?_⟩
  exact ⟨trivial, trivial, trivial, fun _ => by decide, trivial, trivial, trivial, trivial, trivial,
    trivial⟩

/-- A close that fails with EIO. The number is in use again when the destructor closes it. -/
theorem not_released_failed :
    ¬∀ actions, machine.Runs machine.initial actions →
      Released (machine.after machine.initial actions) := by
  intro released
  have state := released
    [.open 5 0, .constructFrom 0 0, .fsClose 0 0, .complete 0 (-5), .open 5 0,
      .constructFrom 1 0, .resume 0, .drop 0] (by decide)
  have found := state.kept.right ⟨⟨5, 0⟩, some 1⟩ (by decide)
  cases found

end FileHandles

end MCoro
