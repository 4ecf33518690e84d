/-
co_async/generic/allocator.hpp and allocator.cpp with CO_ASYNC_ALLOC.

The default resource, from which strings, coroutine frames and buffers are allocated,
has no memory of its own. At both ends of a block's life it goes to the resource that
currentAllocator is just then. ReplaceAllocator sets that for the time of a scope, and
the scopes of a thread are nested.
-/

import MCoro.Library.Machine

namespace MCoro

/-- A memory_resource that allocates, by its address. -/
inductive Resource where
  | newDelete
  | other (address : Nat)
  deriving DecidableEq, Repr

structure ReplaceAllocator where
  lastAllocator : Resource
  deriving DecidableEq, Repr

/-- What currentAllocator should be within the scopes of these resources, the innermost first. -/
def innermost : List Resource → Resource
  | [] => .newDelete
  | resource :: _ => resource

/-- The scopes restore what was the innermost resource without them; those of `context` are
around all of them. -/
inductive Nested (context : List Resource) : List ReplaceAllocator → List Resource → Prop
  | nil : Nested context [] []
  | cons {scopes : List ReplaceAllocator} {opened : List Resource} (allocator : Resource)
      (nested : Nested context scopes opened) :
      Nested context ({ lastAllocator := innermost (opened ++ context) } :: scopes)
        (allocator :: opened)

namespace Allocator

/-- A block from the default resource: who has allocated it, and the scopes open then. -/
structure Block where
  allocatedBy : Resource
  opened : List Resource
  deriving DecidableEq, Repr

/-- A block that is gone: who has allocated it, and who was asked to deallocate it. -/
structure Returned where
  allocatedBy : Resource
  deallocatedBy : Resource
  deriving DecidableEq, Repr

/-- `opened`, the blocks and `returned` are for the proofs only. -/
structure State where
  currentAllocator : Resource
  scopes : List ReplaceAllocator
  opened : List Resource
  blocks : Nat → Option Block
  returned : List Returned

inductive Action where
  /-- `ReplaceAllocator(allocator)`. -/
  | construct (allocator : Resource)
  /-- `~ReplaceAllocator` of the innermost scope. -/
  | destroy
  | allocate (block : Nat)
  | deallocate (block : Nat)
  deriving DecidableEq, Repr

/-- `DefaultResource::do_allocate` and `do_deallocate`: the resource that they call. -/
def State.underlying (state : State) : Resource :=
  state.currentAllocator

def Enabled (state : State) : Action → Prop
  | .construct _ => True
  | .destroy => state.scopes ≠ []
  | .allocate block => state.blocks block = none
  | .deallocate block => (state.blocks block).isSome

def next (state : State) : Action → State
  | .construct allocator =>
      { state with
        scopes := { lastAllocator := state.currentAllocator } :: state.scopes
        currentAllocator := allocator
        opened := allocator :: state.opened }
  | .destroy =>
      match state.scopes with
      | [] => state
      | scope :: scopes =>
          { state with
            currentAllocator := scope.lastAllocator
            scopes := scopes
            opened := state.opened.tail }
  | .allocate block =>
      { state with
        blocks := Function.update state.blocks block
          (some { allocatedBy := state.underlying, opened := state.opened }) }
  | .deallocate block =>
      match state.blocks block with
      | none => state
      | some made =>
          { state with
            blocks := Function.update state.blocks block none
            returned := state.returned ++
              [{ allocatedBy := made.allocatedBy, deallocatedBy := state.underlying }] }

def machine : Machine State Action where
  initial :=
    { currentAllocator := .newDelete
      scopes := []
      opened := []
      blocks := fun _ => none
      returned := [] }
  Enabled := Enabled
  next := next

/-- Every block so far went back to the resource that it came from. -/
def Paired (state : State) : Prop :=
  ∀ gone ∈ state.returned, gone.deallocatedBy = gone.allocatedBy

/-- The innermost scope around a deallocation has the resource of the innermost scope around
the allocation of the block. -/
def SameInnermost (state : State) : Action → Prop
  | .deallocate block =>
      ∀ made, state.blocks block = some made → innermost state.opened = innermost made.opened
  | _ => True

/-! ### The invariant -/

structure Inv (state : State) : Prop where
  current : state.currentAllocator = innermost state.opened
  nested : Nested [] state.scopes state.opened
  blocks : ∀ block made, state.blocks block = some made → made.allocatedBy = innermost made.opened

theorem inv_initial : Inv machine.initial where
  current := rfl
  nested := .nil
  blocks _ made found := absurd found.symm (Option.some_ne_none made)

variable {state : State}

theorem Inv.next (inv : Inv state) (action : Action) : Inv (next state action) := by
  cases action with
  | construct allocator =>
      constructor
      case current => rfl
      case nested =>
        have outer := Nested.cons allocator inv.nested
        rw [List.append_nil, ← inv.current] at outer
        exact outer
      case blocks => exact inv.blocks
  | destroy =>
      unfold Allocator.next
      cases scopes : state.scopes with
      | nil => exact inv
      | cons scope rest =>
          have nested := inv.nested
          rw [scopes] at nested
          generalize open_ : state.opened = opened at nested
          cases nested with
          | cons allocator inner =>
              constructor
              case current =>
                dsimp only
                rw [List.append_nil]
                rfl
              case nested => exact inner
              case blocks => exact inv.blocks
  | allocate block =>
      constructor
      case current => exact inv.current
      case nested => exact inv.nested
      case blocks =>
        intro other made found
        change Function.update _ _ _ _ = _ at found
        by_cases same : other = block
        · rw [same, Function.update_self] at found
          rw [← Option.some.inj found]
          exact inv.current
        · rw [Function.update_of_ne same] at found
          exact inv.blocks other made found
  | deallocate block =>
      unfold Allocator.next
      dsimp only
      cases found : state.blocks block with
      | none => exact inv
      | some gone =>
          constructor
          case current => exact inv.current
          case nested => exact inv.nested
          case blocks =>
            intro other made there
            dsimp only at there
            by_cases same : other = block
            · rw [same, Function.update_self] at there
              exact absurd there.symm (Option.some_ne_none made)
            · rw [Function.update_of_ne same] at there
              exact inv.blocks other made there

/-! ### Runs -/

theorem paired_next_iff (inv : Inv state) {action : Action} (enabled : Enabled state action) :
    Paired (Allocator.next state action) ↔ Paired state ∧ SameInnermost state action := by
  cases action with
  | construct allocator => exact (and_iff_left trivial).symm
  | destroy =>
      rw [and_iff_left (show SameInnermost state .destroy from trivial)]
      unfold Allocator.next
      cases state.scopes with
      | nil => exact Iff.rfl
      | cons scope rest => exact Iff.rfl
  | allocate block => exact (and_iff_left trivial).symm
  | deallocate block =>
      obtain ⟨made, found⟩ := Option.isSome_iff_exists.1 enabled
      have same : SameInnermost state (.deallocate block) ↔
          state.currentAllocator = made.allocatedBy := by
        rw [inv.current, inv.blocks block made found]
        constructor
        · intro all
          exact all made found
        · intro equal other there
          rw [← Option.some.inj (found.symm.trans there)]
          exact equal
      have added : (Allocator.next state (.deallocate block)).returned =
          state.returned ++
            [{ allocatedBy := made.allocatedBy, deallocatedBy := state.currentAllocator }] := by
        unfold Allocator.next
        dsimp only
        rw [found]
        rfl
      unfold Paired
      rw [added, List.forall_mem_append, List.forall_mem_singleton, same]

theorem paired_after_iff (inv : Inv state) {actions : List Action}
    (runs : machine.Runs state actions) :
    Paired (machine.after state actions) ↔
      Paired state ∧ machine.Along SameInnermost state actions := by
  induction actions generalizing state with
  | nil => exact (and_iff_left trivial).symm
  | cons action rest ih =>
      have step := paired_next_iff inv runs.1
      have later := ih (inv.next action) runs.2
      change Paired (machine.after (Allocator.next state action) rest) ↔ _
      rw [later, step, and_assoc]
      rfl

/-- The blocks of a run all go back to where they come from just if none is deallocated where
the innermost scope has another resource than around its allocation. -/
theorem paired_iff (actions : List Action) (runs : machine.Runs machine.initial actions) :
    Paired (machine.after machine.initial actions) ↔
      machine.Along SameInnermost machine.initial actions := by
  rw [paired_after_iff inv_initial runs]
  exact and_iff_right fun gone member => absurd member List.not_mem_nil

instance decidableEnabled (state : State) (action : Action) :
    Decidable (machine.Enabled state action) := by
  cases action <;> unfold machine Enabled <;> infer_instance

/-- A block of an outer scope, and one of an inner scope which does not outlive it. -/
theorem paired_nested :
    Paired (machine.after machine.initial
      [.construct (.other 1), .allocate 0, .construct (.other 2), .allocate 1, .deallocate 1,
        .destroy, .deallocate 0, .destroy]) := by
  apply (paired_iff _ (by decide)).2
  refine ⟨trivial, trivial, trivial, trivial, ?_, trivial, ?_, trivial, trivial⟩
  · intro made found
    rw [← Option.some.inj found]
    rfl
  · intro made found
    rw [← Option.some.inj found]
    rfl

/-- A block that outlives its scope, as the frame of a coroutine does, goes to another
resource. -/
theorem unpaired_outlives :
    machine.Runs machine.initial [.construct (.other 1), .allocate 0, .destroy, .deallocate 0] ∧
      (machine.after machine.initial
        [.construct (.other 1), .allocate 0, .destroy, .deallocate 0]).returned =
        [{ allocatedBy := .other 1, deallocatedBy := .newDelete }] ∧
      ¬Paired (machine.after machine.initial
        [.construct (.other 1), .allocate 0, .destroy, .deallocate 0]) := by
  refine ⟨by decide, by decide, ?_⟩
  intro paired
  have same := paired { allocatedBy := .other 1, deallocatedBy := .newDelete } (by decide)
  cases same

end Allocator

end MCoro
