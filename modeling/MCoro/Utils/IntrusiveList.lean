/-
The intrusive list of co_async/utils/intrusive_list.hpp.

A pointer is the address of the root or of a node, or null. Reading through a null
pointer faults, and so does a loop that has used up its fuel. The two inserts and the
two pushes differ in the pivot alone, which is the root where they push.
-/

import MCoro.Library.LinkedRing
import MCoro.Utils.RbTree

namespace MCoro

/-- What a pointer of a list points at, when it is not null. -/
inductive ListAddress (Node : Type) where
  | root
  | node (node : Node)
  deriving DecidableEq, Repr

structure ListNode (Node : Type) where
  listNext : Option (ListAddress Node)
  listPrev : Option (ListAddress Node)
  deriving DecidableEq, Repr

/-- The root together with all the nodes that can be in the list. -/
structure ListHead (Node : Type) where
  deref : ListAddress Node → ListNode Node

namespace ListHead

variable {Node : Type}

/-- `*pointer`, up to what is read or written there. -/
def target (pointer : Option (ListAddress Node)) : Except Fault (ListAddress Node) :=
  match pointer with
  | none => .error .nullDereference
  | some address => .ok address

def listNext (list : ListHead Node) (address : ListAddress Node) : Option (ListAddress Node) :=
  (list.deref address).listNext

def listPrev (list : ListHead Node) (address : ListAddress Node) : Option (ListAddress Node) :=
  (list.deref address).listPrev

variable [DecidableEq Node]

def write (list : ListHead Node) (address : ListAddress Node) (node : ListNode Node) :
    ListHead Node :=
  { deref := Function.update list.deref address node }

def setNext (list : ListHead Node) (address : ListAddress Node)
    (pointer : Option (ListAddress Node)) : ListHead Node :=
  list.write address { list.deref address with listNext := pointer }

def setPrev (list : ListHead Node) (address : ListAddress Node)
    (pointer : Option (ListAddress Node)) : ListHead Node :=
  list.write address { list.deref address with listPrev := pointer }

/-- The constructors: the root points at itself, the nodes nowhere. -/
def initial : ListHead Node :=
  { deref := fun address =>
      match address with
      | .root => { listNext := some .root, listPrev := some .root }
      | .node _ => { listNext := none, listPrev := none } }

/-! ### Inserts -/

/-- doInsertAfter, and doPushFront when the pivot is the root. -/
def linkAfter (list : ListHead Node) (pivot : ListAddress Node) (node : Node) :
    Except Fault (ListHead Node) := do
  let list := list.setNext (.node node) (list.listNext pivot)
  let list := list.setPrev (.node node) (some pivot)
  let list := list.setNext pivot (some (.node node))
  let following ← target (list.listNext (.node node))
  return list.setPrev following (some (.node node))

/-- doInsertBefore, and doPushBack when the pivot is the root. -/
def linkBefore (list : ListHead Node) (pivot : ListAddress Node) (node : Node) :
    Except Fault (ListHead Node) := do
  let list := list.setNext (.node node) (some pivot)
  let list := list.setPrev (.node node) (list.listPrev pivot)
  let list := list.setPrev pivot (some (.node node))
  let preceding ← target (list.listPrev (.node node))
  return list.setNext preceding (some (.node node))

def doPushFront (list : ListHead Node) (node : Node) : Except Fault (ListHead Node) :=
  list.linkAfter .root node

def doPushBack (list : ListHead Node) (node : Node) : Except Fault (ListHead Node) :=
  list.linkBefore .root node

def doInsertAfter (list : ListHead Node) (pivot node : Node) : Except Fault (ListHead Node) :=
  list.linkAfter (.node pivot) node

def doInsertBefore (list : ListHead Node) (pivot node : Node) : Except Fault (ListHead Node) :=
  list.linkBefore (.node pivot) node

/-! ### Removals -/

/-- The last two writes of every removal. -/
def reset (list : ListHead Node) (address : ListAddress Node) : ListHead Node :=
  (list.setNext address none).setPrev address none

/-- doErase, and the branch of doPopBack that has a node. -/
def unlink (list : ListHead Node) (address : ListAddress Node) : Except Fault (ListHead Node) := do
  let following ← target (list.listNext address)
  let list := list.setPrev following (list.listPrev address)
  let preceding ← target (list.listPrev address)
  let list := list.setNext preceding (list.listNext address)
  return list.reset address

def doErase (list : ListHead Node) (node : Node) : Except Fault (ListHead Node) :=
  list.unlink (.node node)

/-- `erase_from_parent`, which is all that the destructor of a node does. -/
def eraseFromParent (list : ListHead Node) (node : Node) : Except Fault (ListHead Node) :=
  if (list.listNext (.node node)).isSome then do
    let listPrev := list.listPrev (.node node)
    let listNext := list.listNext (.node node)
    let preceding ← target listPrev
    let list := list.setNext preceding listNext
    let following ← target listNext
    let list := list.setPrev following listPrev
    let list := list.setPrev (.node node) none
    return list.setNext (.node node) none
  else
    .ok list

/-- The node that was taken off, or nullptr, and the list without it. -/
def doPopFront (list : ListHead Node) :
    Except Fault (Option (ListAddress Node) × ListHead Node) := do
  let node := list.listNext .root
  if node ≠ some .root then
    let front ← target node
    let following ← target (list.listNext front)
    let list := list.setPrev following (some .root)
    let list := list.setNext .root (list.listNext front)
    return (node, list.reset front)
  else
    return (none, list)

def doPopBack (list : ListHead Node) :
    Except Fault (Option (ListAddress Node) × ListHead Node) := do
  let node := list.listPrev .root
  if node ≠ some .root then
    let back ← target node
    let list ← list.unlink back
    return (node, list)
  else
    return (none, list)

/-- The loop of doClear, from `cur` on. -/
def clearLoop (list : ListHead Node) (cur : Option (ListAddress Node)) :
    Nat → Except Fault (ListHead Node)
  | 0 => .error .outOfFuel
  | fuel + 1 =>
      if cur ≠ some .root then do
        let address ← target cur
        let next := list.listNext address
        (list.reset address).clearLoop next fuel
      else
        .ok list

def doClear (fuel : Nat) (list : ListHead Node) : Except Fault (ListHead Node) := do
  let list ← list.clearLoop (list.listNext .root) fuel
  let list := list.setPrev .root (some .root)
  return list.setNext .root (some .root)

/-! ### Iteration -/

omit [DecidableEq Node]

/-- Where doIterNext or doIterPrev leads. -/
inductive Direction where
  | forward
  | backward
  deriving DecidableEq, Repr

def follow (list : ListHead Node) (direction : Direction) (address : ListAddress Node) :
    Option (ListAddress Node) :=
  match direction with
  | .forward => list.listNext address
  | .backward => list.listPrev address

/-- The nodes from `cur` on, up to the address of the root, which is doIterEnd. -/
def visited (list : ListHead Node) (direction : Direction) (cur : Option (ListAddress Node)) :
    Nat → Except Fault (List Node)
  | 0 => .error .outOfFuel
  | fuel + 1 => do
      match ← target cur with
      | .root => return []
      | .node node =>
          let rest ← list.visited direction (list.follow direction (.node node)) fuel
          return node :: rest

/-- Following the links from the root until it is met again. -/
def walk (list : ListHead Node) (direction : Direction) (fuel : Nat) : Except Fault (List Node) :=
  list.visited direction (list.follow direction .root) fuel

end ListHead

end MCoro
