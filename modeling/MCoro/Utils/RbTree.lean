/-
The intrusive red-black tree of co_async/utils/rbtree.hpp.

Nodes live in a memory that maps each pointer to its links, its colour and
whether its rbTree points to this tree. Reading through a null pointer faults,
and so does a loop that has used up its fuel; both are results of the model,
not hypotheses of its theorems.
-/

import MCoro.Library.LinkedTree

namespace MCoro

open LinkedTree (Side Links)

inductive RbColor where
  | red
  | black
  deriving DecidableEq, Repr

inductive Fault where
  | nullDereference
  | outOfFuel
  deriving DecidableEq, Repr

structure RbNode (Ptr : Type) where
  rbLeft : Option Ptr
  rbRight : Option Ptr
  rbParent : Option Ptr
  /-- Whether the node's rbTree is this tree rather than null. -/
  rbTree : Bool
  rbColor : RbColor

def RbNode.initial {Ptr : Type} : RbNode Ptr :=
  { rbLeft := none
    rbRight := none
    rbParent := none
    rbTree := false
    rbColor := .red }

structure RbTree (Ptr : Type) where
  root : Option Ptr
  node : Ptr → RbNode Ptr

namespace RbTree

variable {Ptr : Type}

def empty : RbTree Ptr :=
  { root := none
    node := fun _ => .initial }

def deref (pointer : Option Ptr) : Except Fault Ptr :=
  match pointer with
  | none => .error .nullDereference
  | some target => .ok target

/-- `rbLeft` or `rbRight`, so that a mirrored pair of branches is written once. -/
def child (tree : RbTree Ptr) (pointer : Ptr) : Side → Option Ptr
  | .left => (tree.node pointer).rbLeft
  | .right => (tree.node pointer).rbRight

section Writes

variable [DecidableEq Ptr]

def write (tree : RbTree Ptr) (pointer : Ptr) (node : RbNode Ptr) : RbTree Ptr :=
  { tree with node := fun probe => if probe = pointer then node else tree.node probe }

def setRoot (tree : RbTree Ptr) (pointer : Option Ptr) : RbTree Ptr :=
  { tree with root := pointer }

def setChild (tree : RbTree Ptr) (pointer : Ptr) (side : Side) (target : Option Ptr) :
    RbTree Ptr :=
  match side with
  | .left => tree.write pointer { tree.node pointer with rbLeft := target }
  | .right => tree.write pointer { tree.node pointer with rbRight := target }

def setParent (tree : RbTree Ptr) (pointer : Ptr) (target : Option Ptr) : RbTree Ptr :=
  tree.write pointer { tree.node pointer with rbParent := target }

def setColor (tree : RbTree Ptr) (pointer : Ptr) (color : RbColor) : RbTree Ptr :=
  tree.write pointer { tree.node pointer with rbColor := color }

def setTree (tree : RbTree Ptr) (pointer : Ptr) (linked : Bool) : RbTree Ptr :=
  tree.write pointer { tree.node pointer with rbTree := linked }

/-- `if (pointer != nullptr) pointer->rbParent = target;` -/
def adopt (tree : RbTree Ptr) (pointer : Option Ptr) (target : Option Ptr) : RbTree Ptr :=
  match pointer with
  | none => tree
  | some present => tree.setParent present target

/-! ### Rotations -/

/-- Both rotations: `node` moves down to `side`, its other child takes its place. -/
def rotate (side : Side) (tree : RbTree Ptr) (node : Ptr) : Except Fault (RbTree Ptr) := do
  let child ← deref (tree.child node side.other)
  let inner := tree.child child side
  let tree := tree.setChild node side.other inner
  let tree := tree.adopt inner (some node)
  let tree := tree.setParent child (tree.node node).rbParent
  let tree :=
    match (tree.node node).rbParent with
    | none => tree.setRoot (some child)
    | some parent =>
        if tree.child parent side = some node then
          tree.setChild parent side (some child)
        else
          tree.setChild parent side.other (some child)
  let tree := tree.setChild child side (some node)
  return tree.setParent node (some child)

theorem rotate_eq {side : Side} {tree : RbTree Ptr} {node child : Ptr} {inner : Option Ptr}
    (isChild : tree.child node side.other = some child) (isInner : tree.child child side = inner) :
    let loosened := (tree.setChild node side.other inner).adopt inner (some node)
    let moved := loosened.setParent child (loosened.node node).rbParent
    let next := (moved.node node).rbParent.elim (moved.setRoot (some child)) fun parent =>
      if moved.child parent side = some node then moved.setChild parent side (some child)
      else moved.setChild parent side.other (some child)
    rotate side tree node =
      .ok ((next.setChild child side (some node)).setParent node (some child)) := by
  intro loosened moved next
  subst isInner
  unfold rotate
  rw [isChild]
  change Except.ok _ = _
  unfold next
  cases (moved.node node).rbParent with
  | none => rfl
  | some parent => rfl

def rotateLeft (tree : RbTree Ptr) (node : Ptr) : Except Fault (RbTree Ptr) :=
  rotate .left tree node

def rotateRight (tree : RbTree Ptr) (node : Ptr) : Except Fault (RbTree Ptr) :=
  rotate .right tree node

/-! ### The colour repair loop -/

def swapColors (tree : RbTree Ptr) (first second : Ptr) : RbTree Ptr :=
  let color := (tree.node first).rbColor
  (tree.setColor first (tree.node second).rbColor).setColor second color

/-- The rotations for a parent that is the child on `side` of the grandparent;
the two branches of the source are mirror images. Returns the next `node`. -/
def fixByRotation (side : Side) (tree : RbTree Ptr) (node parent grandParent : Ptr) :
    Except Fault (RbTree Ptr × Ptr) := do
  let (tree, parent) ←
    if tree.child parent side.other = some node then do
      let tree ← rotate side tree parent
      let newParent ← deref (tree.node parent).rbParent
      pure (tree, newParent)
    else
      pure (tree, parent)
  let tree ← rotate side.other tree grandParent
  return (tree.swapColors parent grandParent, parent)

/-- One iteration of the loop. -/
def fixStep (side : Side) (tree : RbTree Ptr) (node parent grandParent : Ptr) :
    Except Fault (RbTree Ptr × Ptr) :=
  match tree.child grandParent side.other with
  | none => fixByRotation side tree node parent grandParent
  | some uncle =>
      if (tree.node uncle).rbColor = .red then
        let tree := tree.setColor grandParent .red
        let tree := tree.setColor parent .black
        let tree := tree.setColor uncle .black
        pure (tree, grandParent)
      else
        fixByRotation side tree node parent grandParent

def fixViolationLoop (fuel : Nat) (tree : RbTree Ptr) (node : Option Ptr) :
    Except Fault (RbTree Ptr) :=
  match fuel with
  | 0 => .error .outOfFuel
  | fuel + 1 =>
      if node = tree.root then
        pure tree
      else do
        let node ← deref node
        if (tree.node node).rbColor = .black then
          pure tree
        else
          let parent ← deref (tree.node node).rbParent
          if (tree.node parent).rbColor = .black then
            pure tree
          else
            let grandParent ← deref (tree.node parent).rbParent
            let side : Side := if tree.child grandParent .left = some parent then .left else .right
            let (tree, next) ← fixStep side tree node parent grandParent
            fixViolationLoop fuel tree (some next)

def fixViolation (fuel : Nat) (tree : RbTree Ptr) (node : Option Ptr) :
    Except Fault (RbTree Ptr) := do
  let tree ← fixViolationLoop fuel tree node
  let root ← deref tree.root
  return tree.setColor root .black

/-! ### Insertion -/

section Insert

variable (compare : Ptr → Ptr → Prop) [DecidableRel compare]

/-- The descent of doInsert; returns `parent` when `current` becomes null. -/
def descend (fuel : Nat) (tree : RbTree Ptr) (node : Ptr) (parent current : Option Ptr) :
    Except Fault (Option Ptr) :=
  match fuel with
  | 0 => .error .outOfFuel
  | fuel + 1 =>
      match current with
      | none => .ok parent
      | some current =>
          if compare node current then
            descend fuel tree node (some current) (tree.child current .left)
          else
            descend fuel tree node (some current) (tree.child current .right)

def doInsert (fuel : Nat) (tree : RbTree Ptr) (node : Ptr) : Except Fault (RbTree Ptr) := do
  let tree := tree.setChild node .left none
  let tree := tree.setChild node .right none
  let tree := tree.setTree node true
  let tree := tree.setColor node .red
  let parent ← descend compare fuel tree node none tree.root
  let tree := tree.setParent node parent
  let tree :=
    match parent with
    | none => tree.setRoot (some node)
    | some parent =>
        if compare node parent then
          tree.setChild parent .left (some node)
        else
          tree.setChild parent .right (some node)
  fixViolation fuel tree (some node)

theorem doInsert_eq {fuel : Nat} {tree : RbTree Ptr} {node : Ptr} {parent : Option Ptr} :
    let cleared := (((tree.setChild node .left none).setChild node .right none).setTree node
      true).setColor node .red
    let placed := cleared.setParent node parent
    descend compare fuel cleared node none cleared.root = .ok parent →
      doInsert compare fuel tree node =
        fixViolation fuel
          (parent.elim (placed.setRoot (some node)) fun parent =>
            if compare node parent then placed.setChild parent .left (some node)
            else placed.setChild parent .right (some node))
          (some node) := by
  intro cleared placed found
  unfold doInsert
  change (descend compare fuel cleared node none cleared.root).bind _ = _
  rw [found]
  cases parent with
  | none => rfl
  | some parent => rfl

end Insert

/-! ### Removal -/

/-- `while (replace->rbLeft != nullptr) replace = replace->rbLeft;` and its mirror. -/
def descendSide (side : Side) (fuel : Nat) (tree : RbTree Ptr) (pointer : Ptr) :
    Except Fault Ptr :=
  match fuel with
  | 0 => .error .outOfFuel
  | fuel + 1 =>
      match tree.child pointer side with
      | none => .ok pointer
      | some next => descendSide side fuel tree next

/-- Redirects the slot that holds `node` to `target`. -/
def replaceNode (tree : RbTree Ptr) (node : Ptr) (target : Option Ptr) :
    Except Fault (RbTree Ptr) :=
  if some node = tree.root then
    pure (tree.setRoot target)
  else do
    let parent ← deref (tree.node node).rbParent
    if tree.child parent .left = some node then
      pure (tree.setChild parent .left target)
    else
      pure (tree.setChild parent .right target)

/-- The two-child branch of doErase up to `node = replace`. -/
def eraseTwoChildren (fuel : Nat) (tree : RbTree Ptr) (current right : Ptr) :
    Except Fault (RbTree Ptr × Ptr) := do
  let replace ← descendSide .left fuel tree right
  let tree ←
    if (tree.node replace).rbParent ≠ some current then do
      let parent ← deref (tree.node current).rbParent
      let tree := tree.setChild parent .left (tree.child replace .right)
      let tree := tree.setChild replace .right (tree.child current .right)
      let currentRight ← deref (tree.child current .right)
      pure (tree.setParent currentRight (some replace))
    else
      pure (tree.setParent replace (some current))
  let tree ← replaceNode tree current (some replace)
  let tree := tree.setChild replace .left (tree.child current .left)
  let currentLeft ← deref (tree.child current .left)
  return (tree.setParent currentLeft (some replace), replace)

def doErase (fuel : Nat) (tree : RbTree Ptr) (current : Ptr) : Except Fault (RbTree Ptr) := do
  let tree := tree.setTree current false
  let (tree, node, child) ←
    match tree.child current .left, tree.child current .right with
    | some _, some right => do
        let (tree, replace) ← eraseTwoChildren fuel tree current right
        pure (tree, replace, tree.child replace .right)
    | some left, none => pure (tree, current, some left)
    | none, right => pure (tree, current, right)
  let color := (tree.node node).rbColor
  let tree := tree.adopt child (tree.node node).rbParent
  let tree ← replaceNode tree node child
  if color = .black ∧ tree.root ≠ none then
    fixViolation fuel tree (child.or (tree.node node).rbParent)
  else
    pure tree

/-- `NodeType::erase_from_parent`, also run by the node's destructor. -/
def eraseFromParent (fuel : Nat) (tree : RbTree Ptr) (node : Ptr) : Except Fault (RbTree Ptr) :=
  if (tree.node node).rbTree then do
    let tree ← tree.doErase fuel node
    return tree.setTree node false
  else
    pure tree

def doClear (fuel : Nat) (tree : RbTree Ptr) (node : Option Ptr) : Except Fault (RbTree Ptr) :=
  match fuel with
  | 0 => .error .outOfFuel
  | fuel + 1 =>
      match node with
      | none => pure tree
      | some node => do
          let tree ← doClear fuel tree (tree.child node .left)
          let tree := tree.setTree node false
          doClear fuel tree (tree.child node .right)

def clear (fuel : Nat) (tree : RbTree Ptr) : Except Fault (RbTree Ptr) := do
  let tree ← tree.doClear fuel tree.root
  return tree.setRoot none

end Writes

/-! ### Reads -/

def isEmpty (tree : RbTree Ptr) : Bool :=
  tree.root.isNone

def getFront (fuel : Nat) (tree : RbTree Ptr) : Except Fault Ptr := do
  let current ← deref tree.root
  descendSide .left fuel tree current

def getBack (fuel : Nat) (tree : RbTree Ptr) : Except Fault Ptr := do
  let current ← deref tree.root
  descendSide .right fuel tree current

/-- The nodes in the order in which doTraverseInorder visits them. -/
def doTraverseInorder (fuel : Nat) (tree : RbTree Ptr) (node : Option Ptr) :
    Except Fault (List Ptr) :=
  match fuel with
  | 0 => .error .outOfFuel
  | fuel + 1 =>
      match node with
      | none => pure []
      | some node => do
          let before ← doTraverseInorder fuel tree (tree.child node .left)
          let after ← doTraverseInorder fuel tree (tree.child node .right)
          return before ++ node :: after

def traverseInorder (fuel : Nat) (tree : RbTree Ptr) : Except Fault (List Ptr) :=
  doTraverseInorder fuel tree tree.root

end RbTree

end MCoro
