/-
What each operation of the red-black tree does to its linked cells.

`Focus` says that memory holds a tree whose node of interest is the top of the
subtree at the end of a path. The rotations, the repair loop, insertion and the
removal of a node with at most one child are each described once, at a focus;
no later proof unfolds their pointer writes.
-/

import MCoro.Utils.RbTree

namespace MCoro.RbTree

open LinkedTree

variable {Ptr : Type}

def links (tree : RbTree Ptr) : Links Ptr :=
  { child := tree.child
    parent := fun pointer => (tree.node pointer).rbParent }

def colors (tree : RbTree Ptr) (pointer : Ptr) : RbColor :=
  (tree.node pointer).rbColor

/-- The nodes whose rbTree points to this tree. -/
def marks (tree : RbTree Ptr) (pointer : Ptr) : Bool :=
  (tree.node pointer).rbTree

@[simp] theorem root_setRoot (tree : RbTree Ptr) (target : Option Ptr) :
    (tree.setRoot target).root = target := rfl

@[simp] theorem links_setRoot (tree : RbTree Ptr) (target : Option Ptr) :
    (tree.setRoot target).links = tree.links := rfl

@[simp] theorem colors_setRoot (tree : RbTree Ptr) (target : Option Ptr) :
    (tree.setRoot target).colors = tree.colors := rfl

@[simp] theorem marks_setRoot (tree : RbTree Ptr) (target : Option Ptr) :
    (tree.setRoot target).marks = tree.marks := rfl

section Writes

variable [DecidableEq Ptr] (tree : RbTree Ptr) (pointer : Ptr) (side : Side)
  (target : Option Ptr)

@[simp] theorem root_setChild : (tree.setChild pointer side target).root = tree.root := by
  cases side <;> rfl

@[simp] theorem root_setParent : (tree.setParent pointer target).root = tree.root := rfl

@[simp] theorem root_setColor (color : RbColor) :
    (tree.setColor pointer color).root = tree.root := rfl

@[simp] theorem root_setTree (linked : Bool) :
    (tree.setTree pointer linked).root = tree.root := rfl

@[simp] theorem root_adopt (adopted : Option Ptr) :
    (tree.adopt adopted target).root = tree.root := by
  cases adopted <;> rfl

@[simp] theorem links_setChild :
    (tree.setChild pointer side target).links = tree.links.setChild pointer side target := by
  apply Links.ext
  · funext probe probeSide
    by_cases same : probe = pointer
    · subst same
      cases side <;> cases probeSide <;> simp [links, child, setChild, write]
    · cases side <;> cases probeSide <;> simp [links, child, setChild, write, same]
  · funext probe
    by_cases same : probe = pointer
    · subst same
      cases side <;> simp [links, setChild, write]
    · cases side <;> simp [links, setChild, write, same]

@[simp] theorem links_setParent :
    (tree.setParent pointer target).links = tree.links.setParent pointer target := by
  apply Links.ext
  · funext probe probeSide
    by_cases same : probe = pointer
    · subst same
      cases probeSide <;> simp [links, child, setParent, write]
    · cases probeSide <;> simp [links, child, setParent, write, same]
  · funext probe
    by_cases same : probe = pointer
    · subst same
      simp [links, setParent, write]
    · simp [links, setParent, write, same]

@[simp] theorem links_adopt (adopted : Option Ptr) :
    (tree.adopt adopted target).links = tree.links.adopt adopted target := by
  cases adopted with
  | none => rfl
  | some present => exact links_setParent tree present target

private theorem links_write (node : RbNode Ptr)
    (left : node.rbLeft = (tree.node pointer).rbLeft)
    (right : node.rbRight = (tree.node pointer).rbRight)
    (parent : node.rbParent = (tree.node pointer).rbParent) :
    (tree.write pointer node).links = tree.links := by
  apply Links.ext
  · funext probe probeSide
    by_cases same : probe = pointer
    · subst same
      cases probeSide <;> simp [links, child, write, left, right]
    · cases probeSide <;> simp [links, child, write, same]
  · funext probe
    by_cases same : probe = pointer
    · subst same
      simp [links, write, parent]
    · simp [links, write, same]

@[simp] theorem links_setColor (color : RbColor) :
    (tree.setColor pointer color).links = tree.links :=
  links_write tree pointer _ rfl rfl rfl

@[simp] theorem links_setTree (linked : Bool) :
    (tree.setTree pointer linked).links = tree.links :=
  links_write tree pointer _ rfl rfl rfl

private theorem colors_write (node : RbNode Ptr) :
    (tree.write pointer node).colors =
      Function.update tree.colors pointer node.rbColor := by
  funext probe
  by_cases same : probe = pointer
  · subst same
    simp [colors, write]
  · simp [colors, write, same]

@[simp] theorem colors_setChild :
    (tree.setChild pointer side target).colors = tree.colors := by
  cases side <;> exact (colors_write tree pointer _).trans (Function.update_eq_self _ _)

@[simp] theorem colors_setParent :
    (tree.setParent pointer target).colors = tree.colors :=
  (colors_write tree pointer _).trans (Function.update_eq_self _ _)

@[simp] theorem colors_setTree (linked : Bool) :
    (tree.setTree pointer linked).colors = tree.colors :=
  (colors_write tree pointer _).trans (Function.update_eq_self _ _)

@[simp] theorem colors_setColor (color : RbColor) :
    (tree.setColor pointer color).colors = Function.update tree.colors pointer color :=
  colors_write tree pointer _

@[simp] theorem colors_adopt (adopted : Option Ptr) :
    (tree.adopt adopted target).colors = tree.colors := by
  cases adopted with
  | none => rfl
  | some present => exact colors_setParent tree present target

private theorem marks_write (node : RbNode Ptr) :
    (tree.write pointer node).marks =
      Function.update tree.marks pointer node.rbTree := by
  funext probe
  by_cases same : probe = pointer
  · subst same
    simp [marks, write]
  · simp [marks, write, same]

@[simp] theorem marks_setChild :
    (tree.setChild pointer side target).marks = tree.marks := by
  cases side <;> exact (marks_write tree pointer _).trans (Function.update_eq_self _ _)

@[simp] theorem marks_setParent :
    (tree.setParent pointer target).marks = tree.marks :=
  (marks_write tree pointer _).trans (Function.update_eq_self _ _)

@[simp] theorem marks_setColor (color : RbColor) :
    (tree.setColor pointer color).marks = tree.marks :=
  (marks_write tree pointer _).trans (Function.update_eq_self _ _)

@[simp] theorem marks_setTree (linked : Bool) :
    (tree.setTree pointer linked).marks = Function.update tree.marks pointer linked :=
  marks_write tree pointer _

@[simp] theorem marks_adopt (adopted : Option Ptr) :
    (tree.adopt adopted target).marks = tree.marks := by
  cases adopted with
  | none => rfl
  | some present => exact marks_setParent tree present target

end Writes

/-! ### Focus -/

/-- Memory holds the plugged tree, each node once; the subtree is in focus. -/
structure Focus (tree : RbTree Ptr) (path : List (Frame Ptr)) (subtree : BinaryTree Ptr) :
    Prop where
  hangs : Hangs tree.links tree.root (top subtree) path
  linked : Represents tree.links (above path) subtree
  distinct : (inorder (plug path subtree)).Nodup

/-- The links are those of `shape`, from the root down. -/
abbrev Shape (tree : RbTree Ptr) (shape : BinaryTree Ptr) : Prop :=
  Focus tree [] shape

theorem Focus.up {tree : RbTree Ptr} {frame : Frame Ptr} {rest : List (Frame Ptr)}
    {subtree : BinaryTree Ptr} :
    Focus tree (frame :: rest) subtree ↔ Focus tree rest (frame.plug subtree) := by
  have relink := represents_plug tree.links tree.root
  constructor
  · intro focus
    have whole := (relink (frame :: rest) subtree).2 ⟨focus.hangs, focus.linked⟩
    obtain ⟨hangs, linked⟩ := (relink rest (frame.plug subtree)).1 whole
    exact ⟨hangs, linked, focus.distinct⟩
  · intro focus
    have whole := (relink rest (frame.plug subtree)).2 ⟨focus.hangs, focus.linked⟩
    obtain ⟨hangs, linked⟩ := (relink (frame :: rest) subtree).1 whole
    exact ⟨hangs, linked, focus.distinct⟩

theorem focus_iff_shape {tree : RbTree Ptr} {path : List (Frame Ptr)}
    {subtree : BinaryTree Ptr} : Focus tree path subtree ↔ Shape tree (plug path subtree) := by
  induction path generalizing subtree with
  | nil => exact Iff.rfl
  | cons frame rest ih => rw [Focus.up, ih, plug]

theorem Focus.unique {tree : RbTree Ptr} {path : List (Frame Ptr)}
    {subtree subtree' : BinaryTree Ptr} (focus : Focus tree path subtree)
    (focus' : Focus tree path subtree') (sameTop : top subtree = top subtree') :
    subtree = subtree' :=
  focus.linked.unique focus'.linked sameTop

theorem Focus.unique_shape {tree : RbTree Ptr} {shape shape' : BinaryTree Ptr}
    (linked : Shape tree shape) (linked' : Shape tree shape') : shape = shape' :=
  linked.unique linked' (linked.hangs.symm.trans linked'.hangs)

theorem Focus.congr {tree tree' : RbTree Ptr} {path : List (Frame Ptr)}
    {subtree : BinaryTree Ptr} (focus : Focus tree path subtree)
    (sameLinks : tree'.links = tree.links) (sameRoot : tree'.root = tree.root) :
    Focus tree' path subtree := by
  refine ⟨?_, ?_, focus.distinct⟩
  · rw [sameLinks, sameRoot]
    exact focus.hangs
  · rw [sameLinks]
    exact focus.linked

theorem Focus.slot {tree : RbTree Ptr} {frame : Frame Ptr} {rest : List (Frame Ptr)}
    {subtree : BinaryTree Ptr} {node : Ptr} (focus : Focus tree (frame :: rest) subtree)
    (atNode : top subtree = some node) :
    tree.child frame.key frame.side = some node ∧
      tree.child frame.key frame.side.other ≠ some node := by
  obtain ⟨_, holeEq, siblingEq, _, _⟩ := focus.hangs
  refine ⟨holeEq.trans atNode, ?_⟩
  change tree.links.child frame.key frame.side.other ≠ some node
  rw [siblingEq]
  intro atSibling
  have apart := ((nodup_plug _ _).1 focus.distinct).2.2 node (top_mem atNode)
  exact apart (by simp [pathKeys, top_mem atSibling])

theorem Focus.side_eq [DecidableEq Ptr] {tree : RbTree Ptr} {frame : Frame Ptr}
    {rest : List (Frame Ptr)} {subtree : BinaryTree Ptr} {node : Ptr}
    (focus : Focus tree (frame :: rest) subtree) (atNode : top subtree = some node) :
    (if tree.child frame.key .left = some node then Side.left else .right) = frame.side := by
  obtain ⟨holds, notOther⟩ := focus.slot atNode
  cases side : frame.side with
  | left =>
      rw [side] at holds
      rw [if_pos holds]
  | right =>
      rw [side] at notOther
      exact if_neg notOther

theorem deref_some (pointer : Ptr) : deref (some pointer) = .ok pointer := rfl

/-! ### Rotation -/

variable [DecidableEq Ptr]

theorem rotate_focus {tree : RbTree Ptr} {path : List (Frame Ptr)} {side : Side}
    {node child : Ptr} {near inner outer : BinaryTree Ptr}
    (focus : Focus tree path (branch side node near (branch side child inner outer))) :
    ∃ tree', rotate side tree node = .ok tree' ∧
      Focus tree' path (branch side child (branch side node near inner) outer) ∧
      tree'.colors = tree.colors ∧ tree'.marks = tree.marks := by
  have hangs := focus.hangs
  have linked := focus.linked
  have distinct := focus.distinct
  rw [top_branch] at hangs
  have tops := linked
  simp only [represents_branch, top_branch] at tops
  obtain ⟨nodeParent, _nodeNear, nodeChild, _nearTree, _childParent, childInner, _⟩ := tops
  have distinctTree := ((nodup_plug _ _).1 distinct).1
  have apart := ((nodup_plug _ _).1 distinct).2.2
  simp only [nodup_branch, mem_inorder_branch, not_or] at distinctTree
  obtain ⟨_, ⟨nodeNotChild, nodeNotInner, _⟩, _⟩ := distinctTree
  have notInner : some node ≠ top inner := fun atTop => nodeNotInner (top_mem atTop.symm)
  -- the tree before the slot above `node` is redirected
  let moved := ((tree.setChild node side.other (top inner)).adopt (top inner)
    (some node)).setParent child (above path)
  have movedParent : (moved.node node).rbParent = above path := by
    change moved.links.parent node = above path
    simp [moved, nodeNotChild, notInner, nodeParent]
  have redirected : ∃ next : RbTree Ptr,
      ((moved.node node).rbParent.elim (moved.setRoot (some child)) fun parent =>
          if moved.child parent side = some node then
            moved.setChild parent side (some child)
          else
            moved.setChild parent side.other (some child)) = next ∧
        next.links = moved.links.setHole path (some child) ∧
        next.root = rootAfter tree.root path (some child) ∧
        next.colors = tree.colors ∧ next.marks = tree.marks := by
    rw [movedParent]
    cases path with
    | nil => exact ⟨_, rfl, by simp [Links.setHole], rfl, by simp [moved], by simp [moved]⟩
    | cons frame rest =>
        obtain ⟨_parentEq, holeEq, siblingEq, _siblingOk, _outer⟩ := hangs
        have frameOutside : frame.key ≠ node := by
          intro same
          exact apart node (by simp) (by simp [pathKeys, same])
        have siblingOutside : top frame.sibling ≠ some node := by
          intro atTop
          exact apart node (by simp) (by simp [pathKeys, top_mem atTop])
        have slot : ∀ probe, moved.child frame.key probe = tree.links.child frame.key probe := by
          intro probe
          change moved.links.child frame.key probe = _
          simp [moved, frameOutside]
        rcases Side.eq_or_other frame.side side with same | opposite
        · refine ⟨moved.setChild frame.key frame.side (some child), ?_, ?_, ?_, ?_, ?_⟩
          · simp [same, slot, holeEq]
          all_goals simp [moved, Links.setHole, rootAfter]
        · refine ⟨moved.setChild frame.key frame.side (some child), ?_, ?_, ?_, ?_, ?_⟩
          · simp [opposite, slot, siblingEq, siblingOutside]
          all_goals simp [moved, Links.setHole, rootAfter]
  obtain ⟨next, nextEq, nextLinks, nextRoot, nextColors, nextMarks⟩ := redirected
  refine ⟨(next.setChild child side (some node)).setParent node (some child), ?_, ?_, ?_, ?_⟩
  · have parentEq : (((tree.setChild node side.other (top inner)).adopt (top inner)
        (some node)).node node).rbParent = above path := by
      change ((tree.setChild node side.other (top inner)).adopt (top inner)
        (some node)).links.parent node = above path
      simp [notInner, nodeParent]
    have rotated := rotate_eq nodeChild childInner
    simp only [parentEq] at rotated
    rw [rotated]
    exact congrArg (fun result : RbTree Ptr =>
      Except.ok ((result.setChild child side (some node)).setParent node (some child))) nextEq
  · refine ⟨?_, ?_, ?_⟩
    · have rotated := rotate_hangs hangs distinct
      simpa [nextLinks, nextRoot, moved, Links.rotate] using rotated
    · have rotated := rotate_represents linked distinct
      simpa [nextLinks, moved, Links.rotate] using rotated
    · rw [inorder_plug_congr path (inorder_rotate side node child near inner outer)]
      exact distinct
  · simp [nextColors]
  · simp [nextMarks]

end MCoro.RbTree
