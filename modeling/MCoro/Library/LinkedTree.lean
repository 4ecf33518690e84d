/-
Binary trees kept as linked cells in memory.

A cell stores its two children and its parent. A path of frames leads from a
subtree up to the root, so a write inside a large tree is a change of the hole
of one path and of one small subtree; everything else is carried by the
agreement lemmas. Nothing here names a program or a balancing rule.
-/

import Mathlib

namespace MCoro.LinkedTree

inductive Side where
  | left
  | right
  deriving DecidableEq, Repr

def Side.other : Side → Side
  | .left => .right
  | .right => .left

@[simp] theorem Side.other_other (side : Side) : side.other.other = side := by
  cases side <;> rfl

@[simp] theorem Side.other_ne (side : Side) : side.other ≠ side := by
  cases side <;> simp [Side.other]

@[simp] theorem Side.ne_other (side : Side) : side ≠ side.other := by
  cases side <;> simp [Side.other]

theorem Side.eq_or_other (side probe : Side) : probe = side ∨ probe = side.other := by
  cases side <;> cases probe <;> simp [Side.other]

variable {α : Type}

def top : BinaryTree α → Option α
  | .nil => none
  | .node value _ _ => some value

def inorder : BinaryTree α → List α
  | .nil => []
  | .node value left right => inorder left ++ value :: inorder right

/-- A node whose `near` subtree hangs on the given side. -/
def branch (side : Side) (value : α) (near far : BinaryTree α) : BinaryTree α :=
  match side with
  | .left => .node value near far
  | .right => .node value far near

@[simp] theorem top_nil : top (.nil : BinaryTree α) = none := rfl

@[simp] theorem top_node (value : α) (left right : BinaryTree α) :
    top (.node value left right) = some value := rfl

@[simp] theorem inorder_nil : inorder (.nil : BinaryTree α) = [] := rfl

@[simp] theorem inorder_node (value : α) (left right : BinaryTree α) :
    inorder (.node value left right) = inorder left ++ value :: inorder right := rfl

@[simp] theorem top_branch (side : Side) (value : α) (near far : BinaryTree α) :
    top (branch side value near far) = some value := by
  cases side <;> rfl

theorem top_mem {tree : BinaryTree α} {value : α} (atTop : top tree = some value) :
    value ∈ inorder tree := by
  cases tree with
  | nil => cases atTop
  | node stored left right =>
      cases atTop
      simp

theorem top_eq_none {tree : BinaryTree α} : top tree = none ↔ tree = .nil := by
  cases tree <;> simp

@[simp] theorem mem_inorder_branch (side : Side) (value probe : α) (near far : BinaryTree α) :
    probe ∈ inorder (branch side value near far) ↔
      probe = value ∨ probe ∈ inorder near ∨ probe ∈ inorder far := by
  cases side <;> simp [branch] <;> tauto

theorem inorder_length (tree : BinaryTree α) : (inorder tree).length = tree.numNodes := by
  induction tree with
  | nil => rfl
  | node value left right ihLeft ihRight =>
      simp only [inorder_node, List.length_append, List.length_cons, BinaryTree.numNodes,
        ihLeft, ihRight]
      omega

theorem branch_other (side : Side) (value : α) (near far : BinaryTree α) :
    branch side.other value near far = branch side value far near := by
  cases side <;> rfl

theorem exists_branch (side : Side) {tree : BinaryTree α} {value : α}
    (atTop : top tree = some value) : ∃ near far, tree = branch side value near far := by
  cases tree with
  | nil => cases atTop
  | node stored left right =>
      cases atTop
      cases side with
      | left => exact ⟨left, right, rfl⟩
      | right => exact ⟨right, left, rfl⟩

/-- Turning the edge between `value` and its far child keeps the order of the
keys; `side` is the side that `value` moves down to. -/
theorem inorder_rotate (side : Side) (value child : α) (near inner outer : BinaryTree α) :
    inorder (branch side child (branch side value near inner) outer) =
      inorder (branch side value near (branch side child inner outer)) := by
  cases side <;> simp [branch]

/-! ### Paths -/

/-- One step towards the root: the hole is the child on `side` of `key`. -/
structure Frame (α : Type) where
  side : Side
  key : α
  sibling : BinaryTree α

def Frame.plug (frame : Frame α) (subtree : BinaryTree α) : BinaryTree α :=
  branch frame.side frame.key subtree frame.sibling

def plug : List (Frame α) → BinaryTree α → BinaryTree α
  | [], subtree => subtree
  | frame :: rest, subtree => plug rest (frame.plug subtree)

def Frame.keysBefore (frame : Frame α) : List α :=
  match frame.side with
  | .left => []
  | .right => inorder frame.sibling ++ [frame.key]

def Frame.keysAfter (frame : Frame α) : List α :=
  match frame.side with
  | .left => frame.key :: inorder frame.sibling
  | .right => []

def keysBefore : List (Frame α) → List α
  | [] => []
  | frame :: rest => keysBefore rest ++ frame.keysBefore

def keysAfter : List (Frame α) → List α
  | [] => []
  | frame :: rest => frame.keysAfter ++ keysAfter rest

/-- The key directly above the hole, `none` at the root. -/
def above (path : List (Frame α)) : Option α :=
  path.head?.map Frame.key

@[simp] theorem above_nil : above ([] : List (Frame α)) = none := rfl

@[simp] theorem above_cons (frame : Frame α) (rest : List (Frame α)) :
    above (frame :: rest) = some frame.key := rfl

theorem inorder_frame_plug (frame : Frame α) (subtree : BinaryTree α) :
    inorder (frame.plug subtree) =
      frame.keysBefore ++ inorder subtree ++ frame.keysAfter := by
  rcases frame with ⟨side, key, sibling⟩
  cases side <;> simp [Frame.plug, branch, Frame.keysBefore, Frame.keysAfter]

theorem inorder_plug (path : List (Frame α)) (subtree : BinaryTree α) :
    inorder (plug path subtree) = keysBefore path ++ inorder subtree ++ keysAfter path := by
  induction path generalizing subtree with
  | nil => simp [plug, keysBefore, keysAfter]
  | cons frame rest ih =>
      rw [plug, ih, inorder_frame_plug]
      simp [keysBefore, keysAfter]

theorem inorder_plug_congr (path : List (Frame α)) {before after : BinaryTree α}
    (same : inorder after = inorder before) :
    inorder (plug path after) = inorder (plug path before) := by
  rw [inorder_plug, inorder_plug, same]

theorem plug_ne_nil (path : List (Frame α)) {subtree : BinaryTree α}
    (nonempty : subtree ≠ .nil) : plug path subtree ≠ .nil := by
  induction path generalizing subtree with
  | nil => exact nonempty
  | cons frame rest ih =>
      apply ih
      rw [Ne, ← top_eq_none, Frame.plug, top_branch]
      exact Option.some_ne_none _

theorem plug_ne_nil_of_top (path : List (Frame α)) {subtree : BinaryTree α} {value : α}
    (atTop : top subtree = some value) : plug path subtree ≠ .nil := by
  apply plug_ne_nil
  rw [Ne, ← top_eq_none, atTop]
  exact Option.some_ne_none value

theorem top_plug_cons (frame : Frame α) (rest : List (Frame α)) (subtree subtree' : BinaryTree α) :
    top (plug (frame :: rest) subtree) = top (plug (frame :: rest) subtree') := by
  induction rest generalizing frame subtree subtree' with
  | nil => rw [plug, plug, plug, plug, Frame.plug, Frame.plug, top_branch, top_branch]
  | cons next rest ih => exact ih next (frame.plug subtree) (frame.plug subtree')

theorem length_lt_numNodes_plug (path : List (Frame α)) {subtree : BinaryTree α}
    (nonempty : 0 < subtree.numNodes) : path.length < (plug path subtree).numNodes := by
  have general : path.length + subtree.numNodes ≤ (plug path subtree).numNodes := by
    clear nonempty
    induction path generalizing subtree with
    | nil => simp [plug]
    | cons frame rest ih =>
        have grown : subtree.numNodes + 1 ≤ (frame.plug subtree).numNodes := by
          rcases frame with ⟨side, key, sibling⟩
          cases side <;> simp only [Frame.plug, branch, BinaryTree.numNodes] <;> omega
        have step := @ih (frame.plug subtree)
        rw [plug, List.length_cons]
        omega
  omega

/-- Every key of a tree is the top of a subtree at the end of some path. -/
theorem exists_path (tree : BinaryTree α) (key : α) (member : key ∈ inorder tree) :
    ∃ path left right, tree = plug path (.node key left right) := by
  have general : ∀ (subtree : BinaryTree α) (outer : List (Frame α)),
      key ∈ inorder subtree →
        ∃ path left right, plug outer subtree = plug path (.node key left right) := by
    intro subtree
    induction subtree with
    | nil =>
        intro outer absent
        cases absent
    | node value left right ihLeft ihRight =>
        intro outer present
        rw [inorder_node, List.mem_append, List.mem_cons] at present
        rcases present with inLeft | atValue | inRight
        · exact ihLeft (⟨.left, value, right⟩ :: outer) inLeft
        · subst atValue
          exact ⟨outer, left, right, rfl⟩
        · exact ihRight (⟨.right, value, left⟩ :: outer) inRight
  exact general tree [] member

/-! ### Cells in memory -/

@[ext]
structure Links (α : Type) where
  child : α → Side → Option α
  parent : α → Option α

def Links.setChild [DecidableEq α] (links : Links α) (cell : α) (side : Side)
    (target : Option α) : Links α :=
  { links with
    child := fun probe probeSide =>
      if probe = cell ∧ probeSide = side then target else links.child probe probeSide }

def Links.setParent [DecidableEq α] (links : Links α) (cell : α)
    (target : Option α) : Links α :=
  { links with parent := fun probe => if probe = cell then target else links.parent probe }

/-- Tells the cell, when there is one, who its parent is. -/
def Links.adopt [DecidableEq α] (links : Links α) (cell parent : Option α) : Links α :=
  match cell with
  | none => links
  | some present => links.setParent present parent

section Writes

variable [DecidableEq α] (links : Links α) (cell probe : α) (side probeSide : Side)
  (target : Option α)

@[simp] theorem setChild_child :
    (links.setChild cell side target).child probe probeSide =
      if probe = cell ∧ probeSide = side then target else links.child probe probeSide := rfl

@[simp] theorem setChild_parent :
    (links.setChild cell side target).parent probe = links.parent probe := rfl

@[simp] theorem setParent_child :
    (links.setParent cell target).child probe probeSide = links.child probe probeSide := rfl

@[simp] theorem setParent_parent :
    (links.setParent cell target).parent probe =
      if probe = cell then target else links.parent probe := rfl

@[simp] theorem adopt_child (adopted : Option α) :
    (links.adopt adopted target).child probe probeSide = links.child probe probeSide := by
  cases adopted <;> rfl

@[simp] theorem adopt_parent (adopted : Option α) :
    (links.adopt adopted target).parent probe =
      if some probe = adopted then target else links.parent probe := by
  cases adopted with
  | none => simp [Links.adopt]
  | some present => simp [Links.adopt]

end Writes

/-- The cells at and below the top of the tree are linked as the tree says,
and the top's parent is `up`. -/
def Represents (links : Links α) : Option α → BinaryTree α → Prop
  | _, .nil => True
  | up, .node value left right =>
      links.parent value = up ∧
      links.child value .left = top left ∧
      links.child value .right = top right ∧
      Represents links (some value) left ∧
      Represents links (some value) right

/-- The cells along the path, and the siblings hanging from it, are linked as
the path says; the hole and the root are given by their cells. -/
def Hangs (links : Links α) (root : Option α) : Option α → List (Frame α) → Prop
  | hole, [] => root = hole
  | hole, frame :: rest =>
      links.parent frame.key = above rest ∧
      links.child frame.key frame.side = hole ∧
      links.child frame.key frame.side.other = top frame.sibling ∧
      Represents links (some frame.key) frame.sibling ∧
      Hangs links root (some frame.key) rest

theorem Represents.parent_top {links : Links α} {up : Option α} {tree : BinaryTree α}
    {cell : α} (linked : Represents links up tree) (atTop : top tree = some cell) :
    links.parent cell = up := by
  cases tree with
  | nil => cases atTop
  | node value left right =>
      cases atTop
      exact linked.1

/-- The links and the top determine the tree. -/
theorem Represents.unique {links : Links α} {up up' : Option α} {tree tree' : BinaryTree α}
    (linked : Represents links up tree) (linked' : Represents links up' tree')
    (sameTop : top tree = top tree') : tree = tree' := by
  induction tree generalizing up up' tree' with
  | nil => exact (top_eq_none.1 sameTop.symm).symm
  | node value left right ihLeft ihRight =>
      cases tree' with
      | nil => cases sameTop
      | node value' left' right' =>
          cases sameTop
          obtain ⟨_, leftEq, rightEq, leftTree, rightTree⟩ := linked
          obtain ⟨_, leftEq', rightEq', leftTree', rightTree'⟩ := linked'
          rw [ihLeft leftTree leftTree' (leftEq.symm.trans leftEq'),
            ihRight rightTree rightTree' (rightEq.symm.trans rightEq')]

theorem represents_branch (links : Links α) (up : Option α) (side : Side) (value : α)
    (near far : BinaryTree α) :
    Represents links up (branch side value near far) ↔
      links.parent value = up ∧
      links.child value side = top near ∧
      links.child value side.other = top far ∧
      Represents links (some value) near ∧
      Represents links (some value) far := by
  cases side with
  | left => exact Iff.rfl
  | right =>
      constructor
      · rintro ⟨parentEq, leftEq, rightEq, leftTree, rightTree⟩
        exact ⟨parentEq, rightEq, leftEq, rightTree, leftTree⟩
      · rintro ⟨parentEq, rightEq, leftEq, rightTree, leftTree⟩
        exact ⟨parentEq, leftEq, rightEq, leftTree, rightTree⟩

/-- A linked tree is a linked path together with the linked subtree in its hole. -/
theorem represents_plug (links : Links α) (root : Option α) (path : List (Frame α))
    (subtree : BinaryTree α) :
    (root = top (plug path subtree) ∧ Represents links none (plug path subtree)) ↔
      Hangs links root (top subtree) path ∧ Represents links (above path) subtree := by
  induction path generalizing subtree with
  | nil => exact Iff.rfl
  | cons frame rest ih =>
      rw [plug, ih, Frame.plug, represents_branch, top_branch]
      constructor
      · rintro ⟨outer, parentEq, holeEq, siblingEq, subtreeOk, siblingOk⟩
        exact ⟨⟨parentEq, holeEq, siblingEq, siblingOk, outer⟩, subtreeOk⟩
      · rintro ⟨⟨parentEq, holeEq, siblingEq, siblingOk, outer⟩, subtreeOk⟩
        exact ⟨outer, parentEq, holeEq, siblingEq, subtreeOk, siblingOk⟩

/-! ### Agreement of two memories -/

def SameCell (links links' : Links α) (cell : α) : Prop :=
  (∀ side, links'.child cell side = links.child cell side) ∧
    links'.parent cell = links.parent cell

theorem Represents.congr {links links' : Links α} {up : Option α} {tree : BinaryTree α}
    (linked : Represents links up tree)
    (same : ∀ cell ∈ inorder tree, SameCell links links' cell) :
    Represents links' up tree := by
  induction tree generalizing up with
  | nil => trivial
  | node value left right ihLeft ihRight =>
      obtain ⟨parentEq, leftEq, rightEq, leftTree, rightTree⟩ := linked
      obtain ⟨sameChild, sameParent⟩ := same value (by simp)
      refine ⟨sameParent.trans parentEq, (sameChild .left).trans leftEq,
        (sameChild .right).trans rightEq, ihLeft leftTree ?_, ihRight rightTree ?_⟩
      · intro cell member
        exact same cell (by simp [member])
      · intro cell member
        exact same cell (by simp [member])

theorem Represents.reparent {links links' : Links α} {up up' : Option α}
    {tree : BinaryTree α} (linked : Represents links up tree) (distinct : (inorder tree).Nodup)
    (sameChild : ∀ cell ∈ inorder tree, ∀ side,
      links'.child cell side = links.child cell side)
    (sameParent : ∀ cell ∈ inorder tree, some cell ≠ top tree →
      links'.parent cell = links.parent cell)
    (newParent : ∀ cell, top tree = some cell → links'.parent cell = up') :
    Represents links' up' tree := by
  cases tree with
  | nil => trivial
  | node value left right =>
      obtain ⟨_parentEq, leftEq, rightEq, leftTree, rightTree⟩ := linked
      have apart : value ∉ inorder left ∧ value ∉ inorder right := by
        rw [inorder_node, List.nodup_append, List.nodup_cons] at distinct
        refine ⟨fun inLeft => ?_, distinct.2.1.1⟩
        exact distinct.2.2 value inLeft value (by simp) rfl
      refine ⟨newParent value rfl, (sameChild value (by simp) .left).trans leftEq,
        (sameChild value (by simp) .right).trans rightEq,
        leftTree.congr ?_, rightTree.congr ?_⟩
      · intro cell member
        refine ⟨sameChild cell (by simp [member]), sameParent cell (by simp [member]) ?_⟩
        rintro atTop
        cases atTop
        exact apart.1 member
      · intro cell member
        refine ⟨sameChild cell (by simp [member]), sameParent cell (by simp [member]) ?_⟩
        rintro atTop
        cases atTop
        exact apart.2 member

def pathKeys : List (Frame α) → List α
  | [] => []
  | frame :: rest => frame.key :: inorder frame.sibling ++ pathKeys rest

theorem Hangs.congr {links links' : Links α} {root hole : Option α} {path : List (Frame α)}
    (hangs : Hangs links root hole path)
    (same : ∀ cell ∈ pathKeys path, SameCell links links' cell) :
    Hangs links' root hole path := by
  induction path generalizing hole with
  | nil => exact hangs
  | cons frame rest ih =>
      obtain ⟨parentEq, holeEq, siblingEq, siblingOk, outer⟩ := hangs
      obtain ⟨sameChild, sameParent⟩ := same frame.key (by simp [pathKeys])
      refine ⟨sameParent.trans parentEq, (sameChild _).trans holeEq,
        (sameChild _).trans siblingEq, siblingOk.congr ?_, ih outer ?_⟩
      · intro cell member
        exact same cell (by simp [pathKeys, member])
      · intro cell member
        exact same cell (by simp [pathKeys, member])

theorem Hangs.root_last {links : Links α} {root hole : Option α} {frame : Frame α}
    {rest : List (Frame α)} (hangs : Hangs links root hole (frame :: rest)) :
    root = some ((frame :: rest).getLast (List.cons_ne_nil _ _)).key := by
  induction rest generalizing frame hole with
  | nil => exact hangs.2.2.2.2
  | cons next rest ih => exact ih hangs.2.2.2.2

theorem last_mem_pathKeys (frame : Frame α) (rest : List (Frame α)) :
    ((frame :: rest).getLast (List.cons_ne_nil _ _)).key ∈ pathKeys (frame :: rest) := by
  induction rest generalizing frame with
  | nil => simp [pathKeys]
  | cons next rest ih =>
      rw [pathKeys]
      exact List.mem_append_right _ (ih next)

theorem mem_plug (path : List (Frame α)) (subtree : BinaryTree α) (cell : α) :
    cell ∈ inorder (plug path subtree) ↔ cell ∈ inorder subtree ∨ cell ∈ pathKeys path := by
  induction path generalizing subtree with
  | nil => simp [plug, pathKeys]
  | cons frame rest ih =>
      rw [plug, ih, Frame.plug, mem_inorder_branch]
      simp only [pathKeys, List.cons_append, List.mem_cons, List.mem_append]
      tauto

theorem nodup_branch (side : Side) (value : α) (near far : BinaryTree α) :
    (inorder (branch side value near far)).Nodup ↔
      value ∉ inorder near ∧ value ∉ inorder far ∧ (inorder near).Nodup ∧
        (inorder far).Nodup ∧ ∀ cell ∈ inorder near, cell ∉ inorder far := by
  cases side <;>
    simp only [branch, inorder_node, List.nodup_append, List.nodup_cons, List.mem_cons] <;>
    grind

/-- The keys of a plugged tree are distinct exactly when those of the subtree
and of the path are and the two share none. -/
theorem nodup_plug (path : List (Frame α)) (subtree : BinaryTree α) :
    (inorder (plug path subtree)).Nodup ↔
      (inorder subtree).Nodup ∧ (pathKeys path).Nodup ∧
        ∀ cell ∈ inorder subtree, cell ∉ pathKeys path := by
  induction path generalizing subtree with
  | nil => simp [plug, pathKeys]
  | cons frame rest ih =>
      rw [plug, ih, Frame.plug, nodup_branch]
      simp only [pathKeys, List.cons_append, List.nodup_cons, List.nodup_append,
        mem_inorder_branch, List.mem_cons, List.mem_append]
      grind

/-! ### Writes at the end of a path -/

def Links.setHole [DecidableEq α] (links : Links α) (path : List (Frame α))
    (hole : Option α) : Links α :=
  match path with
  | [] => links
  | frame :: _ => links.setChild frame.key frame.side hole

def rootAfter (root : Option α) (path : List (Frame α)) (hole : Option α) : Option α :=
  match path with
  | [] => hole
  | _ :: _ => root

@[simp] theorem setHole_parent [DecidableEq α] (links : Links α) (path : List (Frame α))
    (hole : Option α) (cell : α) :
    (links.setHole path hole).parent cell = links.parent cell := by
  cases path <;> rfl

theorem setHole_child [DecidableEq α] (links : Links α) {path : List (Frame α)}
    (hole : Option α) {cell : α} (outside : cell ∉ pathKeys path) (side : Side) :
    (links.setHole path hole).child cell side = links.child cell side := by
  cases path with
  | nil => rfl
  | cons frame rest =>
      have different : cell ≠ frame.key := by
        rintro rfl
        exact outside (by simp [pathKeys])
      simp [Links.setHole, different]

theorem Hangs.setHole [DecidableEq α] {links : Links α} {root hole : Option α}
    {path : List (Frame α)} (hangs : Hangs links root hole path)
    (distinct : (pathKeys path).Nodup) (hole' : Option α) :
    Hangs (links.setHole path hole') (rootAfter root path hole') hole' path := by
  cases path with
  | nil => rfl
  | cons frame rest =>
      obtain ⟨parentEq, _holeEq, siblingEq, siblingOk, outer⟩ := hangs
      have apart : ∀ cell ∈ inorder frame.sibling ++ pathKeys rest, cell ≠ frame.key := by
        rintro cell member rfl
        rw [pathKeys, List.cons_append, List.nodup_cons] at distinct
        exact distinct.1 member
      have same : ∀ cell ∈ inorder frame.sibling ++ pathKeys rest,
          SameCell links (links.setHole (frame :: rest) hole') cell := by
        intro cell member
        exact ⟨fun side => by simp [Links.setHole, apart cell member], by simp⟩
      refine ⟨by simpa using parentEq, by simp [Links.setHole], ?_, siblingOk.congr ?_,
        outer.congr ?_⟩
      · simpa [Links.setHole] using siblingEq
      · intro cell member
        exact same cell (List.mem_append_left _ member)
      · intro cell member
        exact same cell (List.mem_append_right _ member)

section Operations

variable [DecidableEq α] {links : Links α} {root : Option α} {path : List (Frame α)}

/-- A subtree takes the place of the node above it: its top is adopted and the
hole of the path is redirected to it. -/
theorem splice {hole up : Option α} {subtree : BinaryTree α}
    (hangs : Hangs links root hole path) (linked : Represents links up subtree)
    (distinctPath : (pathKeys path).Nodup) (distinct : (inorder subtree).Nodup)
    (apart : ∀ cell ∈ inorder subtree, cell ∉ pathKeys path) :
    Hangs ((links.adopt (top subtree) (above path)).setHole path (top subtree))
        (rootAfter root path (top subtree)) (top subtree) path ∧
      Represents ((links.adopt (top subtree) (above path)).setHole path (top subtree))
        (above path) subtree := by
  constructor
  · refine Hangs.setHole (hangs.congr ?_) distinctPath _
    intro cell member
    refine ⟨fun side => by simp, ?_⟩
    have different : some cell ≠ top subtree := by
      intro atTop
      exact apart cell (top_mem atTop.symm) member
    simp [different]
  · apply linked.reparent distinct
    · intro cell member side
      rw [setHole_child _ _ (apart cell member)]
      simp
    · intro cell member different
      simp [different]
    · intro cell atTop
      simp [atTop]

theorem attach {cell : α} (hangs : Hangs links root none path)
    (distinctPath : (pathKeys path).Nodup) (fresh : cell ∉ pathKeys path)
    (noChild : ∀ side, links.child cell side = none) :
    Hangs ((links.setParent cell (above path)).setHole path (some cell))
        (rootAfter root path (some cell)) (some cell) path ∧
      Represents ((links.setParent cell (above path)).setHole path (some cell))
        (above path) (.node cell .nil .nil) := by
  constructor
  · refine Hangs.setHole (hangs.congr ?_) distinctPath _
    intro probe member
    have different : probe ≠ cell := by
      rintro rfl
      exact fresh member
    exact ⟨fun side => by simp, by simp [different]⟩
  · refine ⟨by simp, ?_, ?_, trivial, trivial⟩
    · rw [setHole_child _ _ fresh]
      simpa using noChild .left
    · rw [setHole_child _ _ fresh]
      simpa using noChild .right

/-- The six link writes of a rotation, in the order in which they are made.
`node` moves down to `side` and its far child takes its place. -/
def Links.rotate (links : Links α) (path : List (Frame α)) (side : Side) (node child : α)
    (inner : Option α) : Links α :=
  (((((links.setChild node side.other inner).adopt inner (some node)).setParent child
    (above path)).setHole path (some child)).setChild child side (some node)).setParent
      node (some child)

theorem rotate_hangs {side : Side} {node child : α} {near inner outer : BinaryTree α}
    (hangs : Hangs links root (some node) path)
    (distinct : (inorder (plug path
      (branch side node near (branch side child inner outer)))).Nodup) :
    Hangs (links.rotate path side node child (top inner)) (rootAfter root path (some child))
      (some child) path := by
  rw [nodup_plug] at distinct
  obtain ⟨_distinctTree, distinctPath, apart⟩ := distinct
  refine (hangs.setHole distinctPath (some child)).congr ?_
  intro cell member
  have notNode : cell ≠ node := by
    rintro rfl
    exact apart cell (by simp) member
  have notChild : cell ≠ child := by
    rintro rfl
    exact apart cell (by simp) member
  have notInner : some cell ≠ top inner := by
    intro atTop
    exact apart cell (by simp [top_mem atTop.symm]) member
  constructor
  · intro probe
    cases path <;> simp [Links.rotate, Links.setHole, notNode, notChild]
  · simp [Links.rotate, notNode, notChild, notInner]

theorem rotate_represents {side : Side} {node child : α} {near inner outer : BinaryTree α}
    (linked : Represents links (above path)
      (branch side node near (branch side child inner outer)))
    (distinct : (inorder (plug path
      (branch side node near (branch side child inner outer)))).Nodup) :
    Represents (links.rotate path side node child (top inner)) (above path)
      (branch side child (branch side node near inner) outer) := by
  rw [nodup_plug] at distinct
  obtain ⟨distinctTree, _distinctPath, apart⟩ := distinct
  simp only [nodup_branch, mem_inorder_branch, not_or] at distinctTree
  obtain ⟨nodeNear, ⟨nodeChild, nodeInner, nodeOuter⟩, _nearDistinct,
    ⟨childInner, childOuter, innerDistinct, _outerDistinct, innerOuter⟩, nearRest⟩ := distinctTree
  simp only [represents_branch, top_branch] at linked
  obtain ⟨_nodeParent, nodeNearEq, _nodeChildEq, nearTree,
    _childParent, _childInnerEq, childOuterEq, innerTree, outerTree⟩ := linked
  have outside : ∀ cell, cell ∈ inorder (branch side node near (branch side child inner outer)) →
      ∀ links : Links α, ∀ hole probe,
        (links.setHole path hole).child cell probe = links.child cell probe :=
    fun cell member links hole probe => setHole_child links hole (apart cell member) probe
  have childNode : child ≠ node := fun same => nodeChild same.symm
  -- a cell of the three moved subtrees keeps its children
  have keepChild : ∀ cell, cell ∈ inorder near ∨ cell ∈ inorder inner ∨ cell ∈ inorder outer →
      cell ≠ node ∧ cell ≠ child ∧ ∀ probe,
        (links.rotate path side node child (top inner)).child cell probe =
          links.child cell probe := by
    intro cell member
    have notNode : cell ≠ node := by rintro rfl; tauto
    have notChild : cell ≠ child := by
      rintro rfl
      rcases member with inNear | inInner | inOuter
      · exact nearRest cell inNear |>.1 rfl
      · exact childInner inInner
      · exact childOuter inOuter
    refine ⟨notNode, notChild, fun probe => ?_⟩
    simp only [Links.rotate, setParent_child, setChild_child]
    rw [outside cell (by simp; tauto)]
    simp [notNode, notChild]
  simp only [represents_branch, top_branch]
  refine ⟨?_, ?_, ?_, ⟨?_, ?_, ?_, ?_, ?_⟩, ?_⟩
  · have notInner : some child ≠ top inner := fun atTop => childInner (top_mem atTop.symm)
    simp [Links.rotate, childNode]
  · simp [Links.rotate]
  · simp only [Links.rotate, setParent_child, setChild_child]
    rw [outside child (by simp)]
    simpa [childNode] using childOuterEq
  · simp [Links.rotate]
  · simp only [Links.rotate, setParent_child, setChild_child]
    rw [outside node (by simp)]
    simpa [nodeChild] using nodeNearEq
  · simp only [Links.rotate, setParent_child, setChild_child]
    rw [outside node (by simp)]
    simp [nodeChild]
  · apply nearTree.congr
    intro cell member
    obtain ⟨notNode, notChild, keep⟩ := keepChild cell (.inl member)
    refine ⟨keep, ?_⟩
    have notInner : some cell ≠ top inner := fun atTop =>
      (nearRest cell member).2.1 (top_mem atTop.symm)
    simp [Links.rotate, notNode, notChild, notInner]
  · apply innerTree.reparent innerDistinct
    · intro cell member
      exact (keepChild cell (.inr (.inl member))).2.2
    · intro cell member different
      obtain ⟨notNode, notChild, _keep⟩ := keepChild cell (.inr (.inl member))
      simp [Links.rotate, notNode, notChild, different]
    · intro cell atTop
      obtain ⟨notNode, notChild, _keep⟩ := keepChild cell (.inr (.inl (top_mem atTop)))
      simp [Links.rotate, notNode, notChild, atTop]
  · apply outerTree.congr
    intro cell member
    obtain ⟨notNode, notChild, keep⟩ := keepChild cell (.inr (.inr member))
    refine ⟨keep, ?_⟩
    have notInner : some cell ≠ top inner := fun atTop =>
      innerOuter cell (top_mem atTop.symm) member
    simp [Links.rotate, notNode, notChild, notInner]

end Operations
end MCoro.LinkedTree
