/-
Insertion, removal, clearing and the reads of the red-black tree, each stated
at the tree it finds in memory.

Removal is described for a node with at most one child. A node with two
children takes the other branch of doErase, about which this module says
nothing.
-/

import MCoro.Library.StableOrder
import MCoro.Utils.RbTreeRepair

namespace MCoro.RbTree

open LinkedTree

variable {Ptr : Type}

/-! ### Reads -/

theorem doTraverseInorder_eq {tree : RbTree Ptr} {up : Option Ptr} {subtree : BinaryTree Ptr}
    (linked : Represents tree.links up subtree) {fuel : Nat}
    (enough : subtree.numNodes < fuel) :
    doTraverseInorder fuel tree (top subtree) = .ok (inorder subtree) := by
  induction subtree generalizing up fuel with
  | nil =>
      cases fuel with
      | zero => exact absurd enough (Nat.not_lt_zero _)
      | succ fuel => rfl
  | node value left right ihLeft ihRight =>
      cases fuel with
      | zero => exact absurd enough (Nat.not_lt_zero _)
      | succ fuel =>
          obtain ⟨_, leftEq, rightEq, leftTree, rightTree⟩ := linked
          simp only [BinaryTree.numNodes] at enough
          have leftChild : tree.child value .left = top left := leftEq
          have rightChild : tree.child value .right = top right := rightEq
          simp only [top_node, doTraverseInorder]
          rw [leftChild, ihLeft leftTree (by omega), rightChild, ihRight rightTree (by omega)]
          rfl

theorem traverseInorder_eq {tree : RbTree Ptr} {shape : BinaryTree Ptr}
    (linked : Shape tree shape) {fuel : Nat} (enough : shape.numNodes < fuel) :
    traverseInorder fuel tree = .ok (inorder shape) := by
  have rootEq : tree.root = top shape := linked.hangs
  rw [traverseInorder, rootEq]
  exact doTraverseInorder_eq linked.linked enough

/-- Following one side down ends at a node without a child there, and every
step of the way was to that side. -/
theorem descendSide_eq (side : Side) {tree : RbTree Ptr} {up : Option Ptr} {start : Ptr}
    {subtree : BinaryTree Ptr} (linked : Represents tree.links up subtree)
    (atStart : top subtree = some start) {fuel : Nat} (enough : subtree.numNodes < fuel) :
    ∃ last far path, descendSide side fuel tree start = .ok last ∧
      subtree = plug path (branch side last .nil far) ∧ ∀ frame ∈ path, frame.side = side := by
  have general : ∀ (current : BinaryTree Ptr) (currentUp : Option Ptr) (node : Ptr)
      (outer : List (Frame Ptr)) (fuel : Nat), Represents tree.links currentUp current →
      top current = some node → current.numNodes < fuel →
      (∀ frame ∈ outer, frame.side = side) →
      ∃ last far path, descendSide side fuel tree node = .ok last ∧
        plug outer current = plug path (branch side last .nil far) ∧
          ∀ frame ∈ path, frame.side = side := by
    intro current
    induction current with
    | nil =>
        intro _ node _ _ _ impossible
        cases impossible
    | node value left right ihLeft ihRight =>
        intro currentUp node outer fuel currentLinked atNode enough sides
        cases atNode
        cases fuel with
        | zero => exact absurd enough (Nat.not_lt_zero _)
        | succ fuel =>
            obtain ⟨near, far, shapeEq⟩ :=
              exists_branch side (top_node value left right)
            rw [shapeEq, represents_branch] at currentLinked
            obtain ⟨_, nearEq, _, nearTree, _⟩ := currentLinked
            have childEq : tree.child value side = top near := nearEq
            rw [descendSide, childEq]
            cases nearAt : top near with
            | none =>
                refine ⟨value, far, outer, rfl, ?_, sides⟩
                rw [shapeEq, top_eq_none.1 nearAt]
            | some next =>
                have stepped : plug outer (.node value left right) =
                    plug (⟨side, value, far⟩ :: outer) near := by
                  rw [shapeEq, plug, Frame.plug]
                have nextSides : ∀ frame ∈ (⟨side, value, far⟩ :: outer : List (Frame Ptr)),
                    frame.side = side := by
                  intro frame member
                  rcases List.mem_cons.1 member with same | later
                  · rw [same]
                  · exact sides frame later
                rw [stepped]
                simp only [BinaryTree.numNodes] at enough
                cases side with
                | left =>
                    obtain ⟨-, rfl, -⟩ := BinaryTree.node.inj shapeEq
                    exact ihLeft (some value) next _ fuel nearTree nearAt (by omega) nextSides
                | right =>
                    obtain ⟨-, -, rfl⟩ := BinaryTree.node.inj shapeEq
                    exact ihRight (some value) next _ fuel nearTree nearAt (by omega) nextSides
  exact general subtree up start [] fuel linked atStart enough (by simp)

theorem keysBefore_left {path : List (Frame Ptr)} (sides : ∀ frame ∈ path, frame.side = .left) :
    keysBefore path = [] := by
  induction path with
  | nil => rfl
  | cons frame rest ih =>
      rw [keysBefore, ih (fun other member => sides other (List.mem_cons_of_mem _ member)),
        Frame.keysBefore, sides frame List.mem_cons_self]
      rfl

theorem getFront_eq {tree : RbTree Ptr} {shape : BinaryTree Ptr} (linked : Shape tree shape)
    (nonempty : shape ≠ .nil) {fuel : Nat} (enough : shape.numNodes < fuel) :
    ∃ front path right, getFront fuel tree = .ok front ∧
      shape = plug path (.node front .nil right) ∧ keysBefore path = [] := by
  cases shapeTop : top shape with
  | none => exact absurd (top_eq_none.1 shapeTop) nonempty
  | some start =>
      have rootEq : tree.root = some start := linked.hangs.trans shapeTop
      obtain ⟨front, right, path, found, shapeEq, sides⟩ :=
        descendSide_eq .left linked.linked shapeTop enough
      refine ⟨front, path, right, ?_, shapeEq, keysBefore_left sides⟩
      rw [getFront, rootEq]
      exact found

/-! ### Insertion -/

section Insert

variable [DecidableEq Ptr] (compare : Ptr → Ptr → Prop) [DecidableRel compare]
  [IsStrictWeakOrder Ptr compare]

/-- The hole in which `node` belongs: after all nodes that do not compare
greater than it, and on the side on which doInsert links it. -/
structure Slot (path : List (Frame Ptr)) (node : Ptr) : Prop where
  notGreater : ∀ other ∈ keysBefore path, ¬compare node other
  greater : ∀ other ∈ keysAfter path, compare node other
  onSide : ∀ frame rest, path = frame :: rest →
    frame.side = if compare node frame.key then .left else .right

omit [DecidableEq Ptr] in
theorem Slot.left {node value : Ptr} {path : List (Frame Ptr)} (slot : Slot compare path node)
    {right : BinaryTree Ptr} (less : compare node value)
    (aboveValue : ∀ other ∈ inorder right, ¬compare other value) :
    Slot compare (⟨.left, value, right⟩ :: path) node := by
  refine ⟨?_, ?_, ?_⟩
  · simpa [keysBefore, Frame.keysBefore] using slot.notGreater
  · intro other member
    rw [keysAfter, Frame.keysAfter, List.cons_append, List.mem_cons, List.mem_append] at member
    rcases member with same | inRight | outer
    · rw [same]
      exact less
    · rcases StableOrder.compare_or_compare compare less other with before | after
      · exact before
      · exact absurd after (aboveValue other inRight)
    · exact slot.greater other outer
  · intro frame rest same
    cases same
    exact (if_pos less).symm

omit [DecidableEq Ptr] in
theorem Slot.right {node value : Ptr} {path : List (Frame Ptr)} (slot : Slot compare path node)
    {left : BinaryTree Ptr} (notLess : ¬compare node value)
    (leftBelow : ∀ other ∈ inorder left, ¬compare value other) :
    Slot compare (⟨.right, value, left⟩ :: path) node := by
  refine ⟨?_, ?_, ?_⟩
  · intro other member
    rw [keysBefore, Frame.keysBefore, List.mem_append, List.mem_append,
      List.mem_singleton] at member
    rcases member with outer | inLeft | same
    · exact slot.notGreater other outer
    · intro below
      rcases StableOrder.compare_or_compare compare below value with before | after
      · exact notLess before
      · exact leftBelow other inLeft after
    · rw [same]
      exact notLess
  · simpa [keysAfter, Frame.keysAfter] using slot.greater
  · intro frame rest same
    cases same
    exact (if_neg notLess).symm

omit [DecidableEq Ptr] in
theorem descend_slot {tree : RbTree Ptr} {node : Ptr} {path : List (Frame Ptr)}
    {subtree : BinaryTree Ptr} (linked : Represents tree.links (above path) subtree)
    (sorted : (inorder subtree).Pairwise fun left right => ¬compare right left)
    (slot : Slot compare path node) {fuel : Nat} (enough : subtree.numNodes < fuel) :
    ∃ path', descend compare fuel tree node (above path) (top subtree) = .ok (above path') ∧
      plug path' .nil = plug path subtree ∧ Slot compare path' node ∧
      path'.length ≤ path.length + subtree.numNodes := by
  induction subtree generalizing path fuel with
  | nil =>
      cases fuel with
      | zero => exact absurd enough (Nat.not_lt_zero _)
      | succ fuel => exact ⟨path, rfl, rfl, slot, Nat.le_add_right _ _⟩
  | node value left right ihLeft ihRight =>
      cases fuel with
      | zero => exact absurd enough (Nat.not_lt_zero _)
      | succ fuel =>
          obtain ⟨_, leftEq, rightEq, leftTree, rightTree⟩ := linked
          simp only [BinaryTree.numNodes] at enough
          rw [inorder_node, List.pairwise_append, List.pairwise_cons] at sorted
          obtain ⟨leftSorted, ⟨aboveValue, rightSorted⟩, leftBelow⟩ := sorted
          by_cases less : compare node value
          · have leftLinked : Represents tree.links
                (above (⟨.left, value, right⟩ :: path)) left := leftTree
            obtain ⟨path', found, shapeEq, slot', short⟩ :=
              ihLeft leftLinked leftSorted (slot.left compare less aboveValue)
                (by omega : left.numNodes < fuel)
            refine ⟨path', ?_, ?_, slot', ?_⟩
            · have childEq : tree.child value .left = top left := leftEq
              rw [top_node, descend, if_pos less, childEq]
              exact found
            · rw [shapeEq, plug]
              rfl
            · simp only [List.length_cons, BinaryTree.numNodes] at short ⊢
              omega
          · have rightLinked : Represents tree.links
                (above (⟨.right, value, left⟩ :: path)) right := rightTree
            have before : ∀ other ∈ inorder left, ¬compare value other :=
              fun other inLeft => leftBelow other inLeft value List.mem_cons_self
            obtain ⟨path', found, shapeEq, slot', short⟩ :=
              ihRight rightLinked rightSorted (slot.right compare less before)
                (by omega : right.numNodes < fuel)
            refine ⟨path', ?_, ?_, slot', ?_⟩
            · have childEq : tree.child value .right = top right := rightEq
              rw [top_node, descend, if_neg less, childEq]
              exact found
            · rw [shapeEq, plug]
              rfl
            · simp only [List.length_cons, BinaryTree.numNodes] at short ⊢
              omega

/-- The tree after the four writes at the start of doInsert. -/
private def cleared (tree : RbTree Ptr) (node : Ptr) : RbTree Ptr :=
  (((tree.setChild node .left none).setChild node .right none).setTree node true).setColor
    node .red

omit [DecidableRel compare] [IsStrictWeakOrder Ptr compare] in
private theorem cleared_shape {tree : RbTree Ptr} {shape : BinaryTree Ptr} {node : Ptr}
    (linked : Shape tree shape) (fresh : node ∉ inorder shape) :
    Shape (cleared tree node) shape := by
  refine ⟨linked.hangs, linked.linked.congr ?_, linked.distinct⟩
  intro cell member
  have different : cell ≠ node := by
    intro same
    exact fresh (same ▸ member)
  simp [SameCell, cleared, different]

/-- The root of a nonempty tree is black. -/
def BlackTop (tree : RbTree Ptr) : Prop :=
  ∀ root, tree.root = some root → tree.colors root = .black

omit [DecidableEq Ptr] in
theorem BlackTop.of_root {tree : RbTree Ptr} {root : Ptr} (rootEq : tree.root = some root)
    (black : tree.colors root = .black) : BlackTop tree := by
  intro other otherRoot
  rw [rootEq] at otherRoot
  cases otherRoot
  exact black

omit [IsStrictWeakOrder Ptr compare] in
private theorem cleared_hang {tree : RbTree Ptr} {path : List (Frame Ptr)} {node : Ptr}
    (focus : Focus (cleared tree node) path .nil) (slot : Slot compare path node)
    (outside : node ∉ pathKeys path) :
    let placed := (cleared tree node).setParent node (above path)
    ∃ next, ((above path).elim (placed.setRoot (some node)) fun parent =>
          if compare node parent then placed.setChild parent .left (some node)
          else placed.setChild parent .right (some node)) = next ∧
        Focus next path (.node node .nil .nil) ∧ next.colors = (cleared tree node).colors ∧
        next.marks = (cleared tree node).marks := by
  intro placed
  have distinctPath : (pathKeys path).Nodup := ((nodup_plug _ _).1 focus.distinct).2.1
  have hung : ∃ next : RbTree Ptr,
      ((above path).elim (placed.setRoot (some node)) fun parent =>
          if compare node parent then placed.setChild parent .left (some node)
          else placed.setChild parent .right (some node)) = next ∧
        next.links = placed.links.setHole path (some node) ∧
        next.root = rootAfter tree.root path (some node) ∧
        next.colors = placed.colors ∧ next.marks = placed.marks := by
    cases path with
    | nil => exact ⟨_, rfl, by simp [Links.setHole], rfl, rfl, rfl⟩
    | cons frame rest =>
        refine ⟨placed.setChild frame.key frame.side (some node), ?_, ?_, ?_, ?_, ?_⟩
        · rw [slot.onSide frame rest rfl, above_cons]
          by_cases less : compare node frame.key
          · simp only [Option.elim_some, if_pos less]
          · simp only [Option.elim_some, if_neg less]
        all_goals simp [placed, Links.setHole, rootAfter, cleared]
  obtain ⟨next, nextEq, nextLinks, nextRoot, nextColors, nextMarks⟩ := hung
  have noChild : ∀ side, (cleared tree node).links.child node side = none := by
    intro side
    cases side <;> simp [cleared]
  obtain ⟨hangs, leaf⟩ := attach focus.hangs distinctPath outside noChild
  have placedLinks : placed.links = (cleared tree node).links.setParent node (above path) := by
    simp [placed]
  exists next
  constructor
  · exact nextEq
  · refine ⟨⟨?_, ?_, ?_⟩, ?_, ?_⟩
    · rw [nextLinks, nextRoot, placedLinks]
      exact hangs
    · rw [nextLinks, placedLinks]
      exact leaf
    · rw [nodup_plug]
      simp [distinctPath, outside]
    · rw [nextColors]
      simp [placed]
    · rw [nextMarks]
      simp [placed]

omit [DecidableRel compare] [IsStrictWeakOrder Ptr compare] in
private theorem BlackTop.hung {tree next : RbTree Ptr} {path : List (Frame Ptr)} {node : Ptr}
    {subtree : BinaryTree Ptr} (blackTop : BlackTop tree)
    (focus : Focus (cleared tree node) path .nil) (outside : node ∉ pathKeys path)
    (nextFocus : Focus next path subtree) (sameColors : next.colors = (cleared tree node).colors) :
    RootBlack next path := by
  cases path with
  | nil => exact .inl rfl
  | cons frame rest =>
      have last := nextFocus.hangs.root_last
      have isRoot : tree.root = some ((frame :: rest).getLast (List.cons_ne_nil _ _)).key :=
        focus.hangs.root_last
      have different : ((frame :: rest).getLast (List.cons_ne_nil _ _)).key ≠ node := by
        intro same
        exact outside (same ▸ last_mem_pathKeys frame rest)
      refine .inr ⟨_, last, ?_⟩
      rw [sameColors]
      simp only [cleared, colors_setColor, colors_setTree, colors_setChild]
      rw [Function.update_of_ne different]
      exact blackTop _ isRoot

theorem doInsert_hung {tree : RbTree Ptr} {shape : BinaryTree Ptr} {node : Ptr}
    (linked : Shape tree shape)
    (sorted : (inorder shape).Pairwise fun left right => ¬compare right left)
    (blackTop : BlackTop tree) (fresh : node ∉ inorder shape) {fuel : Nat}
    (enough : shape.numNodes < fuel) :
    ∃ next path, doInsert compare fuel tree node = fixViolation fuel next (some node) ∧
      Focus next path (.node node .nil .nil) ∧ plug path .nil = shape ∧
      Slot compare path node ∧ RootBlack next path ∧ path.length < fuel ∧
      next.colors = Function.update tree.colors node .red ∧
      next.marks = Function.update tree.marks node true := by
  have start := cleared_shape linked fresh
  have rootEq : (cleared tree node).root = top shape := start.hangs
  obtain ⟨path, found, shapeEq, slot, short⟩ :=
    descend_slot compare start.linked sorted
      (⟨by simp [keysBefore], by simp [keysAfter], by intro _ _ impossible; cases impossible⟩ :
        Slot compare [] node) enough
  rw [above_nil, ← rootEq] at found
  rw [List.length_nil, Nat.zero_add] at short
  have focus : Focus (cleared tree node) path .nil := by
    rw [focus_iff_shape, shapeEq]
    exact start
  have outside : node ∉ pathKeys path := by
    intro member
    apply fresh
    have whole := (mem_plug path .nil node).2 (.inr member)
    rwa [shapeEq] at whole
  obtain ⟨next, nextEq, nextFocus, nextColors, nextMarks⟩ :=
    cleared_hang compare focus slot outside
  refine ⟨next, path, ?_, nextFocus, shapeEq, slot,
    blackTop.hung focus outside nextFocus nextColors, by omega, ?_, ?_⟩
  · rw [doInsert_eq compare found, ← nextEq]
    rfl
  · rw [nextColors]
    simp [cleared]
  · rw [nextMarks]
    simp [cleared]

theorem doInsert_shape {tree : RbTree Ptr} {shape : BinaryTree Ptr} {node : Ptr}
    (linked : Shape tree shape)
    (sorted : (inorder shape).Pairwise fun left right => ¬compare right left)
    (blackTop : BlackTop tree) (fresh : node ∉ inorder shape) {fuel : Nat}
    (enough : shape.numNodes < fuel) :
    ∃ tree' shape' before after, doInsert compare fuel tree node = .ok tree' ∧
      Shape tree' shape' ∧ inorder shape = before ++ after ∧
      inorder shape' = before ++ node :: after ∧
      (∀ other ∈ before, ¬compare node other) ∧ (∀ other ∈ after, compare node other) ∧
      BlackTop tree' ∧ tree'.marks = Function.update tree.marks node true := by
  obtain ⟨next, path, inserted, focus, shapeEq, slot, rootBlack, short, _, nextMarks⟩ :=
    doInsert_hung compare linked sorted blackTop fresh enough
  obtain ⟨tree', shape', root, repaired, linked', sameKeys, rootEq', rootColor, sameMarks⟩ :=
    fixViolation_focus focus (top_node _ _ _) rootBlack short
  refine ⟨tree', shape', keysBefore path, keysAfter path, inserted.trans repaired, linked', ?_, ?_,
    slot.notGreater, slot.greater, BlackTop.of_root rootEq' rootColor, sameMarks.trans nextMarks⟩
  · rw [← shapeEq, inorder_plug]
    simp
  · rw [sameKeys, inorder_plug]
    simp

end Insert

/-! ### Removal of a node with at most one child -/

variable [DecidableEq Ptr]

private theorem replaceNode_hangs {tree : RbTree Ptr} {path : List (Frame Ptr)} {node : Ptr}
    (hangs : Hangs tree.links tree.root (some node) path)
    (parentEq : (tree.node node).rbParent = above path) (outside : node ∉ pathKeys path)
    (target : Option Ptr) :
    ∃ tree', replaceNode tree node target = .ok tree' ∧
      tree'.links = tree.links.setHole path target ∧
      tree'.root = rootAfter tree.root path target ∧
      tree'.colors = tree.colors ∧ tree'.marks = tree.marks := by
  cases path with
  | nil =>
      have atRoot : some node = tree.root := Eq.symm hangs
      refine ⟨tree.setRoot target, ?_, rfl, rfl, rfl, rfl⟩
      rw [replaceNode, if_pos atRoot]
      rfl
  | cons frame rest =>
      have notRoot : some node ≠ tree.root := by
        rw [hangs.root_last]
        intro same
        cases same
        exact outside (last_mem_pathKeys frame rest)
      obtain ⟨_, holeEq, siblingEq, _, _⟩ := hangs
      have slotEq : tree.child frame.key frame.side = some node := holeEq
      refine ⟨tree.setChild frame.key frame.side target, ?_, by simp [Links.setHole],
        by simp [rootAfter], by simp, by simp⟩
      rw [replaceNode, if_neg notRoot, parentEq, above_cons, deref_some]
      change (if tree.child frame.key .left = some node then
        pure (tree.setChild frame.key .left target) else
        pure (tree.setChild frame.key .right target)) = Except.ok _
      cases side : frame.side with
      | left =>
          rw [side] at slotEq
          rw [if_pos slotEq]
          rfl
      | right =>
          rw [side] at siblingEq
          have otherEq : tree.child frame.key .left = top frame.sibling := siblingEq
          have notLeft : tree.child frame.key .left ≠ some node := by
            rw [otherEq]
            intro atSibling
            exact outside (by simp [pathKeys, top_mem atSibling])
          rw [if_neg notLeft]
          rfl

/-- Without two children doErase reaches its common tail with the node itself
and its only child. -/
private theorem doErase_tail {tree : RbTree Ptr} {current : Ptr} {left right : Option Ptr}
    (leftEq : tree.child current .left = left) (rightEq : tree.child current .right = right)
    (oneChild : left = none ∨ right = none) (fuel : Nat) :
    doErase fuel tree current =
      (replaceNode ((tree.setTree current false).adopt (left.or right)
        ((tree.setTree current false).node current).rbParent) current (left.or right)).bind
          fun tree' =>
            if tree.colors current = .black ∧ tree'.root ≠ none then
              fixViolation fuel tree' ((left.or right).or (tree'.node current).rbParent)
            else
              .ok tree' := by
  have colorEq : ((tree.setTree current false).node current).rbColor = tree.colors current :=
    congrFun (colors_setTree tree current false) current
  have childEq (side : Side) : (tree.setTree current false).child current side =
      tree.child current side :=
    congrFun (congrFun (congrArg Links.child (links_setTree tree current false)) current) side
  unfold doErase
  dsimp only
  rw [childEq, childEq, leftEq, rightEq, ← colorEq]
  rcases oneChild with noLeft | noRight
  · subst noLeft
    rfl
  · subst noRight
    cases left <;> rfl

omit [DecidableEq Ptr] in
private theorem only_subtree {links : Links Ptr} {current : Ptr} {left right : BinaryTree Ptr}
    (leftTree : Represents links (some current) left)
    (rightTree : Represents links (some current) right)
    (distinct : (inorder (.node current left right)).Nodup)
    (oneChild : left = .nil ∨ right = .nil) :
    ∃ below : BinaryTree Ptr, (top left).or (top right) = top below ∧
      (left = .nil ∧ below = right ∨ right = .nil ∧ below = left) ∧
      Represents links (some current) below ∧ (inorder below).Nodup ∧
      current ∉ inorder below ∧
      ∀ cell ∈ inorder below, cell ∈ inorder (.node current left right) := by
  rw [inorder_node, List.nodup_append, List.nodup_cons] at distinct
  obtain ⟨leftDistinct, ⟨notRight, rightDistinct⟩, leftApart⟩ := distinct
  have notLeft : current ∉ inorder left := fun member =>
    leftApart current member current List.mem_cons_self rfl
  rcases oneChild with leftNil | rightNil
  · subst leftNil
    exact ⟨right, rfl, .inl ⟨rfl, rfl⟩, rightTree, rightDistinct, notRight, by simp +contextual⟩
  · subst rightNil
    exact ⟨left, by simp, .inr ⟨rfl, rfl⟩, leftTree, leftDistinct, notLeft, by simp +contextual⟩

/-- The tree after the node has been replaced by the subtree below it, and what is
left for doErase to do. -/
theorem doErase_spliced {tree : RbTree Ptr} {path : List (Frame Ptr)} {current : Ptr}
    {left right : BinaryTree Ptr} (focus : Focus tree path (.node current left right))
    (oneChild : left = .nil ∨ right = .nil) (fuel : Nat) :
    ∃ spliced below, Focus spliced path below ∧
      (left = .nil ∧ below = right ∨ right = .nil ∧ below = left) ∧
      spliced.colors = tree.colors ∧
      spliced.marks = Function.update tree.marks current false ∧
      doErase fuel tree current =
        if tree.colors current = .black ∧ spliced.root ≠ none then
          fixViolation fuel spliced ((top below).or (above path))
        else .ok spliced := by
  obtain ⟨parentEq, leftEq, rightEq, leftTree, rightTree⟩ := focus.linked
  obtain ⟨distinctTree, distinctPath, apart⟩ := (nodup_plug _ _).1 focus.distinct
  obtain ⟨below, belowTop, onlyBelow, belowTree, belowDistinct, notBelow, belowIn⟩ :=
    only_subtree leftTree rightTree distinctTree oneChild
  have belowApart : ∀ cell ∈ inorder below, cell ∉ pathKeys path := fun cell member =>
    apart cell (belowIn cell member)
  have outside : current ∉ pathKeys path := apart current (by simp)
  have startParent : ((tree.setTree current false).node current).rbParent = above path := by
    change (tree.setTree current false).links.parent current = above path
    rw [links_setTree]
    exact parentEq
  let adopted := (tree.setTree current false).adopt (top below) (above path)
  have adoptedParent : (adopted.node current).rbParent = above path := by
    change adopted.links.parent current = above path
    have notAdopted : some current ≠ top below := fun atTop => notBelow (top_mem atTop.symm)
    simp [adopted, notAdopted, parentEq]
  have adoptedHangs : Hangs adopted.links adopted.root (some current) path := by
    have hangs := focus.hangs
    rw [top_node] at hangs
    simp only [adopted, links_adopt, links_setTree, root_adopt, root_setTree]
    apply hangs.congr
    intro cell member
    have notAdopted : some cell ≠ top below := fun atTop =>
      belowApart cell (top_mem atTop.symm) member
    exact ⟨fun side => by simp, by simp [notAdopted]⟩
  obtain ⟨spliced, replaced, splicedLinks, splicedRoot, splicedColors, splicedMarks⟩ :=
    replaceNode_hangs adoptedHangs adoptedParent outside (top below)
  obtain ⟨hangs, linked⟩ := splice focus.hangs belowTree distinctPath belowDistinct belowApart
  have splicedParent : (spliced.node current).rbParent = above path := by
    change spliced.links.parent current = above path
    rw [splicedLinks, setHole_parent]
    exact adoptedParent
  refine ⟨spliced, below, ⟨?_, ?_, (nodup_plug _ _).2 ⟨belowDistinct, distinctPath, belowApart⟩⟩,
    onlyBelow, ?_, ?_, ?_⟩
  · rw [splicedLinks, splicedRoot]
    simpa [adopted] using hangs
  · rw [splicedLinks]
    simpa [adopted] using linked
  · rw [splicedColors]
    simp [adopted]
  · rw [splicedMarks]
    simp [adopted]
  · have noTop : top left = none ∨ top right = none := by
      simpa [top_eq_none] using oneChild
    have leftChild : tree.child current .left = top left := leftEq
    have rightChild : tree.child current .right = top right := rightEq
    have tail := doErase_tail leftChild rightChild noTop fuel
    rw [belowTop, startParent, replaced] at tail
    refine tail.trans ?_
    rw [← splicedParent]
    rfl

private theorem fixViolation_spliced {spliced : RbTree Ptr} {path : List (Frame Ptr)}
    {below : BinaryTree Ptr} (focus : Focus spliced path below) (rootBlack : RootBlack spliced path)
    (nonempty : spliced.root ≠ none) {fuel : Nat} (enough : path.length < fuel) :
    ∃ tree' shape', fixViolation fuel spliced ((top below).or (above path)) = .ok tree' ∧
      Shape tree' shape' ∧ inorder shape' = inorder (plug path below) ∧ BlackTop tree' ∧
      tree'.marks = spliced.marks := by
  have repair {start : List (Frame Ptr)} {subtree : BinaryTree Ptr} {node : Ptr}
      (startFocus : Focus spliced start subtree) (atNode : top subtree = some node)
      (startBlack : RootBlack spliced start) (short : start.length ≤ path.length)
      (same : plug start subtree = plug path below)
      (startEq : (top below).or (above path) = some node) :
      ∃ tree' shape', fixViolation fuel spliced ((top below).or (above path)) = .ok tree' ∧
        Shape tree' shape' ∧ inorder shape' = inorder (plug path below) ∧ BlackTop tree' ∧
        tree'.marks = spliced.marks := by
    obtain ⟨tree', shape', root, repaired, linked, keys, rootEq, rootColor, marks⟩ :=
      fixViolation_focus startFocus atNode startBlack (Nat.lt_of_le_of_lt short enough)
    rw [startEq]
    rw [same] at keys
    exact ⟨tree', shape', repaired, linked, keys, BlackTop.of_root rootEq rootColor, marks⟩
  cases belowAt : top below with
  | some node =>
      rw [← belowAt]
      exact repair focus belowAt rootBlack (Nat.le_refl _) rfl (by rw [belowAt]; rfl)
  | none =>
      rw [← belowAt]
      cases path with
      | nil => exact absurd (focus.hangs.trans belowAt) nonempty
      | cons frame rest =>
          apply repair (Focus.up.1 focus) (top_branch _ _ _ _) _ (Nat.le_succ _) rfl
            (by rw [belowAt]; rfl)
          rcases rootBlack with noPath | black
          · cases noPath
          · exact .inr black

/-- Removing a node that has at most one child: the child takes its place, the
other nodes keep their order and the root stays black. -/
theorem doErase_shape {tree : RbTree Ptr} {path : List (Frame Ptr)} {current : Ptr}
    {left right : BinaryTree Ptr} (focus : Focus tree path (.node current left right))
    (oneChild : left = .nil ∨ right = .nil) (blackTop : BlackTop tree) {fuel : Nat}
    (enough : path.length < fuel) :
    ∃ tree' shape', doErase fuel tree current = .ok tree' ∧ Shape tree' shape' ∧
      inorder shape' = keysBefore path ++ (inorder left ++ inorder right) ++ keysAfter path ∧
      BlackTop tree' ∧ tree'.marks = Function.update tree.marks current false := by
  obtain ⟨spliced, below, splicedFocus, onlyBelow, sameColors, sameMarks, reached⟩ :=
    doErase_spliced focus oneChild fuel
  have belowKeys : inorder below = inorder left ++ inorder right := by
    rcases onlyBelow with ⟨leftNil, same⟩ | ⟨rightNil, same⟩
    · rw [same, leftNil]
      rfl
    · rw [same, rightNil, inorder_nil, List.append_nil]
  have keysEq : inorder (plug path below) =
      keysBefore path ++ (inorder left ++ inorder right) ++ keysAfter path := by
    rw [inorder_plug, belowKeys]
  have rootBlack : RootBlack spliced path := by
    cases path with
    | nil => exact .inl rfl
    | cons frame rest =>
        refine .inr ⟨_, splicedFocus.hangs.root_last, ?_⟩
        rw [sameColors]
        exact blackTop _ focus.hangs.root_last
  rw [reached, ← keysEq, ← sameMarks]
  by_cases fixes : tree.colors current = .black ∧ spliced.root ≠ none
  · rw [if_pos fixes]
    exact fixViolation_spliced splicedFocus rootBlack fixes.2 enough
  · rw [if_neg fixes]
    have stillBlack : BlackTop spliced := by
      rcases rootBlack with noPath | ⟨root, rootEq, black⟩
      · subst noPath
        have isBlack : tree.colors current = .black := blackTop current focus.hangs
        intro root rootEq
        exact absurd ⟨isBlack, by rw [rootEq]; exact Option.some_ne_none root⟩ fixes
      · exact BlackTop.of_root rootEq black
    exact ⟨spliced, plug path below, rfl, focus_iff_shape.1 splicedFocus, rfl, stillBlack, rfl⟩

/-! ### Clearing -/

private theorem doClear_marks {tree : RbTree Ptr} {up : Option Ptr} {subtree : BinaryTree Ptr}
    (linked : Represents tree.links up subtree) {fuel : Nat}
    (enough : subtree.numNodes < fuel) :
    ∃ tree', doClear fuel tree (top subtree) = .ok tree' ∧ tree'.links = tree.links ∧
      ∀ cell, tree'.marks cell = true ↔ tree.marks cell = true ∧ cell ∉ inorder subtree := by
  induction subtree generalizing tree up fuel with
  | nil =>
      cases fuel with
      | zero => exact absurd enough (Nat.not_lt_zero _)
      | succ fuel => exact ⟨tree, rfl, rfl, by simp⟩
  | node value left right ihLeft ihRight =>
      cases fuel with
      | zero => exact absurd enough (Nat.not_lt_zero _)
      | succ fuel =>
          obtain ⟨_, leftEq, rightEq, leftTree, rightTree⟩ := linked
          simp only [BinaryTree.numNodes] at enough
          obtain ⟨first, firstDone, firstLinks, firstMarks⟩ :=
            ihLeft leftTree (by omega : left.numNodes < fuel)
          have middleLinks : (first.setTree value false).links = tree.links := by
            rw [links_setTree, firstLinks]
          have rightTree' : Represents (first.setTree value false).links (some value) right := by
            rw [middleLinks]
            exact rightTree
          obtain ⟨second, secondDone, secondLinks, secondMarks⟩ :=
            ihRight rightTree' (by omega : right.numNodes < fuel)
          have leftChild : tree.child value .left = top left := leftEq
          have rightChild : (first.setTree value false).child value .right = top right := by
            change (first.setTree value false).links.child value .right = top right
            rw [middleLinks]
            exact rightEq
          refine ⟨second, ?_, secondLinks.trans middleLinks, ?_⟩
          · rw [top_node, doClear]
            dsimp only
            rw [leftChild, firstDone]
            change doClear fuel (first.setTree value false)
              ((first.setTree value false).child value .right) = _
            rw [rightChild, secondDone]
          · intro cell
            rw [secondMarks, marks_setTree, inorder_node]
            by_cases same : cell = value
            · subst same
              simp
            · rw [Function.update_of_ne same, firstMarks]
              simp only [List.mem_append, List.mem_cons]
              tauto

theorem clear_shape {tree : RbTree Ptr} {shape : BinaryTree Ptr} (linked : Shape tree shape)
    {fuel : Nat} (enough : shape.numNodes < fuel) :
    ∃ tree', clear fuel tree = .ok tree' ∧ Shape tree' .nil ∧
      ∀ cell, tree'.marks cell = true ↔ tree.marks cell = true ∧ cell ∉ inorder shape := by
  obtain ⟨cleared, done, _, marksEq⟩ := doClear_marks linked.linked enough
  refine ⟨cleared.setRoot none, ?_, ⟨rfl, trivial, List.nodup_nil⟩, marksEq⟩
  have rootEq : tree.root = top shape := linked.hangs
  rw [clear, rootEq, done]
  rfl

end MCoro.RbTree
