/-
The colour repair loop of the red-black tree.

One iteration is described exactly by `Repaired`; the loop keeps the order of
the nodes, their links and a black root, and ends because each iteration moves
two levels up. None of this needs the colour rules to hold.
-/

import MCoro.Library.Faults
import MCoro.Utils.RbTreeLinks

namespace MCoro.RbTree

open LinkedTree

variable {Ptr : Type} [DecidableEq Ptr]

/-- What one iteration does to the subtree under the grandparent: `lower` is
the frame of the parent, `upper` that of the grandparent. -/
inductive Repaired (tree : RbTree Ptr) (rest : List (Frame Ptr)) (lower upper : Frame Ptr)
    (subtree : BinaryTree Ptr) (tree' : RbTree Ptr) (next : Ptr) : Prop where
  | recolored (uncle : Ptr) (atUncle : top upper.sibling = some uncle)
      (uncleRed : tree.colors uncle = .red)
      (focus : Focus tree' rest (upper.plug (lower.plug subtree)))
      (atNext : next = upper.key)
      (recolor : tree'.colors = Function.update (Function.update
        (Function.update tree.colors upper.key .red) lower.key .black) uncle .black)
  | outer (uncleBlack : ∀ uncle, top upper.sibling = some uncle → tree.colors uncle = .black)
      (sameSide : lower.side = upper.side)
      (focus : Focus tree' rest (branch upper.side.other lower.key
        (branch upper.side.other upper.key upper.sibling lower.sibling) subtree))
      (atNext : next = lower.key)
      (recolor : tree'.colors = Function.update (Function.update tree.colors
        lower.key (tree.colors upper.key)) upper.key (tree.colors lower.key))
  | inner (uncleBlack : ∀ uncle, top upper.sibling = some uncle → tree.colors uncle = .black)
      (otherSide : lower.side = upper.side.other) (near far : BinaryTree Ptr)
      (atNode : subtree = branch upper.side next near far)
      (focus : Focus tree' rest (branch upper.side.other next
        (branch upper.side.other upper.key upper.sibling far)
        (branch upper.side lower.key lower.sibling near)))
      (recolor : tree'.colors = Function.update (Function.update tree.colors
        next (tree.colors upper.key)) upper.key (tree.colors next))

private theorem swapColors_colors (tree : RbTree Ptr) (first second : Ptr) :
    (tree.swapColors first second).colors =
      Function.update (Function.update tree.colors first (tree.colors second))
        second (tree.colors first) := by
  unfold swapColors
  rw [colors_setColor, colors_setColor]
  rfl

private theorem swapColors_focus {tree : RbTree Ptr} {path : List (Frame Ptr)}
    {subtree : BinaryTree Ptr} (focus : Focus tree path subtree) (first second : Ptr) :
    Focus (tree.swapColors first second) path subtree := by
  apply focus.congr
  · unfold swapColors
    rw [links_setColor, links_setColor]
  · rfl

private theorem swapColors_marks (tree : RbTree Ptr) (first second : Ptr) :
    (tree.swapColors first second).marks = tree.marks := by
  unfold swapColors
  rw [marks_setColor, marks_setColor]

section Step

variable {tree : RbTree Ptr} {rest : List (Frame Ptr)} {lower upper : Frame Ptr}
  {subtree : BinaryTree Ptr} {node : Ptr}

private theorem fixByRotation_outer (focus : Focus tree (lower :: upper :: rest) subtree)
    (atNode : top subtree = some node) (sameSide : lower.side = upper.side) :
    ∃ tree', fixByRotation upper.side tree node lower.key upper.key = .ok (tree', lower.key) ∧
      Focus tree' rest (branch upper.side.other lower.key
        (branch upper.side.other upper.key upper.sibling lower.sibling) subtree) ∧
      tree'.colors = Function.update (Function.update tree.colors
        lower.key (tree.colors upper.key)) upper.key (tree.colors lower.key) ∧
      tree'.marks = tree.marks := by
  obtain ⟨_, notInner⟩ := focus.slot atNode
  have turned : Focus tree rest (branch upper.side.other upper.key upper.sibling
      (branch upper.side.other lower.key lower.sibling subtree)) := by
    have raised := Focus.up.1 (Focus.up.1 focus)
    rw [branch_other, branch_other, ← sameSide]
    rw [Frame.plug, Frame.plug, ← sameSide] at raised
    exact raised
  obtain ⟨tree', rotated, focus', sameColors, sameMarks⟩ := rotate_focus turned
  refine ⟨tree'.swapColors lower.key upper.key, ?_, swapColors_focus focus' _ _, ?_, ?_⟩
  · unfold fixByRotation
    rw [← sameSide, if_neg notInner]
    change (rotate lower.side.other tree upper.key).bind _ = _
    rw [sameSide, rotated]
    rfl
  · rw [swapColors_colors, sameColors]
  · rw [swapColors_marks, sameMarks]

private theorem fixByRotation_inner (focus : Focus tree (lower :: upper :: rest) subtree)
    {near far : BinaryTree Ptr} (atNode : subtree = branch upper.side node near far)
    (otherSide : lower.side = upper.side.other) :
    ∃ tree', fixByRotation upper.side tree node lower.key upper.key = .ok (tree', node) ∧
      Focus tree' rest (branch upper.side.other node
        (branch upper.side.other upper.key upper.sibling far)
        (branch upper.side lower.key lower.sibling near)) ∧
      tree'.colors = Function.update (Function.update tree.colors
        node (tree.colors upper.key)) upper.key (tree.colors node) ∧
      tree'.marks = tree.marks := by
  have topNode : top subtree = some node := by rw [atNode, top_branch]
  obtain ⟨isInner, _⟩ := focus.slot topNode
  have lowered : Focus tree (upper :: rest) (branch upper.side lower.key lower.sibling
      (branch upper.side node near far)) := by
    have raised := Focus.up.1 focus
    rw [Frame.plug, otherSide, branch_other, atNode] at raised
    exact raised
  obtain ⟨middle, firstRotation, middleFocus, middleColors, middleMarks⟩ := rotate_focus lowered
  have newParent : (middle.node lower.key).rbParent = some node := by
    have linked := middleFocus.linked
    simp only [represents_branch] at linked
    exact linked.2.2.2.1.1
  have turned : Focus middle rest (branch upper.side.other upper.key upper.sibling
      (branch upper.side.other node far (branch upper.side lower.key lower.sibling near))) := by
    have raised := Focus.up.1 middleFocus
    rw [branch_other, branch_other]
    exact raised
  obtain ⟨tree', secondRotation, focus', sameColors, sameMarks⟩ := rotate_focus turned
  refine ⟨tree'.swapColors node upper.key, ?_, swapColors_focus focus' _ _, ?_, ?_⟩
  · unfold fixByRotation
    rw [← otherSide, if_pos isInner, firstRotation]
    change (do
      let newParent ← deref (middle.node lower.key).rbParent
      let turnedTree ← rotate lower.side middle upper.key
      pure (turnedTree.swapColors newParent upper.key, newParent)) = _
    rw [newParent, otherSide, deref_some]
    change (rotate upper.side.other middle upper.key).bind _ = _
    rw [secondRotation]
    rfl
  · rw [swapColors_colors, sameColors, middleColors]
  · rw [swapColors_marks, sameMarks, middleMarks]

/-- The step lemma of the loop: at a node with a parent and a grandparent one
iteration succeeds and does one of three things. -/
theorem fixStep_repaired (focus : Focus tree (lower :: upper :: rest) subtree)
    (atNode : top subtree = some node) :
    ∃ tree' next, fixStep upper.side tree node lower.key upper.key = .ok (tree', next) ∧
      Repaired tree rest lower upper subtree tree' next ∧ tree'.marks = tree.marks := by
  have uncleEq : tree.child upper.key upper.side.other = top upper.sibling :=
    focus.hangs.2.2.2.2.2.2.1
  have byRotation (uncleBlack : ∀ uncle, top upper.sibling = some uncle →
      tree.colors uncle = .black) :
      ∃ tree' next, fixByRotation upper.side tree node lower.key upper.key = .ok (tree', next) ∧
        Repaired tree rest lower upper subtree tree' next ∧ tree'.marks = tree.marks := by
    rcases Side.eq_or_other upper.side lower.side with sameSide | otherSide
    · obtain ⟨tree', done, focus', recolor, sameMarks⟩ :=
        fixByRotation_outer focus atNode sameSide
      exact ⟨tree', lower.key, done, .outer uncleBlack sameSide focus' rfl recolor, sameMarks⟩
    · obtain ⟨near, far, shape⟩ := exists_branch upper.side atNode
      obtain ⟨tree', done, focus', recolor, sameMarks⟩ :=
        fixByRotation_inner focus shape otherSide
      exact ⟨tree', node, done,
        .inner uncleBlack otherSide near far shape focus' recolor, sameMarks⟩
  unfold fixStep
  rw [uncleEq]
  cases atUncle : top upper.sibling with
  | none => exact byRotation (by simp [atUncle])
  | some uncle =>
      by_cases uncleRed : tree.colors uncle = .red
      · have red : (tree.node uncle).rbColor = .red := uncleRed
        refine ⟨_, upper.key, if_pos red, .recolored uncle atUncle uncleRed ?_ rfl ?_, ?_⟩
        · exact (Focus.up.1 (Focus.up.1 focus)).congr (by simp) (by simp)
        · simp
        · simp
      · have notRed : ¬(tree.node uncle).rbColor = .red := uncleRed
        dsimp only
        rw [if_neg notRed]
        apply byRotation
        intro other atOther
        rw [atUncle] at atOther
        cases atOther
        cases shade : tree.colors uncle with
        | red => exact absurd shade uncleRed
        | black => rfl

/-- Whatever an iteration does, it keeps the nodes below the grandparent and
their order, and the colours of all others. -/
theorem Repaired.keeps {tree' : RbTree Ptr} {next : Ptr}
    (repaired : Repaired tree rest lower upper subtree tree' next) :
    ∃ subtree', Focus tree' rest subtree' ∧ top subtree' = some next ∧
      inorder subtree' = inorder (upper.plug (lower.plug subtree)) ∧
      ∀ cell, cell ∉ inorder (upper.plug (lower.plug subtree)) →
        tree'.colors cell = tree.colors cell := by
  have inUpper : upper.key ∈ inorder (upper.plug (lower.plug subtree)) := by simp [Frame.plug]
  have inLower : lower.key ∈ inorder (upper.plug (lower.plug subtree)) := by simp [Frame.plug]
  have unlike {member cell : Ptr} (inside : member ∈ inorder (upper.plug (lower.plug subtree)))
      (outside : cell ∉ inorder (upper.plug (lower.plug subtree))) : cell ≠ member := by
    intro same
    exact outside (same ▸ inside)
  cases repaired with
  | recolored uncle atUncle uncleRed focus atNext recolor =>
      refine ⟨_, focus, by simp [Frame.plug, atNext], rfl, ?_⟩
      intro cell outside
      have inUncle : uncle ∈ inorder (upper.plug (lower.plug subtree)) := by
        simp [Frame.plug, top_mem atUncle]
      rw [recolor]
      simp [unlike inUpper outside, unlike inLower outside, unlike inUncle outside]
  | outer uncleBlack sameSide focus atNext recolor =>
      refine ⟨_, focus, by simp [atNext], ?_, ?_⟩
      · rw [inorder_rotate, branch_other, branch_other, Frame.plug, Frame.plug, sameSide]
      · intro cell outside
        rw [recolor]
        simp [unlike inUpper outside, unlike inLower outside]
  | inner uncleBlack otherSide near far atBranch focus recolor =>
      refine ⟨_, focus, by simp, ?_, ?_⟩
      · rw [inorder_rotate, branch_other, branch_other, Frame.plug, Frame.plug, otherSide,
          branch_other, atBranch]
        cases side : upper.side <;> simp [branch]
      · intro cell outside
        have inNext : next ∈ inorder (upper.plug (lower.plug subtree)) := by
          simp [Frame.plug, atBranch]
        rw [recolor]
        simp [unlike inUpper outside, unlike inNext outside]

end Step

/-! ### The loop -/

/-- The root, when the node in focus lies below it, is black. -/
def RootBlack (tree : RbTree Ptr) (path : List (Frame Ptr)) : Prop :=
  path = [] ∨ ∃ root, tree.root = some root ∧ tree.colors root = .black

def AtRest (tree : RbTree Ptr) (path : List (Frame Ptr)) (node : Ptr) : Prop :=
  path = [] ∨ tree.colors node = .black ∨
    ∃ frame rest, path = frame :: rest ∧ tree.colors frame.key = .black

omit [DecidableEq Ptr] in
theorem Focus.eq_nil_of_root {tree : RbTree Ptr} {path : List (Frame Ptr)}
    {subtree : BinaryTree Ptr} {node : Ptr} (focus : Focus tree path subtree)
    (atNode : top subtree = some node) (atRoot : some node = tree.root) : path = [] := by
  cases path with
  | nil => rfl
  | cons frame rest =>
      have apart := ((nodup_plug _ _).1 focus.distinct).2.2 node (top_mem atNode)
      rw [focus.hangs.root_last] at atRoot
      cases atRoot
      exact absurd (last_mem_pathKeys frame rest) apart

theorem fixViolationLoop_rest {tree : RbTree Ptr} {path : List (Frame Ptr)}
    {subtree : BinaryTree Ptr} {node : Ptr} (focus : Focus tree path subtree)
    (atNode : top subtree = some node) (atRest : AtRest tree path node) (fuel : Nat) :
    fixViolationLoop (fuel + 1) tree (some node) = .ok tree := by
  by_cases atRoot : some node = tree.root
  · rw [fixViolationLoop, if_pos atRoot]
    rfl
  · rw [fixViolationLoop, if_neg atRoot, deref_some]
    by_cases nodeBlack : tree.colors node = .black
    · exact if_pos nodeBlack
    · refine (if_neg nodeBlack).trans ?_
      rcases atRest with noPath | black | ⟨frame, rest, isPath, parentBlack⟩
      · subst noPath
        have rootEq : tree.root = top subtree := focus.hangs
        exact absurd (rootEq.trans atNode).symm atRoot
      · exact absurd black nodeBlack
      · subst isPath
        have nodeParent : (tree.node node).rbParent = some frame.key :=
          focus.linked.parent_top atNode
        rw [nodeParent, deref_some]
        exact if_pos parentBlack

omit [DecidableEq Ptr] in
theorem RootBlack.two_frames {tree : RbTree Ptr} {path : List (Frame Ptr)}
    {subtree : BinaryTree Ptr} {node : Ptr} (rootBlack : RootBlack tree path)
    (focus : Focus tree path subtree) (moving : ¬AtRest tree path node) :
    ∃ lower upper rest, path = lower :: upper :: rest := by
  cases path with
  | nil => exact absurd (.inl rfl) moving
  | cons lower rest =>
      cases rest with
      | nil =>
          rcases rootBlack with noPath | ⟨root, rootEq, black⟩
          · cases noPath
          · have isRoot : tree.root = some lower.key := focus.hangs.2.2.2.2
            rw [rootEq] at isRoot
            cases isRoot
            exact absurd (.inr (.inr ⟨lower, [], rfl, black⟩)) moving
      | cons upper rest => exact ⟨lower, upper, rest, rfl⟩

section Climb

variable {tree stepped : RbTree Ptr} {lower upper : Frame Ptr} {rest : List (Frame Ptr)}
  {subtree : BinaryTree Ptr} {node next : Ptr}

theorem fixViolationLoop_climb (focus : Focus tree (lower :: upper :: rest) subtree)
    (atNode : top subtree = some node) (moving : ¬AtRest tree (lower :: upper :: rest) node)
    (step : fixStep upper.side tree node lower.key upper.key = .ok (stepped, next))
    (fuel : Nat) :
    fixViolationLoop (fuel + 1) tree (some node) = fixViolationLoop fuel stepped (some next) := by
  have atRoot : some node ≠ tree.root := by
    intro isRoot
    cases focus.eq_nil_of_root atNode isRoot
  have nodeBlack : ¬tree.colors node = .black := fun black => moving (.inr (.inl black))
  have parentBlack : ¬tree.colors lower.key = .black := fun black =>
    moving (.inr (.inr ⟨lower, upper :: rest, rfl, black⟩))
  have nodeParent : (tree.node node).rbParent = some lower.key := focus.linked.parent_top atNode
  have parentParent : (tree.node lower.key).rbParent = some upper.key := focus.hangs.1
  have sideEq := (Focus.up.1 focus).side_eq (top_branch _ _ _ _)
  rw [fixViolationLoop, if_neg atRoot, deref_some]
  refine (if_neg nodeBlack).trans ?_
  rw [nodeParent, deref_some]
  refine (if_neg parentBlack).trans ?_
  rw [parentParent, deref_some]
  change (fixStep (if tree.child upper.key .left = some lower.key then .left else .right) tree
    node lower.key upper.key).bind _ = _
  rw [sideEq, step]
  rfl

omit [DecidableEq Ptr] in
theorem RootBlack.climb {raised : BinaryTree Ptr}
    (rootBlack : RootBlack tree (lower :: upper :: rest))
    (focus : Focus tree (lower :: upper :: rest) subtree) (raisedFocus : Focus stepped rest raised)
    (sameColors : ∀ cell, cell ∉ inorder (upper.plug (lower.plug subtree)) →
      stepped.colors cell = tree.colors cell) : RootBlack stepped rest := by
  cases rest with
  | nil => exact .inl rfl
  | cons frame outer =>
      rcases rootBlack with noPath | ⟨root, rootEq, black⟩
      · cases noPath
      · have before := Focus.up.1 (Focus.up.1 focus)
        have isLast := before.hangs.root_last
        have outside := ((nodup_plug _ _).1 before.distinct).2.2 root
        rw [rootEq] at isLast
        refine .inr ⟨root, isLast ▸ raisedFocus.hangs.root_last, ?_⟩
        rw [sameColors root ?_]
        · exact black
        · intro inside
          apply outside inside
          rw [Option.some.inj isLast]
          exact last_mem_pathKeys frame outer

end Climb

theorem red_of_not_black {color : RbColor} (notBlack : color ≠ .black) : color = .red := by
  cases color with
  | red => rfl
  | black => exact absurd rfl notBlack

/-- The rule of the loop: what every iteration on a red node with a red parent
preserves holds where the loop stops, and it stops within `fuel` levels. -/
theorem fixViolationLoop_rule
    (Inv : RbTree Ptr → List (Frame Ptr) → BinaryTree Ptr → Prop)
    (preserved : ∀ {tree tree' lower upper rest subtree node next},
      Inv tree (lower :: upper :: rest) subtree →
      Focus tree (lower :: upper :: rest) subtree → top subtree = some node →
      tree.colors node = .red → tree.colors lower.key = .red →
      Repaired tree rest lower upper subtree tree' next →
      ∀ subtree', Focus tree' rest subtree' → top subtree' = some next →
        inorder subtree' = inorder (upper.plug (lower.plug subtree)) → Inv tree' rest subtree')
    (fuel : Nat) {tree : RbTree Ptr} {path : List (Frame Ptr)} {subtree : BinaryTree Ptr}
    {node : Ptr} (focus : Focus tree path subtree) (atNode : top subtree = some node)
    (rootBlack : RootBlack tree path) (enough : path.length < fuel)
    (holds : Inv tree path subtree) :
    ∃ tree' path' subtree' node', fixViolationLoop fuel tree (some node) = .ok tree' ∧
      Focus tree' path' subtree' ∧ top subtree' = some node' ∧ Inv tree' path' subtree' ∧
      AtRest tree' path' node' ∧ tree'.marks = tree.marks := by
  induction fuel generalizing tree path subtree node with
  | zero => exact absurd enough (Nat.not_lt_zero _)
  | succ fuel ih =>
      by_cases atRest : AtRest tree path node
      · have stopped := fixViolationLoop_rest focus atNode atRest fuel
        exact ⟨tree, path, subtree, node, stopped, focus, atNode, holds, atRest, rfl⟩
      · obtain ⟨lower, upper, rest, isPath⟩ := rootBlack.two_frames focus atRest
        subst isPath
        have nodeRed := red_of_not_black fun black => atRest (.inr (.inl black))
        have parentRed := red_of_not_black fun black =>
          atRest (.inr (.inr ⟨lower, upper :: rest, rfl, black⟩))
        obtain ⟨stepped, next, step, repaired, stepMarks⟩ := fixStep_repaired focus atNode
        obtain ⟨raised, raisedFocus, atNext, sameKeys, sameColors⟩ := repaired.keeps
        have nextBlack := rootBlack.climb focus raisedFocus sameColors
        have nextHolds := preserved holds focus atNode nodeRed parentRed repaired raised
          raisedFocus atNext sameKeys
        have shorter : rest.length < fuel := by
          rw [List.length_cons, List.length_cons] at enough
          omega
        obtain ⟨tree', path', subtree', node', loopEq, focus', atNode', holds', stops,
          sameMarks⟩ := ih raisedFocus atNext nextBlack shorter nextHolds
        refine ⟨tree', path', subtree', node', ?_, focus', atNode', holds', stops,
          sameMarks.trans stepMarks⟩
        rw [fixViolationLoop_climb focus atNode atRest step]
        exact loopEq

/-! ### The whole repair -/

/-- From any node of a tree whose root is black, whatever the colours of its
other nodes, the repair ends without reading a null pointer, keeps the order of
the nodes and leaves a black root. -/
theorem fixViolation_focus {tree : RbTree Ptr} {path : List (Frame Ptr)}
    {subtree : BinaryTree Ptr} {node : Ptr} (focus : Focus tree path subtree)
    (atNode : top subtree = some node) (rootBlack : RootBlack tree path) {fuel : Nat}
    (enough : path.length < fuel) :
    ∃ tree' shape root, fixViolation fuel tree (some node) = .ok tree' ∧ Shape tree' shape ∧
      inorder shape = inorder (plug path subtree) ∧
      tree'.root = some root ∧ tree'.colors root = .black ∧ tree'.marks = tree.marks := by
  obtain ⟨repaired, path', subtree', node', loopEq, focus', atNode', sameKeys, _, sameMarks⟩ :=
    fixViolationLoop_rule
      (fun _ outer inner => inorder (plug outer inner) = inorder (plug path subtree))
      (fun {_ _ lower upper rest inner _ _} holds _ _ _ _ _ raised _ _ same =>
        (inorder_plug_congr rest same).trans holds)
      fuel focus atNode rootBlack enough rfl
  have shape := focus_iff_shape.1 focus'
  have notNil := plug_ne_nil_of_top path' atNode'
  cases whole : plug path' subtree' with
  | nil => exact absurd whole notNil
  | node root left right =>
      rw [whole] at shape sameKeys
      have rootEq : repaired.root = some root := shape.hangs
      refine ⟨repaired.setColor root .black, .node root left right, root, ?_, ?_, sameKeys,
        rootEq, ?_, ?_⟩
      · unfold fixViolation
        rw [loopEq]
        change (deref repaired.root).bind _ = _
        rw [rootEq]
        rfl
      · exact shape.congr (by simp) (by simp)
      · simp
      · simpa using sameMarks

/-! ### The repair without the colour rules -/

/-- A loop that has ended does the same with more fuel. -/
theorem fixViolationLoop_mono {fuel more : Nat} {tree tree' : RbTree Ptr} {node : Option Ptr}
    (ended : fixViolationLoop fuel tree node = .ok tree') (within : fuel ≤ more) :
    fixViolationLoop more tree node = .ok tree' := by
  induction fuel generalizing more tree node with
  | zero => cases ended
  | succ fuel ih =>
      obtain ⟨more, rfl⟩ := Nat.exists_eq_succ_of_ne_zero (Nat.ne_of_gt (Nat.zero_lt_of_lt within))
      rw [fixViolationLoop] at ended ⊢
      by_cases atRoot : node = tree.root
      · rw [if_pos atRoot] at ended ⊢
        exact ended
      · rw [if_neg atRoot] at ended ⊢
        refine Faults.ok_of_bind ended fun node ended => ?_
        by_cases nodeBlack : (tree.node node).rbColor = .black
        · rw [if_pos nodeBlack] at ended ⊢
          exact ended
        · rw [if_neg nodeBlack] at ended ⊢
          refine Faults.ok_of_bind ended fun parent ended => ?_
          by_cases parentBlack : (tree.node parent).rbColor = .black
          · rw [if_pos parentBlack] at ended ⊢
            exact ended
          · rw [if_neg parentBlack] at ended ⊢
            refine Faults.ok_of_bind ended fun grandParent ended => ?_
            refine Faults.ok_of_bind ended fun stepped ended => ?_
            exact ih ended (Nat.le_of_succ_le_succ within)

theorem fixViolation_mono {fuel more : Nat} {tree tree' : RbTree Ptr} {node : Option Ptr}
    (ended : fixViolation fuel tree node = .ok tree') (within : fuel ≤ more) :
    fixViolation more tree node = .ok tree' := by
  unfold fixViolation at ended ⊢
  obtain ⟨repaired, loop, rest⟩ := Faults.exists_of_bind ended
  rw [fixViolationLoop_mono loop within]
  exact rest

/-- However red the other nodes are, the repair ends without a fault where the root is black:
each iteration climbs two levels, and a red parent is not the root. -/
theorem repair_from_black_root (tree : RbTree Ptr) (shape : BinaryTree Ptr)
    (linked : Shape tree shape) (root : Ptr) (atRoot : tree.root = some root)
    (black : tree.colors root = .black) (node : Ptr) (member : node ∈ inorder shape) :
    ∃ tree' shape' root',
      (∀ fuel, shape.numNodes < fuel → fixViolation fuel tree (some node) = .ok tree') ∧
        Shape tree' shape' ∧ inorder shape' = inorder shape ∧ tree'.root = some root' ∧
        tree'.colors root' = .black := by
  obtain ⟨path, left, right, rfl⟩ := exists_path shape node member
  have focus : Focus tree path (.node node left right) := focus_iff_shape.2 linked
  have short : path.length < (plug path (.node node left right)).numNodes :=
    length_lt_numNodes_plug path (Nat.succ_pos _)
  obtain ⟨tree', shape', root', ended, linked', sameKeys, atRoot', black', _⟩ :=
    fixViolation_focus focus rfl (.inr ⟨root, atRoot, black⟩) short
  refine ⟨tree', shape', root', ?_, linked', sameKeys, atRoot', black'⟩
  intro fuel enough
  exact fixViolation_mono ended (Nat.le_of_lt enough)

/-- A black root with three red nodes in a row to its left. -/
def redSpine : RbTree Nat :=
  { root := some 4
    node := fun pointer =>
      match pointer with
      | 1 =>
          { rbLeft := none
            rbRight := none
            rbParent := some 2
            rbTree := true
            rbColor := .red }
      | 2 =>
          { rbLeft := some 1
            rbRight := none
            rbParent := some 3
            rbTree := true
            rbColor := .red }
      | 3 =>
          { rbLeft := some 2
            rbRight := none
            rbParent := some 4
            rbTree := true
            rbColor := .red }
      | 4 =>
          { rbLeft := some 3
            rbRight := none
            rbParent := none
            rbTree := true
            rbColor := .black }
      | _ => .initial }

theorem repair_from_black_root_spine :
    ∃ tree' shape' root',
      (∀ fuel, 4 < fuel → fixViolation fuel redSpine (some 1) = .ok tree') ∧
        Shape tree' shape' ∧ inorder shape' = [1, 2, 3, 4] ∧ tree'.root = some root' ∧
        tree'.colors root' = .black :=
  repair_from_black_root redSpine
    (.node 4 (.node 3 (.node 2 (.node 1 .nil .nil) .nil) .nil) .nil)
    ⟨rfl, ⟨rfl, rfl, rfl, ⟨rfl, rfl, rfl, ⟨rfl, rfl, rfl, ⟨rfl, rfl, rfl, trivial, trivial⟩,
      trivial⟩, trivial⟩, trivial⟩, by decide⟩
    4 rfl rfl 1 (by decide)

end MCoro.RbTree
