/-
The colour rules of the red-black tree through insertion and removal.

`AlmostRules` is the invariant of the repair loop: the rules hold but for the edge
above the node in focus. After an insertion the loop repairs that edge. A removal
does not set up this invariant: a black node that leaves takes a black key from its
paths, and no iteration puts one back.
-/

import MCoro.Library.ColorRules
import MCoro.Utils.RbTreeOperations

namespace MCoro.RbTree

open LinkedTree
open ColorRules

variable {Ptr : Type}

def isRed (tree : RbTree Ptr) (pointer : Ptr) : Bool :=
  tree.colors pointer = .red

theorem isRed_eq_false {tree : RbTree Ptr} {pointer : Ptr} :
    tree.isRed pointer = false ↔ tree.colors pointer = .black := by
  unfold isRed
  cases tree.colors pointer <;> simp

theorem isRed_eq_true {tree : RbTree Ptr} {pointer : Ptr} :
    tree.isRed pointer = true ↔ tree.colors pointer = .red :=
  decide_eq_true_iff

theorem isRed_congr {tree tree' : RbTree Ptr} {pointer : Ptr}
    (same : tree'.colors pointer = tree.colors pointer) :
    tree'.isRed pointer = tree.isRed pointer := by
  unfold isRed
  rw [same]

def SameColors (tree tree' : RbTree Ptr) (cells : List Ptr) : Prop :=
  ∀ cell ∈ cells, tree'.isRed cell = tree.isRed cell

/-! ### What an iteration recolours -/

section Step

variable {tree tree' : RbTree Ptr} {rest : List (Frame Ptr)} {lower upper : Frame Ptr}
  {subtree near far : BinaryTree Ptr} {node next uncle : Ptr}

/-- The keys under the grandparent and above it, apart from each other. -/
structure Apart (rest : List (Frame Ptr)) (lower upper : Frame Ptr) (subtree : BinaryTree Ptr) :
    Prop where
  keys : lower.key ≠ upper.key
  inside : ∀ cell ∈ inorder subtree, cell ≠ lower.key ∧ cell ≠ upper.key ∧
    cell ∉ inorder upper.sibling
  lowerSibling : ∀ cell ∈ inorder lower.sibling, cell ≠ lower.key ∧ cell ≠ upper.key ∧
    cell ∉ inorder subtree ∧ cell ∉ inorder upper.sibling
  upperSibling : ∀ cell ∈ inorder upper.sibling, cell ≠ lower.key ∧ cell ≠ upper.key ∧
    cell ∉ inorder subtree
  outside : ∀ cell ∈ pathKeys rest, cell ≠ lower.key ∧ cell ≠ upper.key ∧
    cell ∉ inorder subtree ∧ cell ∉ inorder upper.sibling
  distinct : (inorder upper.sibling).Nodup ∧ (inorder subtree).Nodup

theorem Focus.apart (focus : Focus tree (lower :: upper :: rest) subtree) :
    Apart rest lower upper subtree := by
  have distinct := (nodup_plug _ _).1 focus.distinct
  simp only [pathKeys, List.cons_append, List.nodup_cons, List.nodup_append, List.mem_cons,
    List.mem_append] at distinct
  constructor <;> grind

variable [DecidableEq Ptr]

/-- Of the subtree under the grandparent, a recolouring changes three keys. -/
structure Recolored (tree tree' : RbTree Ptr) (rest : List (Frame Ptr)) (lower upper : Frame Ptr)
    (subtree : BinaryTree Ptr) (uncle : Ptr) : Prop where
  upperNow : tree'.isRed upper.key = true
  lowerNow : tree'.isRed lower.key = false
  uncleNow : tree'.isRed uncle = false
  inside : SameColors tree tree' (inorder subtree)
  lowerSibling : SameColors tree tree' (inorder lower.sibling)
  upperSibling : ∀ cell ∈ inorder upper.sibling, cell ≠ uncle →
    tree'.isRed cell = tree.isRed cell
  outside : SameColors tree tree' (pathKeys rest)

theorem Apart.recolored (apart : Apart rest lower upper subtree)
    (atUncle : top upper.sibling = some uncle)
    (recolor : tree'.colors = Function.update (Function.update
      (Function.update tree.colors upper.key .red) lower.key .black) uncle .black) :
    Recolored tree tree' rest lower upper subtree uncle := by
  have inUncle : uncle ∈ inorder upper.sibling := top_mem atUncle
  obtain ⟨uncleLower, uncleUpper, _⟩ := apart.upperSibling uncle inUncle
  have keep : ∀ cell, cell ≠ lower.key → cell ≠ upper.key → cell ≠ uncle →
      tree'.isRed cell = tree.isRed cell := by
    intro cell notLower notUpper notUncle
    apply isRed_congr
    rw [recolor]
    simp [notUpper, notLower, notUncle]
  constructor
  case upperNow =>
    rw [isRed_eq_true, recolor]
    simp [uncleUpper.symm, apart.keys.symm]
  case lowerNow =>
    rw [isRed_eq_false, recolor]
    simp [uncleLower.symm]
  case uncleNow =>
    rw [isRed_eq_false, recolor]
    simp
  case inside =>
    intro cell member
    obtain ⟨notLower, notUpper, notUncle⟩ := apart.inside cell member
    exact keep cell notLower notUpper fun same => notUncle (same ▸ inUncle)
  case lowerSibling =>
    intro cell member
    obtain ⟨notLower, notUpper, _, notUncle⟩ := apart.lowerSibling cell member
    exact keep cell notLower notUpper fun same => notUncle (same ▸ inUncle)
  case upperSibling =>
    intro cell member notUncle
    obtain ⟨notLower, notUpper, _⟩ := apart.upperSibling cell member
    exact keep cell notLower notUpper notUncle
  case outside =>
    intro cell member
    obtain ⟨notLower, notUpper, _, notUncle⟩ := apart.outside cell member
    exact keep cell notLower notUpper fun same => notUncle (same ▸ inUncle)

/-- A rotation exchanges the colours of the new top and of the grandparent. -/
structure Swapped (tree tree' : RbTree Ptr) (rest : List (Frame Ptr)) (lower upper : Frame Ptr) :
    Prop where
  lowerSibling : SameColors tree tree' (inorder lower.sibling)
  upperSibling : SameColors tree tree' (inorder upper.sibling)
  outside : SameColors tree tree' (pathKeys rest)

theorem Apart.outer (apart : Apart rest lower upper subtree)
    (recolor : tree'.colors = Function.update (Function.update tree.colors
      lower.key (tree.colors upper.key)) upper.key (tree.colors lower.key)) :
    Swapped tree tree' rest lower upper ∧ SameColors tree tree' (inorder subtree) ∧
      tree'.isRed upper.key = tree.isRed lower.key ∧
      tree'.isRed lower.key = tree.isRed upper.key := by
  have keep : ∀ cell, cell ≠ lower.key ∧ cell ≠ upper.key →
      tree'.isRed cell = tree.isRed cell := by
    intro cell notKeys
    apply isRed_congr
    rw [recolor]
    simp [notKeys.1, notKeys.2]
  refine ⟨⟨?_, ?_, ?_⟩, ?_, ?_, ?_⟩
  · intro cell member
    obtain ⟨notLower, notUpper, _⟩ := apart.lowerSibling cell member
    exact keep cell ⟨notLower, notUpper⟩
  · intro cell member
    obtain ⟨notLower, notUpper, _⟩ := apart.upperSibling cell member
    exact keep cell ⟨notLower, notUpper⟩
  · intro cell member
    obtain ⟨notLower, notUpper, _⟩ := apart.outside cell member
    exact keep cell ⟨notLower, notUpper⟩
  · intro cell member
    obtain ⟨notLower, notUpper, _⟩ := apart.inside cell member
    exact keep cell ⟨notLower, notUpper⟩
  · unfold isRed
    rw [recolor]
    simp
  · unfold isRed
    rw [recolor]
    simp [apart.keys]

theorem Apart.inner (apart : Apart rest lower upper (branch upper.side next near far))
    (recolor : tree'.colors = Function.update (Function.update tree.colors
      next (tree.colors upper.key)) upper.key (tree.colors next)) :
    Swapped tree tree' rest lower upper ∧ SameColors tree tree' (inorder near) ∧
      SameColors tree tree' (inorder far) ∧ tree'.isRed upper.key = tree.isRed next ∧
      tree'.isRed next = tree.isRed upper.key ∧ tree'.isRed lower.key = tree.isRed lower.key := by
  obtain ⟨notNear, notFar, _⟩ := (nodup_branch _ _ _ _).1 apart.distinct.2
  have inNode : next ∈ inorder (branch upper.side next near far) := by simp
  obtain ⟨nextLower, nextUpper, _⟩ := apart.inside next inNode
  have keep : ∀ cell, cell ≠ next → cell ≠ upper.key → tree'.isRed cell = tree.isRed cell := by
    intro cell notNext notUpper
    apply isRed_congr
    rw [recolor]
    simp [notNext, notUpper]
  refine ⟨⟨?_, ?_, ?_⟩, ?_, ?_, ?_, ?_, keep lower.key nextLower.symm apart.keys⟩
  · intro cell member
    obtain ⟨_, notUpper, notInside, _⟩ := apart.lowerSibling cell member
    exact keep cell (fun same => notInside (same ▸ inNode)) notUpper
  · intro cell member
    obtain ⟨_, notUpper, notInside⟩ := apart.upperSibling cell member
    exact keep cell (fun same => notInside (same ▸ inNode)) notUpper
  · intro cell member
    obtain ⟨_, notUpper, notInside, _⟩ := apart.outside cell member
    exact keep cell (fun same => notInside (same ▸ inNode)) notUpper
  · intro cell member
    obtain ⟨_, notUpper, _⟩ := apart.inside cell (by simp [member])
    exact keep cell (fun same => notNear (same ▸ member)) notUpper
  · intro cell member
    obtain ⟨_, notUpper, _⟩ := apart.inside cell (by simp [member])
    exact keep cell (fun same => notFar (same ▸ member)) notUpper
  · unfold isRed
    rw [recolor]
    simp
  · unfold isRed
    rw [recolor]
    simp [nextUpper]

/-! ### What an iteration preserves -/

/-- The rules hold but for the edge above the subtree in focus. -/
def AlmostRules (tree : RbTree Ptr) (path : List (Frame Ptr)) (subtree : BinaryTree Ptr) : Prop :=
  ∃ height, Colored tree.isRed subtree height ∧ Surrounds tree.isRed path height

omit [DecidableEq Ptr] in
private theorem AlmostRules.open (almost : AlmostRules tree (lower :: upper :: rest) subtree)
    (parentRed : tree.isRed lower.key = true) :
    ∃ height, Colored tree.isRed subtree height ∧ Colored tree.isRed lower.sibling height ∧
      TopBlack tree.isRed lower.sibling ∧ Colored tree.isRed upper.sibling height ∧
      tree.isRed upper.key = false ∧ Surrounds tree.isRed rest (height + 1) := by
  obtain ⟨height, subtreeColored, lowerColored, lowerKey, upperColored, _, outer⟩ := almost
  obtain ⟨siblingBlack, aboveBlack⟩ := lowerKey parentRed
  have upperBlack := aboveBlack upper.key rfl
  rw [parentRed] at upperColored outer
  rw [upperBlack] at outer
  exact ⟨height, subtreeColored, lowerColored, siblingBlack, upperColored, upperBlack, outer⟩

omit [DecidableEq Ptr] in
private theorem AlmostRules.recolored (almost : AlmostRules tree (lower :: upper :: rest) subtree)
    (parentRed : tree.isRed lower.key = true) (atUncle : top upper.sibling = some uncle)
    (uncleRed : tree.isRed uncle = true) (distinct : (inorder upper.sibling).Nodup)
    (colors : Recolored tree tree' rest lower upper subtree uncle) :
    AlmostRules tree' rest (upper.plug (lower.plug subtree)) := by
  obtain ⟨height, subtreeColored, lowerColored, _, upperColored, _, outer⟩ := almost.open parentRed
  have parentNow : Colored tree'.isRed (lower.plug subtree) (height + 1) :=
    Colored.branch_black _ colors.lowerNow (subtreeColored.congr colors.inside)
      (lowerColored.congr colors.lowerSibling)
  have siblingNow : Colored tree'.isRed upper.sibling (height + 1) := by
    have keep := colors.upperSibling
    obtain ⟨near, far, shapeEq⟩ := exists_branch .left atUncle
    rw [shapeEq] at upperColored keep distinct ⊢
    obtain ⟨below, nearColored, farColored, belowEq, _⟩ := Colored.of_branch _ upperColored
    rw [uncleRed, if_pos rfl] at belowEq
    subst belowEq
    obtain ⟨notNear, notFar, _⟩ := (nodup_branch _ _ _ _).1 distinct
    apply Colored.branch_black _ colors.uncleNow
    · apply nearColored.congr
      intro cell member
      exact keep cell (by simp [member]) fun same => notNear (same ▸ member)
    · apply farColored.congr
      intro cell member
      exact keep cell (by simp [member]) fun same => notFar (same ▸ member)
  refine ⟨height + 1, ?_, outer.congr colors.outside⟩
  apply Colored.branch_red _ colors.upperNow _ _ parentNow siblingNow
  · exact (topBlack_branch _).2 colors.lowerNow
  · intro value atTop
    rw [atUncle] at atTop
    cases atTop
    exact colors.uncleNow

private theorem AlmostRules.outer (almost : AlmostRules tree (lower :: upper :: rest) subtree)
    (apart : Apart rest lower upper subtree) (parentRed : tree.isRed lower.key = true)
    (uncleBlack : TopBlack tree.isRed upper.sibling)
    (recolor : tree'.colors = Function.update (Function.update tree.colors
      lower.key (tree.colors upper.key)) upper.key (tree.colors lower.key)) :
    AlmostRules tree' rest (branch upper.side.other lower.key
      (branch upper.side.other upper.key upper.sibling lower.sibling) subtree) := by
  obtain ⟨height, subtreeColored, lowerColored, lowerBlack, upperColored, upperKey, outer⟩ :=
    almost.open parentRed
  obtain ⟨same, sameInside, upperNow, lowerNow⟩ := apart.outer recolor
  refine ⟨height + 1, Colored.branch_black _ (lowerNow.trans upperKey) ?_
    (subtreeColored.congr sameInside), outer.congr same.outside⟩
  exact Colored.branch_red _ (upperNow.trans parentRed) (uncleBlack.congr same.upperSibling)
    (lowerBlack.congr same.lowerSibling) (upperColored.congr same.upperSibling)
    (lowerColored.congr same.lowerSibling)

/-- The node takes the place and the colour of the grandparent, between it and the parent. -/
private theorem AlmostRules.inner
    (almost : AlmostRules tree (lower :: upper :: rest) (branch upper.side next near far))
    (apart : Apart rest lower upper (branch upper.side next near far))
    (nodeRed : tree.isRed next = true) (parentRed : tree.isRed lower.key = true)
    (uncleBlack : TopBlack tree.isRed upper.sibling)
    (recolor : tree'.colors = Function.update (Function.update tree.colors
      next (tree.colors upper.key)) upper.key (tree.colors next)) :
    AlmostRules tree' rest (branch upper.side.other next
      (branch upper.side.other upper.key upper.sibling far)
      (branch upper.side lower.key lower.sibling near)) := by
  obtain ⟨height, subtreeColored, lowerColored, lowerBlack, upperColored, upperKey, outer⟩ :=
    almost.open parentRed
  obtain ⟨below, nearColored, farColored, belowEq, children⟩ := Colored.of_branch _ subtreeColored
  rw [nodeRed, if_pos rfl] at belowEq
  subst belowEq
  obtain ⟨nearBlack, farBlack⟩ := children nodeRed
  obtain ⟨same, sameNear, sameFar, upperNow, nextNow, lowerNow⟩ := apart.inner recolor
  refine ⟨height + 1, Colored.branch_black _ (nextNow.trans upperKey) ?_ ?_,
    outer.congr same.outside⟩
  · exact Colored.branch_red _ (upperNow.trans nodeRed) (uncleBlack.congr same.upperSibling)
      (farBlack.congr sameFar) (upperColored.congr same.upperSibling) (farColored.congr sameFar)
  · exact Colored.branch_red _ (lowerNow.trans parentRed) (lowerBlack.congr same.lowerSibling)
      (nearBlack.congr sameNear) (lowerColored.congr same.lowerSibling)
      (nearColored.congr sameNear)

omit [DecidableEq Ptr] in
theorem topBlack_iff {tree : RbTree Ptr} {shape : BinaryTree Ptr} :
    TopBlack tree.isRed shape ↔ ∀ value, top shape = some value → tree.colors value = .black := by
  unfold TopBlack
  simp only [isRed_eq_false]

/-- Every iteration moves the edge that breaks the rules two levels up. -/
theorem AlmostRules.repaired (almost : AlmostRules tree (lower :: upper :: rest) subtree)
    (focus : Focus tree (lower :: upper :: rest) subtree) (atNode : top subtree = some node)
    (nodeRed : tree.colors node = .red) (parentRed : tree.colors lower.key = .red)
    (repaired : Repaired tree rest lower upper subtree tree' next) {subtree' : BinaryTree Ptr}
    (focus' : Focus tree' rest subtree') (atNext : top subtree' = some next) :
    AlmostRules tree' rest subtree' := by
  have apart := focus.apart
  have parentIsRed := isRed_eq_true.2 parentRed
  cases repaired with
  | recolored uncle atUncle uncleRed raised atKey recolor =>
      have shapeEq := focus'.unique raised (by rw [atNext, atKey, Frame.plug, top_branch])
      rw [shapeEq]
      exact almost.recolored parentIsRed atUncle (isRed_eq_true.2 uncleRed) apart.distinct.1
        (apart.recolored atUncle recolor)
  | outer uncleBlack sameSide raised atKey recolor =>
      have shapeEq := focus'.unique raised (by rw [atNext, atKey, top_branch])
      rw [shapeEq]
      exact almost.outer apart parentIsRed (topBlack_iff.2 uncleBlack) recolor
  | inner uncleBlack otherSide near far atBranch raised recolor =>
      have shapeEq := focus'.unique raised (by rw [atNext, top_branch])
      rw [atBranch] at almost apart atNode
      rw [top_branch] at atNode
      cases atNode
      rw [shapeEq]
      exact almost.inner apart (isRed_eq_true.2 nodeRed) parentIsRed (topBlack_iff.2 uncleBlack)
        recolor

end Step

/-! ### The whole repair -/

theorem AlmostRules.at_rest {tree : RbTree Ptr} {path : List (Frame Ptr)}
    {subtree : BinaryTree Ptr} {node : Ptr} (almost : AlmostRules tree path subtree)
    (atNode : top subtree = some node) (atRest : AtRest tree path node) :
    ∃ height, Colored tree.isRed (plug path subtree) height := by
  obtain ⟨height, colored, surrounds⟩ := almost
  refine colored_plug.2 ⟨height, colored, surrounds, ?_⟩
  intro key isAbove keyRed
  rcases atRest with noPath | nodeBlack | ⟨frame, rest, isPath, parentBlack⟩
  · subst noPath
    cases isAbove
  · intro value atTop
    rw [atNode] at atTop
    cases atTop
    exact isRed_eq_false.2 nodeBlack
  · subst isPath
    cases isAbove
    rw [isRed_eq_false.2 parentBlack] at keyRed
    cases keyRed

variable [DecidableEq Ptr]

theorem fixViolation_painted {tree repaired : RbTree Ptr} {node : Option Ptr} {root : Ptr}
    {fuel : Nat} (looped : fixViolationLoop fuel tree node = .ok repaired)
    (rootEq : repaired.root = some root) :
    fixViolation fuel tree node = .ok (repaired.setColor root .black) := by
  unfold fixViolation
  rw [looped]
  change (deref repaired.root).bind _ = _
  rw [rootEq]
  rfl

theorem fixViolation_rules {tree : RbTree Ptr} {path : List (Frame Ptr)}
    {subtree : BinaryTree Ptr} {node : Ptr} (focus : Focus tree path subtree)
    (atNode : top subtree = some node) (rootBlack : RootBlack tree path) {fuel : Nat}
    (enough : path.length < fuel) (almost : AlmostRules tree path subtree) :
    ∃ tree' shape, fixViolation fuel tree (some node) = .ok tree' ∧ Shape tree' shape ∧
      Rules tree'.isRed shape := by
  obtain ⟨repaired, path', subtree', node', looped, focus', atNode', almost', atRest, _⟩ :=
    fixViolationLoop_rule AlmostRules
      (fun {_ _ _ _ _ _ _ _} holds focus atNode nodeRed parentRed repaired _ focus' atNext _ =>
        holds.repaired focus atNode nodeRed parentRed repaired focus' atNext)
      fuel focus atNode rootBlack enough almost
  have shape := focus_iff_shape.1 focus'
  obtain ⟨height, colored⟩ := almost'.at_rest atNode' atRest
  have notNil := plug_ne_nil_of_top path' atNode'
  cases whole : plug path' subtree' with
  | nil => exact absurd whole notNil
  | node root left right =>
      rw [whole] at shape colored
      refine ⟨_, .node root left right, fixViolation_painted looped shape.hangs,
        shape.congr (by simp) (by simp), Rules.of_paint colored shape.distinct ?_ ?_⟩
      · rw [isRed_eq_false]
        simp
      · intro cell different
        apply isRed_congr
        simp [different]

/-! ### Insertion -/

/-- The representation invariant: the links are those of `shape`, which is in search
order and obeys the colour rules. -/
structure RedBlack (compare : Ptr → Ptr → Prop) (tree : RbTree Ptr) (shape : BinaryTree Ptr) :
    Prop where
  linked : Shape tree shape
  sorted : (inorder shape).Pairwise fun left right => ¬compare right left
  rules : Rules tree.isRed shape

omit [DecidableEq Ptr] in
theorem BlackTop.of_rules {tree : RbTree Ptr} {shape : BinaryTree Ptr} (linked : Shape tree shape)
    (rules : Rules tree.isRed shape) : BlackTop tree := by
  intro root rootEq
  exact isRed_eq_false.1 (rules.topBlack root (linked.hangs.symm.trans rootEq))

private theorem AlmostRules.hung {tree next : RbTree Ptr} {path : List (Frame Ptr)} {node : Ptr}
    (rules : Rules tree.isRed (plug path .nil)) (outside : node ∉ pathKeys path)
    (recolor : next.colors = Function.update tree.colors node .red) :
    AlmostRules next path (.node node .nil .nil) := by
  obtain ⟨height, colored, surrounds, _⟩ := colored_plug.1 rules.colored
  have noKeys : height = 0 := colored.blackHeight.unique colored_nil.blackHeight
  subst noKeys
  refine ⟨0, ?_, surrounds.congr ?_⟩
  · have nodeRed : next.isRed node = true := by
      rw [isRed_eq_true, recolor]
      simp
    exact Colored.branch_red .left nodeRed nofun nofun colored_nil colored_nil
  · intro cell member
    have different : cell ≠ node := fun same => outside (same ▸ member)
    apply isRed_congr
    rw [recolor]
    simp [different]

section Insert

variable (compare : Ptr → Ptr → Prop) [DecidableRel compare] [IsStrictWeakOrder Ptr compare]

theorem doInsert_rules {tree : RbTree Ptr} {shape : BinaryTree Ptr} {node : Ptr}
    (redBlack : RedBlack compare tree shape) (fresh : node ∉ inorder shape) {fuel : Nat}
    (enough : shape.numNodes < fuel) :
    ∃ tree' shape', doInsert compare fuel tree node = .ok tree' ∧ Shape tree' shape' ∧
      Rules tree'.isRed shape' := by
  obtain ⟨next, path, inserted, focus, shapeEq, _, rootBlack, short, nextColors, _⟩ :=
    doInsert_hung compare redBlack.linked redBlack.sorted (BlackTop.of_rules redBlack.linked redBlack.rules)
      fresh enough
  have rules := redBlack.rules
  rw [← shapeEq] at rules
  have outside : node ∉ pathKeys path :=
    ((nodup_plug _ _).1 focus.distinct).2.2 node (by simp)
  have almost := AlmostRules.hung rules outside nextColors
  obtain ⟨tree', shape', repaired, linked, rules'⟩ :=
    fixViolation_rules focus (top_node _ _ _) rootBlack short almost
  exact ⟨tree', shape', inserted.trans repaired, linked, rules'⟩

/-- Inserting a new node ends without a null dereference, keeps the representation
invariant and puts the node after all nodes that do not compare greater than it. -/
theorem insert_keeps_red_black (tree : RbTree Ptr) (shape : BinaryTree Ptr)
    (redBlack : RedBlack compare tree shape) (node : Ptr) (fresh : node ∉ inorder shape) (fuel : Nat)
    (enough : shape.numNodes < fuel) :
    ∃ tree' shape' before after, doInsert compare fuel tree node = .ok tree' ∧
      RedBlack compare tree' shape' ∧ inorder shape = before ++ after ∧
      inorder shape' = before ++ node :: after ∧
      (∀ other ∈ before, ¬compare node other) ∧ ∀ other ∈ after, compare node other := by
  obtain ⟨tree', shape', before, after, inserted, linked, beforeEq, afterEq, notGreater, greater, _⟩ :=
    doInsert_shape compare redBlack.linked redBlack.sorted
      (BlackTop.of_rules redBlack.linked redBlack.rules) fresh enough
  obtain ⟨tree'', shape'', inserted', linked', rules⟩ :=
    doInsert_rules compare redBlack fresh enough
  rw [inserted] at inserted'
  cases inserted'
  rw [Focus.unique_shape linked' linked] at rules
  refine ⟨tree', shape', before, after, inserted, ⟨linked, ?_, rules⟩, beforeEq, afterEq, notGreater,
    greater⟩
  have sorted := redBlack.sorted
  rw [beforeEq, List.pairwise_append] at sorted
  rw [afterEq, List.pairwise_append, List.pairwise_cons]
  refine ⟨sorted.1, ⟨fun other member => asymm_of compare (greater other member), sorted.2.1⟩, ?_⟩
  intro left leftMember right rightMember
  rcases List.mem_cons.1 rightMember with same | inAfter
  · rw [same]
    exact notGreater left leftMember
  · exact sorted.2.2 left leftMember right inAfter

end Insert

/-- A black root and its red right child. -/
def chain : RbTree Nat :=
  { root := some 1
    node := fun pointer =>
      match pointer with
      | 1 =>
          { rbLeft := none
            rbRight := some 2
            rbParent := none
            rbTree := true
            rbColor := .black }
      | 2 =>
          { rbLeft := none
            rbRight := none
            rbParent := some 1
            rbTree := true
            rbColor := .red }
      | _ => .initial }

theorem chain_redBlack :
    RedBlack (fun left right => left < right) chain (.node 1 .nil (.node 2 .nil .nil)) where
  linked := ⟨rfl, ⟨rfl, rfl, rfl, trivial, rfl, rfl, rfl, trivial, trivial⟩, by decide⟩
  sorted := by decide
  rules :=
    { topBlack := by
        intro value atTop
        cases atTop
        rfl
      colored := ⟨1, ⟨⟨nofun, trivial, ⟨fun _ => ⟨nofun, nofun⟩, trivial, trivial⟩⟩, by decide⟩⟩ }

/-- The third node of a chain, which makes it turn. -/
theorem insert_keeps_red_black_chain :
    ∃ tree' shape' before after,
      doInsert (fun left right => left < right) 4 chain 3 = .ok tree' ∧
        RedBlack (fun left right => left < right) tree' shape' ∧
        inorder (.node 1 .nil (.node 2 .nil .nil)) = before ++ after ∧
        inorder shape' = before ++ 3 :: after ∧
        (∀ other ∈ before, ¬3 < other) ∧ ∀ other ∈ after, 3 < other :=
  have : IsStrictWeakOrder Nat fun left right => left < right :=
    StableOrder.compareByKey fun node => node
  insert_keeps_red_black _ chain _ chain_redBlack 3 (by decide) 4 (by decide)

end MCoro.RbTree
