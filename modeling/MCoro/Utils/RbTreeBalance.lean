/-
When the removal of a node with at most one child keeps the colour rules.

It does so exactly when the node is red or the root. Any other black node leaves an
uneven subtree: `Lopsided` follows it through the repair loop, which turns and
recolours around it and never adds a black node on one side only. Histories whose
removals all are of the first kind keep the tree at logarithmic depth.
-/

import MCoro.Utils.RbTreeColors
import MCoro.Utils.RbTreeRuns

namespace MCoro.RbTree

open LinkedTree
open ColorRules

variable {Ptr : Type}

/-! ### An uneven subtree in the repair loop -/

/-- Some subtree is uneven: at the start the one under the parent of the node in focus, then
one properly below the node, or the node's own where the loop is at rest. -/
inductive Lopsided (tree : RbTree Ptr) : List (Frame Ptr) → BinaryTree Ptr → Prop where
  | start (lower : Frame Ptr) (rest : List (Frame Ptr)) (subtree : BinaryTree Ptr)
      (short : Colored tree.isRed subtree 0) (sibling : BlackHeight tree.isRed lower.sibling 1)
      (higher : tree.isRed lower.key = true → ∀ upper outer, rest = upper :: outer →
        tree.isRed upper.key = false ∧ BlackHeight tree.isRed upper.sibling 1) :
      Lopsided tree (lower :: rest) subtree
  | within (path : List (Frame Ptr)) (side : Side) (value : Ptr) (near far : BinaryTree Ptr)
      (uneven : Uneven tree.isRed near) : Lopsided tree path (branch side value near far)
  | settled (path : List (Frame Ptr)) (subtree : BinaryTree Ptr)
      (uneven : Uneven tree.isRed subtree)
      (atRest : ∀ node, top subtree = some node → AtRest tree path node) :
      Lopsided tree path subtree

theorem Lopsided.uneven {tree : RbTree Ptr} {path : List (Frame Ptr)} {subtree : BinaryTree Ptr}
    (lopsided : Lopsided tree path subtree) : Uneven tree.isRed (plug path subtree) := by
  cases lopsided with
  | start lower rest subtree short sibling higher =>
      exact (uneven_branch_of_ne lower.side short.blackHeight sibling (by decide)).plug
  | within path side value near far uneven => exact (uneven.branch_near side).plug
  | settled path subtree uneven atRest => exact uneven.plug

theorem Lopsided.within_far {tree : RbTree Ptr} {path : List (Frame Ptr)} {side : Side}
    {value : Ptr} {near far : BinaryTree Ptr} (uneven : Uneven tree.isRed far) :
    Lopsided tree path (branch side value near far) := by
  rw [← branch_other]
  exact .within path side.other value far near uneven

section Step

variable [DecidableEq Ptr] {tree tree' : RbTree Ptr} {rest : List (Frame Ptr)}
  {lower upper : Frame Ptr} {subtree : BinaryTree Ptr} {node next : Ptr}

private theorem Lopsided.started (short : Colored tree.isRed subtree 0)
    (sibling : BlackHeight tree.isRed lower.sibling 1) (upperKey : tree.isRed upper.key = false)
    (uncle : BlackHeight tree.isRed upper.sibling 1) (apart : Apart rest lower upper subtree)
    (atNode : top subtree = some node) (nodeRed : tree.isRed node = true)
    (parentRed : tree.isRed lower.key = true)
    (repaired : Repaired tree rest lower upper subtree tree' next) :
    ∃ subtree', Focus tree' rest subtree' ∧ top subtree' = some next ∧
      Lopsided tree' rest subtree' := by
  cases repaired with
  | recolored uncle atUncle uncleRed focus atKey recolor =>
      have colors := apart.recolored atUncle recolor
      refine ⟨_, focus, by rw [atKey, Frame.plug, top_branch], .within _ _ _ _ _ ?_⟩
      exact uneven_branch_of_ne _ (short.congr colors.inside).blackHeight
        (sibling.congr colors.lowerSibling) (by decide)
  | outer uncleBlack sameSide focus atKey recolor =>
      obtain ⟨same, sameInside, upperNow, lowerNow⟩ := apart.outer recolor
      refine ⟨_, focus, by rw [atKey, top_branch], .settled _ _ ?_ ?_⟩
      · have turned : BlackHeight tree'.isRed
            (branch upper.side.other upper.key upper.sibling lower.sibling) 1 := by
          rw [blackHeight_branch, upperNow, parentRed]
          exact ⟨1, uncle.congr same.upperSibling, sibling.congr same.lowerSibling, rfl⟩
        exact uneven_branch_of_ne _ turned (short.congr sameInside).blackHeight (by decide)
      · intro top_ atTop
        rw [top_branch] at atTop
        cases atTop
        exact .inr (.inl (isRed_eq_false.1 (lowerNow.trans upperKey)))
  | inner uncleBlack otherSide near far atBranch focus recolor =>
      subst atBranch
      rw [top_branch] at atNode
      cases atNode
      obtain ⟨same, _, sameFar, _⟩ := apart.inner recolor
      obtain ⟨below, _, farColored, belowEq, _⟩ := Colored.of_branch _ short
      rw [nodeRed, if_pos rfl] at belowEq
      subst belowEq
      refine ⟨_, focus, by rw [top_branch], .within _ _ _ _ _ ?_⟩
      exact uneven_branch_of_ne _ (uncle.congr same.upperSibling)
        (farColored.congr sameFar).blackHeight (by decide)

private theorem Lopsided.carried {side : Side} {value : Ptr} {near far : BinaryTree Ptr}
    (uneven : Uneven tree.isRed near) (isSubtree : subtree = branch side value near far)
    (apart : Apart rest lower upper subtree)
    (repaired : Repaired tree rest lower upper subtree tree' next) :
    ∃ subtree', Focus tree' rest subtree' ∧ top subtree' = some next ∧
      Lopsided tree' rest subtree' := by
  have whole : Uneven tree.isRed subtree := by
    rw [isSubtree]
    exact uneven.branch_near side
  cases repaired with
  | recolored uncle atUncle uncleRed focus atKey recolor =>
      have colors := apart.recolored atUncle recolor
      refine ⟨_, focus, by rw [atKey, Frame.plug, top_branch], .within _ _ _ _ _ ?_⟩
      exact (whole.congr colors.inside).branch_near _
  | outer uncleBlack sameSide focus atKey recolor =>
      obtain ⟨_, sameInside, _⟩ := apart.outer recolor
      refine ⟨_, focus, by rw [atKey, top_branch], .within_far ?_⟩
      exact whole.congr sameInside
  | inner uncleBlack otherSide near' far' atBranch focus recolor =>
      subst atBranch
      obtain ⟨_, sameNear, sameFar, _⟩ := apart.inner recolor
      refine ⟨_, focus, by rw [top_branch], ?_⟩
      have halves : Uneven tree.isRed near' ∨ Uneven tree.isRed far' := by
        rcases Side.eq_or_other side upper.side with sameSide | otherSide
        · rw [sameSide] at isSubtree
          cases side <;> cases isSubtree <;> exact .inl uneven
        · rw [otherSide, branch_other] at isSubtree
          cases side <;> cases isSubtree <;> exact .inr uneven
      rcases halves with unevenNear | unevenFar
      · exact .within_far ((unevenNear.congr sameNear).branch_far _)
      · exact .within _ _ _ _ _ ((unevenFar.congr sameFar).branch_far _)

theorem Lopsided.repaired (lopsided : Lopsided tree (lower :: upper :: rest) subtree)
    (focus : Focus tree (lower :: upper :: rest) subtree) (atNode : top subtree = some node)
    (nodeRed : tree.colors node = .red) (parentRed : tree.colors lower.key = .red)
    (repaired : Repaired tree rest lower upper subtree tree' next) {subtree' : BinaryTree Ptr}
    (focus' : Focus tree' rest subtree') (atNext : top subtree' = some next) :
    Lopsided tree' rest subtree' := by
  have apart := focus.apart
  have reached : ∃ subtree', Focus tree' rest subtree' ∧ top subtree' = some next ∧
      Lopsided tree' rest subtree' := by
    cases lopsided with
    | start lower rest' subtree short sibling higher =>
        obtain ⟨upperKey, uncle⟩ := higher (isRed_eq_true.2 parentRed) upper rest rfl
        exact Lopsided.started short sibling upperKey uncle apart atNode (isRed_eq_true.2 nodeRed)
          (isRed_eq_true.2 parentRed) repaired
    | within path side value near far uneven => exact Lopsided.carried uneven rfl apart repaired
    | settled path subtree uneven atRest =>
        rcases atRest node atNode with noPath | nodeBlack | ⟨frame, outer, isPath, parentBlack⟩
        · cases noPath
        · rw [nodeRed] at nodeBlack
          cases nodeBlack
        · cases isPath
          rw [parentRed] at parentBlack
          cases parentBlack
  obtain ⟨raised, raisedFocus, raisedTop, raisedLopsided⟩ := reached
  rw [focus'.unique raisedFocus (atNext.trans raisedTop.symm)]
  exact raisedLopsided

end Step

variable [DecidableEq Ptr]

theorem fixViolation_lopsided {tree tree' : RbTree Ptr} {path : List (Frame Ptr)}
    {subtree shape : BinaryTree Ptr} {node : Ptr} (focus : Focus tree path subtree)
    (atNode : top subtree = some node) (rootBlack : RootBlack tree path) {fuel : Nat}
    (enough : path.length < fuel) (lopsided : Lopsided tree path subtree)
    (fixed : fixViolation fuel tree (some node) = .ok tree') (linked : Shape tree' shape) :
    Uneven tree'.isRed shape := by
  obtain ⟨repaired, path', subtree', node', looped, focus', atNode', lopsided', _, _⟩ :=
    fixViolationLoop_rule Lopsided
      (fun {_ _ _ _ _ _ _ _} holds focus atNode nodeRed parentRed repaired _ focus' atNext _ =>
        holds.repaired focus atNode nodeRed parentRed repaired focus' atNext)
      fuel focus atNode rootBlack enough lopsided
  have whole := focus_iff_shape.1 focus'
  have uneven := lopsided'.uneven
  cases shapeEq : plug path' subtree' with
  | nil =>
      have notNil : subtree' ≠ .nil := by
        rw [Ne, ← top_eq_none, atNode']
        exact Option.some_ne_none node'
      exact absurd shapeEq (plug_ne_nil path' notNil)
  | node root left right =>
      rw [shapeEq] at whole uneven
      have painted := fixViolation_painted looped whole.hangs
      rw [fixed] at painted
      cases painted
      have sameShape : shape = .node root left right :=
        Focus.unique_shape linked (whole.congr (by simp) (by simp))
      rw [sameShape]
      apply uneven.of_paint whole.distinct
      intro cell different
      apply isRed_congr
      simp [different]

/-! ### Removal -/

section Removal

variable {tree : RbTree Ptr} {path : List (Frame Ptr)} {node : Ptr} {left right : BinaryTree Ptr}

omit [DecidableEq Ptr] in
/-- Of a node with at most one child the rules leave little room for that child. -/
private theorem only_child {below : BinaryTree Ptr}
    (onlyBelow : left = .nil ∧ below = right ∨ right = .nil ∧ below = left)
    (rules : Rules tree.isRed (plug path (.node node left right))) :
    Colored tree.isRed below 0 ∧ (tree.isRed node = true → below = .nil) ∧
      Surrounds tree.isRed path (if tree.isRed node then 0 else 1) := by
  obtain ⟨height, colored, surrounds, _⟩ := colored_plug.1 rules.colored
  obtain ⟨low, leftColored, rightColored, heightEq, children⟩ :=
    Colored.of_branch .left colored
  have lowEq : low = 0 := by
    rcases onlyBelow with ⟨leftNil, _⟩ | ⟨rightNil, _⟩
    · rw [leftNil] at leftColored
      exact leftColored.blackHeight.unique colored_nil.blackHeight
    · rw [rightNil] at rightColored
      exact rightColored.blackHeight.unique colored_nil.blackHeight
  subst lowEq
  subst heightEq
  rcases onlyBelow with ⟨_, same⟩ | ⟨_, same⟩
  · rw [same]
    exact ⟨rightColored, fun isRed => rightColored.eq_nil (children isRed).2, surrounds⟩
  · rw [same]
    exact ⟨leftColored, fun isRed => leftColored.eq_nil (children isRed).1, surrounds⟩

/-- A red node that goes takes no black key from any path. -/
private theorem doErase_red (focus : Focus tree path (.node node left right))
    (oneChild : left = .nil ∨ right = .nil)
    (rules : Rules tree.isRed (plug path (.node node left right)))
    (nodeRed : tree.colors node = .red) (fuel : Nat) :
    ∃ tree' shape', doErase fuel tree node = .ok tree' ∧ Shape tree' shape' ∧
      Rules tree'.isRed shape' := by
  obtain ⟨spliced, below, splicedFocus, onlyBelow, sameColors, _, reached⟩ :=
    doErase_spliced focus oneChild fuel
  obtain ⟨belowColored, belowNil, surrounds⟩ := only_child onlyBelow rules
  have isRed := isRed_eq_true.2 nodeRed
  have noChild := belowNil isRed
  subst noChild
  rw [isRed, if_pos rfl] at surrounds
  have sameRed : spliced.isRed = tree.isRed := funext fun cell => isRed_congr (congrFun sameColors cell)
  refine ⟨spliced, plug path .nil, ?_, focus_iff_shape.1 splicedFocus, ?_⟩
  · rw [reached, if_neg]
    rw [nodeRed]
    nofun
  · rw [sameRed]
    refine ⟨?_, colored_plug.2 ⟨0, belowColored, surrounds, fun _ _ _ => nofun⟩⟩
    cases path with
    | nil => exact nofun
    | cons frame rest =>
        intro root atTop
        rw [top_plug_cons frame rest .nil (.node node left right)] at atTop
        exact rules.topBlack root atTop

/-- The root that goes takes one black key from every path. -/
private theorem doErase_root (focus : Focus tree [] (.node node left right))
    (oneChild : left = .nil ∨ right = .nil) (rules : Rules tree.isRed (.node node left right))
    {fuel : Nat} (enough : 0 < fuel) :
    ∃ tree' shape', doErase fuel tree node = .ok tree' ∧ Shape tree' shape' ∧
      Rules tree'.isRed shape' := by
  obtain ⟨spliced, below, splicedFocus, onlyBelow, sameColors, _, reached⟩ :=
    doErase_spliced focus oneChild fuel
  have atTop : Rules tree.isRed (plug [] (.node node left right)) := rules
  obtain ⟨belowColored, _⟩ := only_child onlyBelow atTop
  have rootEq : spliced.root = top below := splicedFocus.hangs
  have sameRed : spliced.isRed = tree.isRed := funext fun cell => isRed_congr (congrFun sameColors cell)
  have nodeBlack : tree.colors node = .black := isRed_eq_false.1 (rules.topBlack node rfl)
  cases belowAt : top below with
  | none =>
      have empty := top_eq_none.1 belowAt
      subst empty
      refine ⟨spliced, .nil, ?_, splicedFocus, ⟨nofun, 0, colored_nil⟩⟩
      rw [reached, if_neg]
      rintro ⟨_, nonempty⟩
      exact nonempty rootEq
  | some child =>
      have almost : AlmostRules spliced [] below := by
        rw [AlmostRules, sameRed]
        exact ⟨0, belowColored, trivial⟩
      obtain ⟨tree', shape', fixed, linked, rules'⟩ :=
        fixViolation_rules splicedFocus belowAt (.inl rfl) enough almost
      refine ⟨tree', shape', ?_, linked, rules'⟩
      rw [reached, if_pos, belowAt]
      · exact fixed
      · rw [rootEq, belowAt]
        exact ⟨nodeBlack, Option.some_ne_none child⟩

/-- Any other black node takes a black key from the paths on one side of its parent. -/
private theorem doErase_uneven {frame : Frame Ptr} {rest : List (Frame Ptr)}
    (focus : Focus tree (frame :: rest) (.node node left right))
    (oneChild : left = .nil ∨ right = .nil)
    (rules : Rules tree.isRed (plug (frame :: rest) (.node node left right)))
    (nodeBlack : tree.colors node = .black) {fuel : Nat}
    (enough : (frame :: rest).length < fuel) {tree' : RbTree Ptr} {shape' : BinaryTree Ptr}
    (erased : doErase fuel tree node = .ok tree') (linked : Shape tree' shape') :
    Uneven tree'.isRed shape' := by
  obtain ⟨spliced, below, splicedFocus, onlyBelow, sameColors, _, reached⟩ :=
    doErase_spliced focus oneChild fuel
  obtain ⟨belowColored, _, surrounds⟩ := only_child onlyBelow rules
  rw [isRed_eq_false.2 nodeBlack] at surrounds
  have sameRed : spliced.isRed = tree.isRed := funext fun cell => isRed_congr (congrFun sameColors cell)
  rw [← sameRed] at belowColored surrounds
  obtain ⟨siblingColored, keyRed, outer⟩ := surrounds
  have rootEq := splicedFocus.hangs.root_last
  have rootBlack : ∃ root, spliced.root = some root ∧ spliced.colors root = .black := by
    refine ⟨_, rootEq, ?_⟩
    rw [sameColors]
    exact BlackTop.of_rules (focus_iff_shape.1 focus) rules _ focus.hangs.root_last
  have higher : spliced.isRed frame.key = true → ∀ upper outer, rest = upper :: outer →
      spliced.isRed upper.key = false ∧ BlackHeight spliced.isRed upper.sibling 1 := by
    intro isRed upper further isRest
    subst isRest
    rw [isRed, if_pos rfl] at outer
    exact ⟨(keyRed isRed).2 upper.key rfl, outer.1.blackHeight⟩
  have fixes : tree.colors node = .black ∧ spliced.root ≠ none := by
    rw [rootEq]
    exact ⟨nodeBlack, Option.some_ne_none _⟩
  rw [reached, if_pos fixes] at erased
  cases belowAt : top below with
  | some child =>
      rw [belowAt] at erased
      exact fixViolation_lopsided splicedFocus belowAt (.inr rootBlack) enough
        (.start frame rest below belowColored siblingColored.blackHeight higher) erased linked
  | none =>
      rw [belowAt] at erased
      have empty := top_eq_none.1 belowAt
      subst empty
      -- the repair starts at the parent, where the loop is at rest
      have atRest : AtRest spliced rest frame.key := by
        cases rest with
        | nil => exact .inl rfl
        | cons upper further =>
            cases isRed : spliced.isRed frame.key with
            | true =>
                obtain ⟨upperBlack, _⟩ := higher isRed upper further rfl
                exact .inr (.inr ⟨upper, further, rfl, isRed_eq_false.1 upperBlack⟩)
            | false => exact .inr (.inl (isRed_eq_false.1 isRed))
      apply fixViolation_lopsided (Focus.up.1 splicedFocus) (top_branch _ _ _ _) (.inr rootBlack)
        (Nat.lt_of_succ_lt enough) _ erased linked
      refine .settled _ _ ?_ ?_
      · exact uneven_branch_of_ne _ belowColored.blackHeight siblingColored.blackHeight (by decide)
      · intro parent atTop
        rw [Frame.plug, top_branch] at atTop
        cases atTop
        exact atRest

end Removal

/-- The step lemma: the rules survive a removal exactly when the node is red or the root. -/
theorem doErase_rules_iff {tree : RbTree Ptr} {shape : BinaryTree Ptr} (linked : Shape tree shape)
    (rules : Rules tree.isRed shape) {node : Ptr} (member : node ∈ inorder shape)
    (oneChild : tree.AtMostOneChild node) {fuel : Nat} (enough : shape.numNodes < fuel) :
    (∃ tree' shape', doErase fuel tree node = .ok tree' ∧ Shape tree' shape' ∧
        Rules tree'.isRed shape') ↔
      tree.colors node = .red ∨ tree.root = some node := by
  obtain ⟨path, left, right, shapeEq⟩ := exists_path shape node member
  subst shapeEq
  have focus : Focus tree path (.node node left right) := focus_iff_shape.2 linked
  have oneSubtree : left = .nil ∨ right = .nil := by
    rcases oneChild with noLeft | noRight
    · exact .inl (top_eq_none.1 (focus.linked.2.1.symm.trans noLeft))
    · exact .inr (top_eq_none.1 (focus.linked.2.2.1.symm.trans noRight))
  have short : path.length < fuel :=
    (length_lt_numNodes_plug path (by simp [BinaryTree.numNodes])).trans enough
  constructor
  · rintro ⟨tree', shape', erased, linked', rules'⟩
    cases path with
    | nil => exact .inr focus.hangs
    | cons frame rest =>
        cases shade : tree.colors node with
        | red => exact .inl rfl
        | black =>
            have uneven := doErase_uneven focus oneSubtree rules shade short erased linked'
            obtain ⟨height, colored⟩ := rules'.colored
            exact absurd ⟨height, colored.blackHeight⟩ uneven
  · rintro (nodeRed | atRoot)
    · exact doErase_red focus oneSubtree rules nodeRed fuel
    · have noPath := focus.eq_nil_of_root (top_node _ _ _) atRoot.symm
      subst noPath
      exact doErase_root focus oneSubtree rules (Nat.zero_lt_of_lt enough)

/-! ### Histories -/

/-- The removal, if it is one, finds its node with at most one child and red or the root. -/
def Operation.Even (tree : RbTree Ptr) : Operation Ptr → Prop
  | .insert _ => True
  | .erase node =>
      tree.AtMostOneChild node ∧ (tree.colors node = .red ∨ tree.root = some node)
  | .eraseFromParent node => (tree.node node).rbTree = true →
      tree.AtMostOneChild node ∧ (tree.colors node = .red ∨ tree.root = some node)
  | .clear => True

def EvenRun (compare : Ptr → Ptr → Prop) [DecidableRel compare] (fuel : Nat) (tree : RbTree Ptr) :
    List (Operation Ptr) → Prop
  | [] => True
  | operation :: rest =>
      operation.Even tree ∧
        match operation.apply compare fuel tree with
        | .ok next => EvenRun compare fuel next rest
        | .error _ => True

instance decidableEven (tree : RbTree Ptr) :
    (operation : Operation Ptr) → Decidable (operation.Even tree)
  | .insert _ | .clear => isTrue trivial
  | .erase node =>
      inferInstanceAs (Decidable (tree.AtMostOneChild node ∧
        (tree.colors node = .red ∨ tree.root = some node)))
  | .eraseFromParent node =>
      inferInstanceAs (Decidable ((tree.node node).rbTree = true →
        tree.AtMostOneChild node ∧ (tree.colors node = .red ∨ tree.root = some node)))

instance decidableEvenRun (compare : Ptr → Ptr → Prop) [DecidableRel compare] (fuel : Nat) :
    (tree : RbTree Ptr) → (operations : List (Operation Ptr)) →
      Decidable (EvenRun compare fuel tree operations)
  | _, [] => isTrue trivial
  | tree, operation :: rest =>
      have : Decidable (match operation.apply compare fuel tree with
          | .ok next => EvenRun compare fuel next rest
          | .error _ => True) :=
        match operation.apply compare fuel tree with
        | .ok next => decidableEvenRun compare fuel next rest
        | .error _ => isTrue trivial
      inferInstanceAs (Decidable (_ ∧ _))

omit [DecidableEq Ptr] in
theorem Operation.Even.simple {tree : RbTree Ptr} {operation : Operation Ptr}
    (even : operation.Even tree) : operation.Simple tree := by
  cases operation with
  | insert node => trivial
  | erase node => exact even.1
  | eraseFromParent node => exact fun present => (even present).1
  | clear => trivial

section Runs

variable {compare : Ptr → Ptr → Prop} [DecidableRel compare] [IsStrictWeakOrder Ptr compare]
  {live : List Ptr} {tree : RbTree Ptr} {shape : BinaryTree Ptr} {fuel : Nat}

omit [DecidableRel compare] [IsStrictWeakOrder Ptr compare] in
private theorem Keeps.erase_rules (keeps : Keeps compare live tree shape)
    (rules : Rules tree.isRed shape) {node : Ptr} (member : node ∈ live)
    (oneChild : tree.AtMostOneChild node)
    (even : tree.colors node = .red ∨ tree.root = some node) (enough : live.length < fuel) :
    ∃ next shape', tree.doErase fuel node = .ok next ∧ Shape next shape' ∧
      Rules next.isRed shape' := by
  rw [← keeps.numNodes] at enough
  rw [← keeps.mem_iff] at member
  exact (doErase_rules_iff keeps.linked rules member oneChild enough).2 even

theorem Keeps.even_step (keeps : Keeps compare live tree shape) (rules : Rules tree.isRed shape)
    (operation : Operation Ptr) (allowed : operation.Allowed live) (even : operation.Even tree)
    (enough : live.length < fuel) :
    ∃ next shape', operation.apply compare fuel tree = .ok next ∧
      Keeps compare (operation.arrivals live) next shape' ∧ Rules next.isRed shape' := by
  obtain ⟨next, shape', done, kept⟩ := keeps.step operation allowed even.simple enough
  have colored : ∃ shape'', Shape next shape'' ∧ Rules next.isRed shape'' := by
    cases operation with
    | insert node =>
        have redBlack : RedBlack compare tree shape :=
          ⟨keeps.linked, keeps.sorted.not_compare, rules⟩
        have fresh : node ∉ inorder shape := fun member => allowed ((keeps.mem_iff node).1 member)
        obtain ⟨tree', shape'', inserted, linked, rules'⟩ :=
          doInsert_rules compare redBlack fresh (by rw [keeps.numNodes]; exact enough)
        cases inserted.symm.trans done
        exact ⟨shape'', linked, rules'⟩
    | erase node =>
        obtain ⟨tree', shape'', erased, linked, rules'⟩ :=
          keeps.erase_rules rules allowed even.1 even.2 enough
        cases erased.symm.trans done
        exact ⟨shape'', linked, rules'⟩
    | eraseFromParent node =>
        change RbTree.eraseFromParent fuel tree node = .ok next at done
        unfold RbTree.eraseFromParent at done
        by_cases present : (tree.node node).rbTree = true
        · obtain ⟨oneChild, colorOrRoot⟩ := even present
          obtain ⟨tree', shape'', erased, linked, rules'⟩ :=
            keeps.erase_rules rules ((keeps.marked node).1 present) oneChild colorOrRoot enough
          rw [if_pos present, erased] at done
          cases done
          refine ⟨shape'', linked.congr (by simp) (by simp), ?_⟩
          have sameRed : (tree'.setTree node false).isRed = tree'.isRed :=
            funext fun cell => isRed_congr (congrFun (colors_setTree tree' node false) cell)
          rw [sameRed]
          exact rules'
        · rw [if_neg present] at done
          cases done
          exact ⟨shape, keeps.linked, rules⟩
    | clear =>
        obtain ⟨tree', cleared, linked, _⟩ :=
          clear_shape keeps.linked (by rw [keeps.numNodes]; exact enough : shape.numNodes < fuel)
        cases cleared.symm.trans done
        exact ⟨.nil, linked, ⟨nofun, 0, colored_nil⟩⟩
  obtain ⟨shape'', linked, rules'⟩ := colored
  rw [Focus.unique_shape linked kept.linked] at rules'
  exact ⟨next, shape', done, kept, rules'⟩

theorem Keeps.even_run (keeps : Keeps compare live tree shape) (rules : Rules tree.isRed shape)
    (operations : List (Operation Ptr)) (permitted : Permitted live operations)
    (even : EvenRun compare fuel tree operations)
    (enough : live.length + operations.length < fuel) {before : List (Operation Ptr)}
    (isPrefix : before <+: operations) :
    ∃ next shape', RbTree.run compare fuel tree before = .ok next ∧
      Keeps compare (RbTree.arrivals live before) next shape' ∧ Rules next.isRed shape' := by
  induction operations generalizing live tree shape before with
  | nil =>
      rw [List.prefix_nil] at isPrefix
      subst isPrefix
      exact ⟨tree, shape, rfl, keeps, rules⟩
  | cons operation rest ih =>
      cases before with
      | nil => exact ⟨tree, shape, rfl, keeps, rules⟩
      | cons first later =>
          obtain ⟨same, isLater⟩ := List.cons_prefix_cons.1 isPrefix
          subst same
          rw [List.length_cons] at enough
          obtain ⟨next, shape', done, kept, rules'⟩ :=
            keeps.even_step rules first permitted.1 even.1 (by omega : live.length < fuel)
          have grown := first.arrivals_length live
          have evenRest := even.2
          rw [done] at evenRest
          obtain ⟨last, shapeLast, ran, keptLast, rulesLast⟩ :=
            ih kept rules' permitted.2 evenRest (by omega) isLater
          refine ⟨last, shapeLast, ?_, keptLast, rulesLast⟩
          rw [RbTree.run, done]
          exact ran

end Runs

/-- A removal keeps the colour rules exactly when its node is red or the root; a history
of insertions and such removals keeps the depth logarithmic. -/
theorem even_removals_keep_rules (compare : Ptr → Ptr → Prop) [DecidableRel compare]
    [IsStrictWeakOrder Ptr compare] (fuel : Nat) :
    (∀ (tree : RbTree Ptr) (shape : BinaryTree Ptr) (node : Ptr), Shape tree shape →
      Rules tree.isRed shape → node ∈ inorder shape → tree.AtMostOneChild node →
      shape.numNodes < fuel →
        ((∃ tree' shape', doErase fuel tree node = .ok tree' ∧ Shape tree' shape' ∧
            Rules tree'.isRed shape') ↔
          tree.colors node = .red ∨ tree.root = some node)) ∧
      ∀ operations before : List (Operation Ptr), operations.length < fuel →
        Permitted [] operations → EvenRun compare fuel empty operations →
        before <+: operations →
          ∃ tree shape, run compare fuel empty before = .ok tree ∧ Shape tree shape ∧
            (inorder shape).Perm (arrivals [] before) ∧ Rules tree.isRed shape ∧
            shape.height ≤ 2 * Nat.log 2 ((arrivals [] before).length + 1) := by
  constructor
  · intro tree shape node linked rules member oneChild enough
    exact doErase_rules_iff linked rules member oneChild enough
  · intro operations before enough permitted even isPrefix
    obtain ⟨tree, shape, ran, kept, rules⟩ := (Keeps.initial compare).even_run
      ⟨nofun, 0, colored_nil⟩ operations permitted even (by rw [List.length_nil]; omega) isPrefix
    refine ⟨tree, shape, ran, kept.linked, kept.sorted.perm, rules, ?_⟩
    rw [← kept.numNodes]
    exact rules.height_le_log

/-- The red leaf of a chain, and a history that erases a red node and the root. -/
theorem even_removals_keep_rules_chain :
    (∃ tree' shape', doErase 4 chain 2 = .ok tree' ∧ Shape tree' shape' ∧
        Rules tree'.isRed shape') ∧
      ∃ tree shape, run (fun left right : Nat => left < right) 4 empty
            [.insert 1, .insert 2, .erase 1] = .ok tree ∧
        Shape tree shape ∧
        (inorder shape).Perm (arrivals [] [.insert 1, .insert 2, .erase 1]) ∧
        Rules tree.isRed shape ∧
        shape.height ≤ 2 * Nat.log 2 ((arrivals [] [.insert 1, .insert 2, .erase 1]).length + 1) :=
  have : IsStrictWeakOrder Nat fun left right => left < right :=
    StableOrder.compareByKey fun node => node
  have both := even_removals_keep_rules (fun left right : Nat => left < right) 4
  ⟨(both.1 chain (.node 1 .nil (.node 2 .nil .nil)) 2 chain_redBlack.linked chain_redBlack.rules
      (by decide) (by decide) (by decide)).2 (by decide),
    both.2 [.insert 1, .insert 2, .erase 1] _ (by decide) (by decide) (by decide)
      (List.prefix_refl _)⟩

/-- Four nodes inserted in order, and the front of the tree erased. -/
theorem erased_front_breaks_rules :
    ∃ (tree : RbTree Nat) (shape : BinaryTree Nat),
      run (fun left right => left < right) 8 empty
          [.insert 1, .insert 2, .insert 3, .insert 4] = .ok tree ∧
        Shape tree shape ∧ Rules tree.isRed shape ∧ getFront 8 tree = .ok 1 ∧
        1 ∈ inorder shape ∧ tree.AtMostOneChild 1 ∧
        ¬∃ tree' shape', doErase 8 tree 1 = .ok tree' ∧ Shape tree' shape' ∧
          Rules tree'.isRed shape' := by
  have : IsStrictWeakOrder Nat fun left right => left < right :=
    StableOrder.compareByKey fun node => node
  have even : EvenRun (fun left right => left < right) 8 (empty : RbTree Nat)
      [.insert 1, .insert 2, .insert 3, .insert 4] := by decide
  obtain ⟨tree, shape, ran, kept, rules⟩ :=
    (Keeps.initial fun left right : Nat => left < right).even_run ⟨nofun, 0, colored_nil⟩
      [.insert 1, .insert 2, .insert 3, .insert 4] (by decide) even (by decide)
      (List.prefix_refl _)
  have facts : ∃ tree : RbTree Nat, run (fun left right => left < right) 8 empty
        [.insert 1, .insert 2, .insert 3, .insert 4] = .ok tree ∧
      getFront 8 tree = .ok 1 ∧ tree.AtMostOneChild 1 ∧
      ¬(tree.colors 1 = .red ∨ tree.root = some 1) :=
    ⟨_, rfl, rfl, by decide, by decide⟩
  obtain ⟨same, ran', front, oneChild, neither⟩ := facts
  cases ran.symm.trans ran'
  have member : 1 ∈ inorder shape := (kept.mem_iff 1).2 (by decide)
  refine ⟨tree, shape, ran, kept.linked, rules, front, member, oneChild, ?_⟩
  rw [doErase_rules_iff kept.linked rules member oneChild (by rw [kept.numNodes]; decide)]
  exact neither

end MCoro.RbTree
