/-
Histories of one red-black tree.

`Keeps` is the invariant of the pointer structure. It speaks of links, order and
the colour of the root only, so it survives removals that break the colour
rules. A removal keeps it when its node has at most one child.
-/

import MCoro.Utils.RbTreeOperations

namespace MCoro.RbTree

open LinkedTree
open StableOrder (Sorted)

inductive Operation (Ptr : Type) where
  | insert (node : Ptr)
  | erase (node : Ptr)
  | eraseFromParent (node : Ptr)
  | clear

variable {Ptr : Type}

def Operation.apply [DecidableEq Ptr] (compare : Ptr → Ptr → Prop) [DecidableRel compare] (fuel : Nat)
    (tree : RbTree Ptr) : Operation Ptr → Except Fault (RbTree Ptr)
  | .insert node => tree.doInsert compare fuel node
  | .erase node => tree.doErase fuel node
  | .eraseFromParent node => tree.eraseFromParent fuel node
  | .clear => tree.clear fuel

/-- The nodes inserted and not yet erased, in the order of their insertion. -/
def Operation.arrivals [DecidableEq Ptr] (live : List Ptr) : Operation Ptr → List Ptr
  | .insert node => live ++ [node]
  | .erase node => live.erase node
  | .eraseFromParent node => live.erase node
  | .clear => []

def Operation.Allowed (live : List Ptr) : Operation Ptr → Prop
  | .insert node => node ∉ live
  | .erase node => node ∈ live
  | .eraseFromParent _ => True
  | .clear => True

def AtMostOneChild (tree : RbTree Ptr) (node : Ptr) : Prop :=
  tree.child node .left = none ∨ tree.child node .right = none

/-- The operation does not take a node with two children out of the tree. -/
def Operation.Simple (tree : RbTree Ptr) : Operation Ptr → Prop
  | .insert _ => True
  | .erase node => tree.AtMostOneChild node
  | .eraseFromParent node => (tree.node node).rbTree = true → tree.AtMostOneChild node
  | .clear => True

def run [DecidableEq Ptr] (compare : Ptr → Ptr → Prop) [DecidableRel compare] (fuel : Nat)
    (tree : RbTree Ptr) : List (Operation Ptr) → Except Fault (RbTree Ptr)
  | [] => .ok tree
  | operation :: rest =>
      (operation.apply compare fuel tree).bind fun next => run compare fuel next rest

def arrivals [DecidableEq Ptr] (live : List Ptr) (operations : List (Operation Ptr)) :
    List Ptr :=
  operations.foldl Operation.arrivals live

def Permitted [DecidableEq Ptr] (live : List Ptr) : List (Operation Ptr) → Prop
  | [] => True
  | operation :: rest => operation.Allowed live ∧ Permitted (operation.arrivals live) rest

/-- Every removal along the run finds its node with at most one child. -/
def SimpleRun [DecidableEq Ptr] (compare : Ptr → Ptr → Prop) [DecidableRel compare] (fuel : Nat)
    (tree : RbTree Ptr) : List (Operation Ptr) → Prop
  | [] => True
  | operation :: rest =>
      operation.Simple tree ∧
        match operation.apply compare fuel tree with
        | .ok next => SimpleRun compare fuel next rest
        | .error _ => True

section Decidability

variable [DecidableEq Ptr]

instance decidableAllowed (live : List Ptr) (operation : Operation Ptr) : Decidable (operation.Allowed live) := by
  cases operation <;> unfold Operation.Allowed <;> infer_instance

instance decidableAtMostOneChild (tree : RbTree Ptr) (node : Ptr) : Decidable (tree.AtMostOneChild node) :=
  inferInstanceAs (Decidable (_ ∨ _))

instance decidableSimple (tree : RbTree Ptr) (operation : Operation Ptr) : Decidable (operation.Simple tree) := by
  cases operation <;> unfold Operation.Simple <;> infer_instance

instance decidablePermitted : (live : List Ptr) → (operations : List (Operation Ptr)) →
    Decidable (Permitted live operations)
  | _, [] => isTrue trivial
  | live, operation :: rest =>
      have := decidablePermitted (operation.arrivals live) rest
      inferInstanceAs (Decidable (_ ∧ _))

instance decidableSimpleRun (compare : Ptr → Ptr → Prop) [DecidableRel compare] (fuel : Nat) :
    (tree : RbTree Ptr) → (operations : List (Operation Ptr)) →
      Decidable (SimpleRun compare fuel tree operations)
  | _, [] => isTrue trivial
  | tree, operation :: rest =>
      have : Decidable (match operation.apply compare fuel tree with
          | .ok next => SimpleRun compare fuel next rest
          | .error _ => True) :=
        match operation.apply compare fuel tree with
        | .ok next => decidableSimpleRun compare fuel next rest
        | .error _ => isTrue trivial
      inferInstanceAs (Decidable (_ ∧ _))

end Decidability

/-! ### The invariant -/

structure Keeps (compare : Ptr → Ptr → Prop) (live : List Ptr) (tree : RbTree Ptr)
    (shape : BinaryTree Ptr) : Prop where
  linked : Shape tree shape
  sorted : Sorted compare live (inorder shape)
  blackTop : BlackTop tree
  marked : ∀ node, tree.marks node = true ↔ node ∈ live

theorem Keeps.initial (compare : Ptr → Ptr → Prop) :
    Keeps compare [] (empty : RbTree Ptr) .nil where
  linked := ⟨rfl, trivial, List.nodup_nil⟩
  sorted := Sorted.empty compare
  blackTop := by
    intro root atRoot
    cases atRoot
  marked := by
    intro node
    simp [marks, empty, RbNode.initial]

section Steps

variable {compare : Ptr → Ptr → Prop} {live : List Ptr} {tree : RbTree Ptr}
  {shape : BinaryTree Ptr} {fuel : Nat}

theorem Keeps.nodup (keeps : Keeps compare live tree shape) : live.Nodup :=
  keeps.sorted.perm.nodup_iff.1 keeps.linked.distinct

theorem Keeps.numNodes (keeps : Keeps compare live tree shape) :
    shape.numNodes = live.length := by
  rw [← inorder_length]
  exact keeps.sorted.perm.length_eq

theorem Keeps.mem_iff (keeps : Keeps compare live tree shape) (node : Ptr) :
    node ∈ inorder shape ↔ node ∈ live :=
  keeps.sorted.perm.mem_iff

variable [DecidableEq Ptr]

theorem Keeps.insert [DecidableRel compare] [IsStrictWeakOrder Ptr compare]
    (keeps : Keeps compare live tree shape) {node : Ptr} (fresh : node ∉ live)
    (enough : live.length < fuel) :
    ∃ next shape', tree.doInsert compare fuel node = .ok next ∧
      Keeps compare (live ++ [node]) next shape' := by
  have notIn : node ∉ inorder shape := by
    rw [keeps.mem_iff]
    exact fresh
  obtain ⟨next, shape', before, after, done, linked, beforeEq, afterEq, notGreater, greater,
    black, marked⟩ := doInsert_shape compare keeps.linked keeps.sorted.not_compare
      keeps.blackTop notIn (by rw [keeps.numNodes]; exact enough)
  refine ⟨next, shape', done, linked, ?_, black, ?_⟩
  · rw [afterEq]
    have sorted := keeps.sorted
    rw [beforeEq] at sorted
    exact sorted.insert notGreater greater
  · intro probe
    rw [marked, List.mem_append, List.mem_singleton, ← keeps.marked]
    by_cases same : probe = node
    · simp [same]
    · simp [same]

omit [DecidableEq Ptr] in
theorem Keeps.focus (keeps : Keeps compare live tree shape) {node : Ptr}
    (member : node ∈ live) :
    ∃ path left right, shape = plug path (.node node left right) ∧
      Focus tree path (.node node left right) ∧
      tree.child node .left = top left ∧ tree.child node .right = top right ∧
      path.length < shape.numNodes := by
  obtain ⟨path, left, right, shapeEq⟩ :=
    exists_path shape node ((keeps.mem_iff node).2 member)
  have focus : Focus tree path (.node node left right) := by
    rw [focus_iff_shape, ← shapeEq]
    exact keeps.linked
  refine ⟨path, left, right, shapeEq, focus, focus.linked.2.1, focus.linked.2.2.1, ?_⟩
  rw [shapeEq]
  exact length_lt_numNodes_plug path (by simp)

theorem Keeps.erase (keeps : Keeps compare live tree shape) {node : Ptr}
    (member : node ∈ live) (oneChild : tree.AtMostOneChild node)
    (enough : live.length < fuel) :
    ∃ next shape', tree.doErase fuel node = .ok next ∧
      Keeps compare (live.erase node) next shape' := by
  obtain ⟨path, left, right, shapeEq, focus, leftEq, rightEq, short⟩ := keeps.focus member
  rw [keeps.numNodes] at short
  have oneSubtree : left = .nil ∨ right = .nil := by
    rcases oneChild with noLeft | noRight
    · exact .inl (top_eq_none.1 (leftEq.symm.trans noLeft))
    · exact .inr (top_eq_none.1 (rightEq.symm.trans noRight))
  obtain ⟨next, shape', done, linked, keysEq, black, marked⟩ :=
    doErase_shape focus oneSubtree keeps.blackTop (by omega : path.length < fuel)
  refine ⟨next, shape', done, linked, ?_, black, ?_⟩
  · have sorted := keeps.sorted
    rw [shapeEq, inorder_plug, inorder_node] at sorted
    have split : keysBefore path ++ (inorder left ++ node :: inorder right) ++ keysAfter path =
        (keysBefore path ++ inorder left) ++ node :: (inorder right ++ keysAfter path) := by
      simp
    rw [split] at sorted
    rw [keysEq]
    simpa using sorted.erase keeps.nodup
  · intro probe
    rw [marked, keeps.nodup.mem_erase_iff, ← keeps.marked]
    by_cases same : probe = node
    · simp [same]
    · simp [same]

theorem Keeps.eraseFromParent (keeps : Keeps compare live tree shape) {node : Ptr}
    (oneChild : (tree.node node).rbTree = true → tree.AtMostOneChild node)
    (enough : live.length < fuel) :
    ∃ next shape', tree.eraseFromParent fuel node = .ok next ∧
      Keeps compare (live.erase node) next shape' := by
  by_cases present : (tree.node node).rbTree = true
  · have member : node ∈ live := (keeps.marked node).1 present
    obtain ⟨next, shape', done, erased⟩ := keeps.erase member (oneChild present) enough
    refine ⟨next.setTree node false, shape', ?_, ?_⟩
    · rw [RbTree.eraseFromParent, if_pos present, done]
      rfl
    · refine ⟨erased.linked.congr (by simp) (by simp), erased.sorted, ?_, ?_⟩
      · intro root atRoot
        rw [colors_setTree]
        exact erased.blackTop root atRoot
      · intro probe
        rw [marks_setTree, ← erased.marked]
        by_cases same : probe = node
        · subst same
          have gone : ¬next.marks probe = true := by
            rw [erased.marked, keeps.nodup.mem_erase_iff]
            simp
          simp [gone]
        · simp [same]
  · have absent : node ∉ live := fun member => present ((keeps.marked node).2 member)
    refine ⟨tree, shape, ?_, ?_⟩
    · rw [RbTree.eraseFromParent, if_neg present]
      rfl
    · rw [List.erase_of_not_mem absent]
      exact keeps

theorem Keeps.clear (keeps : Keeps compare live tree shape) (enough : live.length < fuel) :
    ∃ next, tree.clear fuel = .ok next ∧ Keeps compare [] next .nil := by
  obtain ⟨next, done, linked, marked⟩ :=
    clear_shape keeps.linked (by rw [keeps.numNodes]; exact enough)
  refine ⟨next, done, linked, Sorted.empty compare, ?_, ?_⟩
  · intro root atRoot
    have rootEq : next.root = none := linked.hangs
    rw [rootEq] at atRoot
    cases atRoot
  · intro node
    rw [marked, keeps.mem_iff, keeps.marked]
    simp

/-- The step lemma: an allowed and simple operation succeeds and keeps the invariant. -/
theorem Keeps.step [DecidableRel compare] [IsStrictWeakOrder Ptr compare]
    (keeps : Keeps compare live tree shape) (operation : Operation Ptr)
    (allowed : operation.Allowed live) (simple : operation.Simple tree)
    (enough : live.length < fuel) :
    ∃ next shape', operation.apply compare fuel tree = .ok next ∧
      Keeps compare (operation.arrivals live) next shape' := by
  cases operation with
  | insert node => exact keeps.insert allowed enough
  | erase node => exact keeps.erase allowed simple enough
  | eraseFromParent node => exact keeps.eraseFromParent simple enough
  | clear =>
      obtain ⟨next, done, kept⟩ := keeps.clear enough
      exact ⟨next, .nil, done, kept⟩

theorem Operation.arrivals_length (live : List Ptr) (operation : Operation Ptr) :
    (operation.arrivals live).length ≤ live.length + 1 := by
  cases operation with
  | insert node => simp [Operation.arrivals]
  | erase node => exact Nat.le_succ_of_le List.length_erase_le
  | eraseFromParent node => exact Nat.le_succ_of_le List.length_erase_le
  | clear => exact Nat.zero_le _

theorem Keeps.run [DecidableRel compare] [IsStrictWeakOrder Ptr compare]
    (keeps : Keeps compare live tree shape) (operations : List (Operation Ptr))
    (permitted : Permitted live operations) (simple : SimpleRun compare fuel tree operations)
    (enough : live.length + operations.length < fuel) :
    ∃ next shape', RbTree.run compare fuel tree operations = .ok next ∧
      Keeps compare (RbTree.arrivals live operations) next shape' := by
  induction operations generalizing live tree shape with
  | nil => exact ⟨tree, shape, rfl, keeps⟩
  | cons operation rest ih =>
      simp only [List.length_cons] at enough
      obtain ⟨next, shape', done, kept⟩ :=
        keeps.step operation permitted.1 simple.1 (by omega : live.length < fuel)
      have grown := operation.arrivals_length live
      have simpleRest := simple.2
      rw [done] at simpleRest
      obtain ⟨last, shapeLast, ran, keptLast⟩ :=
        ih kept permitted.2 simpleRest (by omega)
      refine ⟨last, shapeLast, ?_, keptLast⟩
      rw [RbTree.run, done]
      exact ran

end Steps

/-! ### What a history promises -/

/-- The traversal lists the present nodes, each once, sorted and with ties in
insertion order; parent links are the actual parents. -/
structure Contract [DecidableEq Ptr] (compare : Ptr → Ptr → Prop) (fuel : Nat)
    (live : List Ptr) (tree : RbTree Ptr) : Prop where
  listed : ∃ sequence, tree.traverseInorder fuel = .ok sequence ∧ sequence.Nodup ∧
    Sorted compare live sequence
  parents : ∀ node ∈ live, ∀ side child, tree.child node side = some child →
    (tree.node child).rbParent = some node
  rootParent : ∀ root, tree.root = some root → (tree.node root).rbParent = none

/-- After each operation of the history, with no fault on the way. -/
def MeetsContract [DecidableEq Ptr] (compare : Ptr → Ptr → Prop) [DecidableRel compare]
    (fuel : Nat) (operations : List (Operation Ptr)) : Prop :=
  ∀ before, before <+: operations →
    ∃ tree, run compare fuel empty before = .ok tree ∧
      Contract compare fuel (arrivals [] before) tree

theorem Focus.child_parent {tree : RbTree Ptr} {path : List (Frame Ptr)} {node child : Ptr}
    {left right : BinaryTree Ptr} (focus : Focus tree path (.node node left right))
    (side : Side) (atSide : tree.child node side = some child) :
    (tree.node child).rbParent = some node := by
  obtain ⟨_, leftEq, rightEq, leftTree, rightTree⟩ := focus.linked
  cases side with
  | left => exact leftTree.parent_top (leftEq.symm.trans atSide)
  | right => exact rightTree.parent_top (rightEq.symm.trans atSide)

variable [DecidableEq Ptr]

theorem Keeps.contract {compare : Ptr → Ptr → Prop} {live : List Ptr} {tree : RbTree Ptr}
    {shape : BinaryTree Ptr} {fuel : Nat} (keeps : Keeps compare live tree shape)
    (enough : live.length < fuel) : Contract compare fuel live tree where
  listed := by
    rw [← keeps.numNodes] at enough
    exact ⟨inorder shape, traverseInorder_eq keeps.linked enough, keeps.linked.distinct,
      keeps.sorted⟩
  parents := by
    intro node member side child atSide
    obtain ⟨_, _, _, _, focus, _⟩ := keeps.focus member
    exact focus.child_parent side atSide
  rootParent := by
    intro root atRoot
    exact keeps.linked.linked.parent_top (keeps.linked.hangs.symm.trans atRoot)

theorem Permitted.take {live : List Ptr} {before after : List (Operation Ptr)}
    (permitted : Permitted live (before ++ after)) : Permitted live before := by
  induction before generalizing live with
  | nil => trivial
  | cons operation rest ih => exact ⟨permitted.1, ih permitted.2⟩

theorem SimpleRun.take {compare : Ptr → Ptr → Prop} [DecidableRel compare] {fuel : Nat}
    {tree : RbTree Ptr} {before after : List (Operation Ptr)}
    (simple : SimpleRun compare fuel tree (before ++ after)) :
    SimpleRun compare fuel tree before := by
  induction before generalizing tree with
  | nil => trivial
  | cons operation rest ih =>
      refine ⟨simple.1, ?_⟩
      have later := simple.2
      cases done : operation.apply compare fuel tree with
      | error fault => trivial
      | ok next =>
          rw [done] at later
          exact ih later

/-- Every history whose removals all find their node with at most one child
meets the contract after each operation. -/
theorem simple_runs_meet_contract (compare : Ptr → Ptr → Prop) [DecidableRel compare]
    [IsStrictWeakOrder Ptr compare] (operations : List (Operation Ptr)) (fuel : Nat)
    (enough : operations.length < fuel) (permitted : Permitted [] operations)
    (simple : SimpleRun compare fuel empty operations) :
    MeetsContract compare fuel operations := by
  intro before isPrefix
  obtain ⟨after, split⟩ := isPrefix
  rw [← split] at permitted simple enough
  rw [List.length_append] at enough
  obtain ⟨tree, shape, ran, keeps⟩ := (Keeps.initial compare).run before permitted.take
    simple.take (by rw [List.length_nil]; omega)
  have short : (arrivals [] before).length ≤ before.length := by
    have grown : ∀ (live : List Ptr) (operations : List (Operation Ptr)),
        (arrivals live operations).length ≤ live.length + operations.length := by
      intro live operations
      induction operations generalizing live with
      | nil => exact Nat.le_refl _
      | cons operation rest ih =>
          have first := operation.arrivals_length live
          have later := ih (operation.arrivals live)
          rw [List.length_cons]
          change (arrivals (operation.arrivals live) rest).length ≤ _
          omega
    simpa using grown [] before
  exact ⟨tree, ran, keeps.contract (by omega)⟩

/-- Three nodes; the first and the last are taken out again. -/
theorem simple_runs_meet_contract_three :
    MeetsContract (fun left right : Nat => left < right) 8
      [.insert 2, .insert 1, .insert 3, .erase 1, .eraseFromParent 3] :=
  have : IsStrictWeakOrder Nat fun left right => left < right :=
    StableOrder.compareByKey fun node => node
  simple_runs_meet_contract _ _ 8 (by decide) (by decide) (by decide)

/-- Erasing the root of a three-node tree, which has two children, empties the
traversal although two nodes are still present. -/
theorem erase_two_children_breaks_contract :
    Permitted [] [Operation.insert 2, .insert 1, .insert 3, .erase 2] ∧
      ¬MeetsContract (fun left right : Nat => left < right) 8
        [.insert 2, .insert 1, .insert 3, .erase 2] := by
  refine ⟨by decide, ?_⟩
  intro meets
  obtain ⟨tree, ran, contract⟩ := meets _ (List.prefix_refl _)
  obtain ⟨sequence, traversed, _, sorted⟩ := contract.listed
  have emptied : (run (fun left right : Nat => left < right) 8 empty
      [.insert 2, .insert 1, .insert 3, .erase 2]).bind (traverseInorder 8) = .ok [] := rfl
  rw [ran] at emptied
  have nothing : sequence = [] := Except.ok.inj (traversed.symm.trans emptied)
  have listed := sorted.perm.length_eq
  rw [nothing] at listed
  exact absurd listed (by decide)

end MCoro.RbTree
