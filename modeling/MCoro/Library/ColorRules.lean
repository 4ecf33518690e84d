/-
The colour rules of red-black trees.

A colouring says which keys are red; the rules are about a tree and a colouring and
name no algorithm. `Surrounds` states them for a path, so that a subtree that keeps
its number of black nodes can be exchanged without a look at the rest of the tree.
-/

import MCoro.Library.LinkedTree

namespace MCoro.ColorRules

open LinkedTree

variable {α : Type}

/-- The numbers of black keys on the paths from the top to the empty subtrees. -/
def blackCounts (red : α → Bool) : BinaryTree α → List Nat
  | .nil => [0]
  | .node value left right =>
      (blackCounts red left ++ blackCounts red right).map fun count =>
        if red value then count else count + 1

def BlackHeight (red : α → Bool) (tree : BinaryTree α) (height : Nat) : Prop :=
  ∀ count ∈ blackCounts red tree, count = height

instance (red : α → Bool) (tree : BinaryTree α) (height : Nat) :
    Decidable (BlackHeight red tree height) :=
  inferInstanceAs (Decidable (∀ count ∈ blackCounts red tree, count = height))

def TopBlack (red : α → Bool) (tree : BinaryTree α) : Prop :=
  ∀ value, top tree = some value → red value = false

def NoRedRed (red : α → Bool) : BinaryTree α → Prop
  | .nil => True
  | .node value left right =>
      (red value = true → TopBlack red left ∧ TopBlack red right) ∧
        NoRedRed red left ∧ NoRedRed red right

/-- A subtree of a tree that obeys the rules; its top can be red. -/
structure Colored (red : α → Bool) (tree : BinaryTree α) (height : Nat) : Prop where
  noRedRed : NoRedRed red tree
  blackHeight : BlackHeight red tree height

structure Rules (red : α → Bool) (tree : BinaryTree α) : Prop where
  topBlack : TopBlack red tree
  colored : ∃ height, Colored red tree height

variable {red red' : α → Bool} {tree : BinaryTree α} {height : Nat}

/-! ### Black keys on the paths -/

theorem blackCounts_ne_nil (red : α → Bool) (tree : BinaryTree α) : blackCounts red tree ≠ [] := by
  induction tree with
  | nil => exact List.cons_ne_nil _ _
  | node value left right ihLeft ihRight =>
      intro empty
      rw [blackCounts, List.map_eq_nil_iff, List.append_eq_nil_iff] at empty
      exact ihLeft empty.1

theorem BlackHeight.unique {other : Nat} (first : BlackHeight red tree height)
    (second : BlackHeight red tree other) : height = other := by
  obtain ⟨count, member⟩ := List.exists_mem_of_ne_nil _ (blackCounts_ne_nil red tree)
  rw [← first count member, second count member]

@[simp] theorem blackHeight_nil : BlackHeight red .nil height ↔ height = 0 := by
  simp [BlackHeight, blackCounts, eq_comm]

theorem blackHeight_node {value : α} {left right : BinaryTree α} :
    BlackHeight red (.node value left right) height ↔
      ∃ below, BlackHeight red left below ∧ BlackHeight red right below ∧
        height = if red value then below else below + 1 := by
  have raised : BlackHeight red (.node value left right) height ↔
      ∀ count ∈ blackCounts red left ++ blackCounts red right,
        (if red value then count else count + 1) = height := by
    rw [BlackHeight, blackCounts]
    exact List.forall_mem_map
  rw [raised]
  constructor
  · intro same
    obtain ⟨below, member⟩ := List.exists_mem_of_ne_nil _ (blackCounts_ne_nil red left)
    have atBelow := same below (List.mem_append_left _ member)
    have equal : ∀ count ∈ blackCounts red left ++ blackCounts red right, count = below := by
      intro count inside
      have atCount := same count inside
      by_cases shade : red value = true
      · rw [if_pos shade] at atCount atBelow
        omega
      · rw [if_neg shade] at atCount atBelow
        omega
    exact ⟨below, fun count inside => equal count (List.mem_append_left _ inside),
      fun count inside => equal count (List.mem_append_right _ inside), atBelow.symm⟩
  · rintro ⟨below, leftHeight, rightHeight, rfl⟩ count inside
    rcases List.mem_append.1 inside with inLeft | inRight
    · rw [leftHeight count inLeft]
    · rw [rightHeight count inRight]

theorem blackHeight_branch (side : Side) {value : α} {near far : BinaryTree α} :
    BlackHeight red (branch side value near far) height ↔
      ∃ below, BlackHeight red near below ∧ BlackHeight red far below ∧
        height = if red value then below else below + 1 := by
  cases side with
  | left => exact blackHeight_node
  | right =>
      rw [branch, blackHeight_node]
      exact exists_congr fun below => and_left_comm

/-- A subtree whose paths do not all have the same number of black keys. -/
def Uneven (red : α → Bool) (tree : BinaryTree α) : Prop :=
  ¬∃ height, BlackHeight red tree height

theorem uneven_branch_of_ne (side : Side) {value : α} {near far : BinaryTree α} {first second : Nat}
    (nearHeight : BlackHeight red near first) (farHeight : BlackHeight red far second)
    (different : first ≠ second) : Uneven red (branch side value near far) := by
  rintro ⟨height, whole⟩
  obtain ⟨below, nearBelow, farBelow, _⟩ := (blackHeight_branch side).1 whole
  exact different ((nearHeight.unique nearBelow).trans (farBelow.unique farHeight))

theorem Uneven.branch_near (side : Side) {value : α} {near far : BinaryTree α}
    (uneven : Uneven red near) : Uneven red (branch side value near far) := by
  rintro ⟨height, whole⟩
  obtain ⟨below, nearBelow, _⟩ := (blackHeight_branch side).1 whole
  exact uneven ⟨below, nearBelow⟩

theorem Uneven.branch_far (side : Side) {value : α} {near far : BinaryTree α}
    (uneven : Uneven red far) : Uneven red (branch side value near far) := by
  rintro ⟨height, whole⟩
  obtain ⟨below, _, farBelow, _⟩ := (blackHeight_branch side).1 whole
  exact uneven ⟨below, farBelow⟩

theorem Uneven.plug {path : List (Frame α)} (uneven : Uneven red tree) :
    Uneven red (plug path tree) := by
  induction path generalizing tree with
  | nil => exact uneven
  | cons frame rest ih => exact ih (uneven.branch_near frame.side)

/-! ### Colourings that agree on a tree -/

theorem blackCounts_congr (same : ∀ cell ∈ inorder tree, red' cell = red cell) :
    blackCounts red' tree = blackCounts red tree := by
  induction tree with
  | nil => rfl
  | node value left right ihLeft ihRight =>
      simp only [inorder_node, List.mem_append, List.mem_cons] at same
      rw [blackCounts, blackCounts, ihLeft fun cell member => same cell (.inl member),
        ihRight fun cell member => same cell (.inr (.inr member)), same value (.inr (.inl rfl))]

theorem BlackHeight.congr (whole : BlackHeight red tree height)
    (same : ∀ cell ∈ inorder tree, red' cell = red cell) : BlackHeight red' tree height := by
  unfold BlackHeight
  rw [blackCounts_congr same]
  exact whole

theorem Uneven.congr (uneven : Uneven red tree)
    (same : ∀ cell ∈ inorder tree, red' cell = red cell) : Uneven red' tree := by
  rintro ⟨height, whole⟩
  exact uneven ⟨height, whole.congr fun cell member => (same cell member).symm⟩

theorem TopBlack.congr (black : TopBlack red tree)
    (same : ∀ cell ∈ inorder tree, red' cell = red cell) : TopBlack red' tree := by
  intro value atTop
  rw [same value (top_mem atTop)]
  exact black value atTop

theorem NoRedRed.congr (noRedRed : NoRedRed red tree)
    (same : ∀ cell ∈ inorder tree, red' cell = red cell) : NoRedRed red' tree := by
  induction tree with
  | nil => trivial
  | node value left right ihLeft ihRight =>
      simp only [inorder_node, List.mem_append, List.mem_cons] at same
      have sameLeft : ∀ cell ∈ inorder left, red' cell = red cell :=
        fun cell member => same cell (.inl member)
      have sameRight : ∀ cell ∈ inorder right, red' cell = red cell :=
        fun cell member => same cell (.inr (.inr member))
      refine ⟨?_, ihLeft noRedRed.2.1 sameLeft, ihRight noRedRed.2.2 sameRight⟩
      intro shade
      rw [same value (.inr (.inl rfl))] at shade
      obtain ⟨leftBlack, rightBlack⟩ := noRedRed.1 shade
      exact ⟨leftBlack.congr sameLeft, rightBlack.congr sameRight⟩

theorem topBlack_branch (side : Side) {value : α} {near far : BinaryTree α} :
    TopBlack red (branch side value near far) ↔ red value = false := by
  unfold TopBlack
  rw [top_branch]
  constructor
  · intro black
    exact black value rfl
  · rintro black other same
    cases same
    exact black

theorem noRedRed_branch (side : Side) {value : α} {near far : BinaryTree α} :
    NoRedRed red (branch side value near far) ↔
      (red value = true → TopBlack red near ∧ TopBlack red far) ∧
        NoRedRed red near ∧ NoRedRed red far := by
  cases side with
  | left => exact Iff.rfl
  | right =>
      rw [branch, NoRedRed, and_comm (a := TopBlack red far), and_comm (a := NoRedRed red far)]

theorem Colored.congr (colored : Colored red tree height)
    (same : ∀ cell ∈ inorder tree, red' cell = red cell) : Colored red' tree height where
  noRedRed := colored.noRedRed.congr same
  blackHeight := colored.blackHeight.congr same

/-! ### Putting subtrees together -/

section Branches

variable {value : α} {near far : BinaryTree α}

theorem Colored.branch_black (side : Side) (black : red value = false)
    (nearColored : Colored red near height) (farColored : Colored red far height) :
    Colored red (branch side value near far) (height + 1) := by
  constructor
  · rw [noRedRed_branch, black]
    exact ⟨nofun, nearColored.noRedRed, farColored.noRedRed⟩
  · rw [blackHeight_branch, black]
    exact ⟨height, nearColored.blackHeight, farColored.blackHeight, rfl⟩

theorem Colored.branch_red (side : Side) (isRed : red value = true)
    (nearBlack : TopBlack red near) (farBlack : TopBlack red far)
    (nearColored : Colored red near height) (farColored : Colored red far height) :
    Colored red (branch side value near far) height := by
  constructor
  · rw [noRedRed_branch]
    exact ⟨fun _ => ⟨nearBlack, farBlack⟩, nearColored.noRedRed, farColored.noRedRed⟩
  · rw [blackHeight_branch, isRed]
    exact ⟨height, nearColored.blackHeight, farColored.blackHeight, rfl⟩

theorem Colored.of_branch (side : Side) (colored : Colored red (branch side value near far) height) :
    ∃ below, Colored red near below ∧ Colored red far below ∧
      (height = if red value then below else below + 1) ∧
      (red value = true → TopBlack red near ∧ TopBlack red far) := by
  obtain ⟨redChildren, nearRed, farRed⟩ := (noRedRed_branch side).1 colored.noRedRed
  obtain ⟨below, nearHeight, farHeight, heightEq⟩ := (blackHeight_branch side).1 colored.blackHeight
  exact ⟨below, ⟨nearRed, nearHeight⟩, ⟨farRed, farHeight⟩, heightEq, redChildren⟩

end Branches

theorem colored_nil : Colored red .nil 0 where
  noRedRed := trivial
  blackHeight := blackHeight_nil.2 rfl

theorem Colored.eq_nil (colored : Colored red tree 0) (black : TopBlack red tree) :
    tree = .nil := by
  cases tree with
  | nil => rfl
  | node value left right =>
      obtain ⟨below, _, _, heightEq, _⟩ := Colored.of_branch .left colored
      rw [black value rfl] at heightEq
      cases heightEq

/-- The colour of the top does not even out the paths below it. -/
theorem Uneven.of_paint {value : α} {left right : BinaryTree α}
    (uneven : Uneven red (.node value left right))
    (distinct : (inorder (.node value left right)).Nodup)
    (same : ∀ cell, cell ≠ value → red' cell = red cell) :
    Uneven red' (.node value left right) := by
  rintro ⟨height, whole⟩
  obtain ⟨below, leftHeight, rightHeight, _⟩ := blackHeight_node.1 whole
  obtain ⟨notLeft, notRight, _⟩ := (nodup_branch .left value left right).1 distinct
  refine uneven ⟨_, blackHeight_node.2 ⟨below, leftHeight.congr ?_, rightHeight.congr ?_, rfl⟩⟩
  · intro cell member
    exact (same cell fun equal => notLeft (equal ▸ member)).symm
  · intro cell member
    exact (same cell fun equal => notRight (equal ▸ member)).symm

theorem Rules.of_paint {value : α} {left right : BinaryTree α}
    (colored : Colored red (.node value left right) height)
    (distinct : (inorder (.node value left right)).Nodup) (black : red' value = false)
    (same : ∀ cell, cell ≠ value → red' cell = red cell) : Rules red' (.node value left right) := by
  obtain ⟨below, leftColored, rightColored, _⟩ := Colored.of_branch .left colored
  obtain ⟨notLeft, notRight, _⟩ := (nodup_branch .left value left right).1 distinct
  constructor
  · exact (topBlack_branch .left).2 black
  · refine ⟨below + 1, Colored.branch_black .left black ?_ ?_⟩
    · exact leftColored.congr fun cell member => same cell fun equal => notLeft (equal ▸ member)
    · exact rightColored.congr fun cell member => same cell fun equal => notRight (equal ▸ member)

/-! ### The rules around a hole -/

/-- The path obeys the rules when its hole has that many black keys on every path. The
edge to the hole itself is left out. -/
def Surrounds (red : α → Bool) : List (Frame α) → Nat → Prop
  | [], _ => True
  | frame :: rest, height =>
      Colored red frame.sibling height ∧
        (red frame.key = true → TopBlack red frame.sibling ∧
          ∀ key, above rest = some key → red key = false) ∧
        Surrounds red rest (if red frame.key then height else height + 1)

theorem Surrounds.congr {path : List (Frame α)} (surrounds : Surrounds red path height)
    (same : ∀ cell ∈ pathKeys path, red' cell = red cell) : Surrounds red' path height := by
  induction path generalizing height with
  | nil => trivial
  | cons frame rest ih =>
      simp only [pathKeys, List.cons_append, List.mem_cons, List.mem_append] at same
      have sameSibling : ∀ cell ∈ inorder frame.sibling, red' cell = red cell :=
        fun cell member => same cell (.inr (.inl member))
      have sameRest : ∀ cell ∈ pathKeys rest, red' cell = red cell :=
        fun cell member => same cell (.inr (.inr member))
      have sameKey := same frame.key (.inl rfl)
      obtain ⟨siblingColored, keyRed, outer⟩ := surrounds
      refine ⟨siblingColored.congr sameSibling, ?_, ?_⟩
      · intro shade
        rw [sameKey] at shade
        obtain ⟨siblingBlack, aboveBlack⟩ := keyRed shade
        refine ⟨siblingBlack.congr sameSibling, ?_⟩
        intro key isAbove
        have member : key ∈ pathKeys rest := by
          cases rest with
          | nil => cases isAbove
          | cons next rest =>
              cases isAbove
              simp [pathKeys]
        rw [sameRest key member]
        exact aboveBlack key isAbove
      · rw [sameKey]
        exact ih outer sameRest

theorem colored_plug {path : List (Frame α)} :
    (∃ height, Colored red (plug path tree) height) ↔
      ∃ height, Colored red tree height ∧ Surrounds red path height ∧
        ∀ key, above path = some key → red key = true → TopBlack red tree := by
  induction path generalizing tree with
  | nil => simp [plug, Surrounds]
  | cons frame rest ih =>
      rw [plug, ih]
      simp only [Frame.plug, topBlack_branch, Surrounds, above_cons, Option.some.injEq,
        forall_eq']
      constructor
      · rintro ⟨height, colored, outer, edge⟩
        obtain ⟨below, treeColored, siblingColored, rfl, keyRed⟩ := Colored.of_branch _ colored
        refine ⟨below, treeColored, ⟨siblingColored, ?_, outer⟩, fun shade => (keyRed shade).1⟩
        intro shade
        refine ⟨(keyRed shade).2, ?_⟩
        intro key isAbove
        by_contra notBlack
        have black := edge key isAbove (by simpa using notBlack)
        rw [shade] at black
        cases black
      · rintro ⟨below, treeColored, ⟨siblingColored, keyRed, outer⟩, edge⟩
        refine ⟨_, ?_, outer, ?_⟩
        · by_cases shade : red frame.key = true
          · rw [if_pos shade]
            exact treeColored.branch_red _ shade (edge shade) (keyRed shade).1 siblingColored
          · rw [if_neg shade]
            exact treeColored.branch_black _ (by simpa using shade) siblingColored
        · intro key isAbove aboveRed
          by_contra notBlack
          have black := (keyRed (by simpa using notBlack)).2 key isAbove
          rw [aboveRed] at black
          cases black

/-! ### Depth -/

theorem two_pow_le_numNodes (whole : BlackHeight red tree height) :
    2 ^ height ≤ tree.numNodes + 1 := by
  induction tree generalizing height with
  | nil =>
      rw [blackHeight_nil] at whole
      subst whole
      exact Nat.le_refl _
  | node value left right ihLeft ihRight =>
      obtain ⟨below, leftHeight, rightHeight, heightEq⟩ := blackHeight_node.1 whole
      have inLeft := ihLeft leftHeight
      have inRight := ihRight rightHeight
      have raised : 2 ^ height ≤ 2 ^ below + 2 ^ below := by
        rw [← Nat.two_mul, ← Nat.pow_succ']
        apply Nat.pow_le_pow_right (by decide)
        rw [heightEq]
        split <;> omega
      rw [BinaryTree.numNodes]
      omega

theorem Colored.height_le (colored : Colored red tree height) :
    tree.height ≤ 2 * height + 1 ∧ (TopBlack red tree → tree.height ≤ 2 * height) := by
  induction tree generalizing height with
  | nil => exact ⟨Nat.zero_le _, fun _ => Nat.zero_le _⟩
  | node value left right ihLeft ihRight =>
      obtain ⟨below, leftColored, rightColored, heightEq, redChildren⟩ :=
        Colored.of_branch .left colored
      have inLeft := ihLeft leftColored
      have inRight := ihRight rightColored
      rw [BinaryTree.height]
      cases shade : red value with
      | true =>
          rw [shade, if_pos rfl] at heightEq
          obtain ⟨leftBlack, rightBlack⟩ := redChildren shade
          have shortLeft := inLeft.2 leftBlack
          have shortRight := inRight.2 rightBlack
          refine ⟨by omega, ?_⟩
          intro black
          rw [black value rfl] at shade
          cases shade
      | false =>
          rw [shade] at heightEq
          simp only [Bool.false_eq_true, if_false] at heightEq
          exact ⟨by omega, fun _ => by omega⟩

theorem Rules.height_le_log (rules : Rules red tree) :
    tree.height ≤ 2 * Nat.log 2 (tree.numNodes + 1) := by
  obtain ⟨height, colored⟩ := rules.colored
  have short := colored.height_le.2 rules.topBlack
  have few : height ≤ Nat.log 2 (tree.numNodes + 1) :=
    Nat.le_log_of_pow_le (by decide) (two_pow_le_numNodes colored.blackHeight)
  omega

end MCoro.ColorRules
