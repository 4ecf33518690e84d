/-
Histories of one intrusive list.

`Holds` ties the links to the sequence that the operations make: the root and the
nodes of the sequence form a ring, and every other node points nowhere. Each operation
changes the ring as it changes the sequence, so a history keeps the two together.
-/

import MCoro.Utils.IntrusiveList

namespace MCoro.ListHead

open LinkedRing

variable {Node : Type}

def links (list : ListHead Node) : Links (ListAddress Node) :=
  { next := list.listNext
    prev := list.listPrev }

def Holds (list : ListHead Node) (cells : List Node) : Prop :=
  list.links.Ring .root (cells.map .node)

/-- The address in front of a place of the sequence. -/
def ahead (front : List Node) : ListAddress Node :=
  before .root (front.map .node)

/-- The address behind a place of the sequence. -/
def behind (back : List Node) : ListAddress Node :=
  after .root (back.map .node)

@[simp] theorem ahead_nil : ahead ([] : List Node) = .root := rfl

@[simp] theorem ahead_concat (front : List Node) (node : Node) :
    ahead (front ++ [node]) = .node node := by
  unfold ahead
  rw [List.map_append]
  exact before_concat ..

@[simp] theorem behind_nil : behind ([] : List Node) = .root := rfl

@[simp] theorem behind_cons (node : Node) (back : List Node) :
    behind (node :: back) = .node node := rfl

theorem holds_initial : (initial : ListHead Node).Holds [] := by
  constructor
  case path => exact Links.Path.single ⟨rfl, rfl⟩
  case nodup => exact List.nodup_singleton _
  case outside =>
    intro address stranger
    cases address with
    | root => exact absurd List.mem_cons_self stranger
    | node node => exact ⟨rfl, rfl⟩

theorem node_mem {cells : List Node} {node : Node} :
    ListAddress.node node ∈ .root :: cells.map .node ↔ node ∈ cells := by
  rw [List.mem_cons, List.mem_map]
  constructor
  · intro met
    rcases met with atRoot | ⟨other, member, same⟩
    · cases atRoot
    · cases same
      exact member
  · intro member
    exact .inr ⟨node, member, rfl⟩

theorem Holds.nodup {list : ListHead Node} {cells : List Node} (holds : list.Holds cells) :
    cells.Nodup :=
  (List.nodup_cons.1 (Links.Ring.nodup holds)).2.of_map _

theorem Holds.unlinked {list : ListHead Node} {cells : List Node} (holds : list.Holds cells)
    {node : Node} (outside : node ∉ cells) :
    list.listNext (.node node) = none ∧ list.listPrev (.node node) = none :=
  Links.Ring.outside holds (.node node) (fun member => outside (node_mem.1 member))

/-! ### Walks -/

/-- The links as a direction sees them. -/
def Direction.links (direction : Direction) (list : ListHead Node) : Links (ListAddress Node) :=
  match direction with
  | .forward => list.links
  | .backward => list.links.flip

theorem Direction.links_next (direction : Direction) (list : ListHead Node) :
    (direction.links list).next = list.follow direction := by
  cases direction with
  | forward => rfl
  | backward => rfl

theorem visited_path {list : ListHead Node} {direction : Direction} {cells : List Node}
    {start : ListAddress Node}
    (path : (direction.links list).Path start (cells.map .node) .root) {fuel : Nat}
    (enough : cells.length < fuel) : list.visited direction (some start) fuel = .ok cells := by
  induction cells generalizing start fuel with
  | nil =>
      cases fuel with
      | zero => cases enough
      | succ fuel =>
          have atRoot : start = .root := path
          rw [atRoot]
          rfl
  | cons node rest ih =>
      cases fuel with
      | zero => cases enough
      | succ fuel =>
          obtain ⟨same, following, linked, later⟩ := path
          have next := linked.1
          rw [direction.links_next] at next
          have visits := ih later (Nat.lt_of_succ_lt_succ enough)
          rw [same]
          change (list.visited direction (list.follow direction (.node node)) fuel >>=
            fun rest => pure (node :: rest)) = _
          rw [next, visits]
          rfl

theorem walk_ring {list : ListHead Node} {cells : List Node} (direction : Direction)
    (ring : (direction.links list).Ring .root (cells.map .node)) {fuel : Nat}
    (enough : cells.length < fuel) : list.walk direction fuel = .ok cells := by
  obtain ⟨_, following, linked, path⟩ := ring.path
  have next := linked.1
  rw [direction.links_next] at next
  unfold walk
  rw [next]
  exact visited_path path enough

theorem Holds.forward {list : ListHead Node} {cells : List Node} (holds : list.Holds cells)
    {fuel : Nat} (enough : cells.length < fuel) : list.walk .forward fuel = .ok cells :=
  walk_ring .forward holds enough

theorem Holds.backward {list : ListHead Node} {cells : List Node} (holds : list.Holds cells)
    {fuel : Nat} (enough : cells.length < fuel) : list.walk .backward fuel = .ok cells.reverse := by
  have ring := Links.Ring.flip holds
  rw [← List.map_reverse] at ring
  rw [← List.length_reverse] at enough
  exact walk_ring .backward ring enough

/-! ### Writes -/

variable [DecidableEq Node]

@[simp] theorem listNext_setNext (list : ListHead Node) (address : ListAddress Node)
    (pointer : Option (ListAddress Node)) :
    (list.setNext address pointer).listNext = Function.update list.listNext address pointer := by
  funext probe
  change (Function.update list.deref address _ probe).listNext = _
  by_cases same : probe = address
  · subst same
    rw [Function.update_self, Function.update_self]
  · rw [Function.update_of_ne same, Function.update_of_ne same]
    rfl

@[simp] theorem listPrev_setNext (list : ListHead Node) (address : ListAddress Node)
    (pointer : Option (ListAddress Node)) :
    (list.setNext address pointer).listPrev = list.listPrev := by
  funext probe
  change (Function.update list.deref address _ probe).listPrev = _
  by_cases same : probe = address
  · subst same
    rw [Function.update_self]
    rfl
  · rw [Function.update_of_ne same]
    rfl

@[simp] theorem listPrev_setPrev (list : ListHead Node) (address : ListAddress Node)
    (pointer : Option (ListAddress Node)) :
    (list.setPrev address pointer).listPrev = Function.update list.listPrev address pointer := by
  funext probe
  change (Function.update list.deref address _ probe).listPrev = _
  by_cases same : probe = address
  · subst same
    rw [Function.update_self, Function.update_self]
  · rw [Function.update_of_ne same, Function.update_of_ne same]
    rfl

@[simp] theorem listNext_setPrev (list : ListHead Node) (address : ListAddress Node)
    (pointer : Option (ListAddress Node)) :
    (list.setPrev address pointer).listNext = list.listNext := by
  funext probe
  change (Function.update list.deref address _ probe).listNext = _
  by_cases same : probe = address
  · subst same
    rw [Function.update_self]
    rfl
  · rw [Function.update_of_ne same]
    rfl

omit [DecidableEq Node] in
theorem target_some (address : ListAddress Node) : target (some address) = .ok address :=
  rfl

theorem deref_reset (list : ListHead Node) (address : ListAddress Node) :
    (list.reset address).deref =
      Function.update list.deref address { listNext := none, listPrev := none } := by
  unfold reset setPrev setNext write
  simp

theorem linkAfter_links {list : ListHead Node} {pivot following : ListAddress Node} {node : Node}
    (next : list.listNext pivot = some following) (apart : pivot ≠ .node node) :
    ∃ linked, list.linkAfter pivot node = .ok linked ∧
      linked.links = list.links.link pivot (.node node) following := by
  let entered := ((list.setNext (.node node) (list.listNext pivot)).setPrev (.node node)
    (some pivot)).setNext pivot (some (.node node))
  have read : entered.listNext (.node node) = some following := by
    simp [entered, next, Function.update_of_ne apart.symm]
  refine ⟨entered.setPrev following (some (.node node)), ?_, ?_⟩
  · change (target (entered.listNext (.node node)) >>= _) = _
    rw [read]
    rfl
  · unfold links Links.link
    simp [entered, next]

theorem linkBefore_links {list : ListHead Node} {pivot preceding : ListAddress Node} {node : Node}
    (prev : list.listPrev pivot = some preceding) (apart : pivot ≠ .node node) :
    ∃ linked, list.linkBefore pivot node = .ok linked ∧
      linked.links = list.links.link preceding (.node node) pivot := by
  let pointed := list.setNext (.node node) (some pivot)
  let entered := (pointed.setPrev (.node node) (pointed.listPrev pivot)).setPrev pivot
    (some (.node node))
  have read : entered.listPrev (.node node) = some preceding := by
    simp [entered, pointed, prev, Function.update_of_ne apart.symm]
  refine ⟨entered.setNext preceding (some (.node node)), ?_, ?_⟩
  · change (target (entered.listPrev (.node node)) >>= _) = _
    rw [read]
    rfl
  · unfold links Links.link
    simp [entered, pointed, prev]

theorem unlink_links {list : ListHead Node} {address preceding following : ListAddress Node}
    (next : list.listNext address = some following) (prev : list.listPrev address = some preceding)
    (apart : following ≠ address) :
    ∃ unlinked, list.unlink address = .ok unlinked ∧
      unlinked.links = list.links.unlink preceding address following := by
  let bent := list.setPrev following (list.listPrev address)
  have read : bent.listPrev address = some preceding := by
    simp [bent, prev, Function.update_of_ne apart.symm]
  refine ⟨(bent.setNext preceding (bent.listNext address)).reset address, ?_, ?_⟩
  · unfold unlink
    rw [next]
    change (target (bent.listPrev address) >>= _) = _
    rw [read]
    rfl
  · unfold links Links.unlink reset
    simp [bent, next, prev]

theorem eraseFromParent_links {list : ListHead Node} {node : Node}
    {preceding following : ListAddress Node} (next : list.listNext (.node node) = some following)
    (prev : list.listPrev (.node node) = some preceding) :
    ∃ unlinked, list.eraseFromParent node = .ok unlinked ∧
      unlinked.links = list.links.unlink preceding (.node node) following := by
  let bent := (list.setNext preceding (some following)).setPrev following (some preceding)
  refine ⟨(bent.setPrev (.node node) none).setNext (.node node) none, ?_, ?_⟩
  · unfold eraseFromParent
    rw [next, prev]
    rfl
  · unfold links Links.unlink
    simp [bent]

/-! ### Inserts -/

theorem Holds.link {list : ListHead Node} {front back : List Node}
    (holds : list.Holds (front ++ back)) {node : Node} (new : node ∉ front ++ back) :
    list.links.Linked (ahead front) (behind back) ∧ ahead front ≠ .node node ∧
      behind back ≠ .node node ∧
      (list.links.link (ahead front) (.node node) (behind back)).Ring .root
        ((front ++ node :: back).map .node) := by
  have ring : list.links.Ring .root (front.map .node ++ back.map .node) := by
    rw [← List.map_append]
    exact holds
  have outside : ListAddress.node node ∉ .root :: (front.map .node ++ back.map .node) := by
    rw [← List.map_append, node_mem]
    exact new
  have inside := ring.linked_mem ring.edge
  rw [List.map_append, List.map_cons]
  refine ⟨ring.edge, ?_, ?_, ring.link outside⟩
  · intro same
    exact outside (same ▸ inside.1)
  · intro same
    exact outside (same ▸ inside.2)

theorem Holds.linkAfter {list : ListHead Node} {front back : List Node}
    {pivot : ListAddress Node} (holds : list.Holds (front ++ back)) {node : Node}
    (new : node ∉ front ++ back) (last : ahead front = pivot) :
    ∃ linked, list.linkAfter pivot node = .ok linked ∧ linked.Holds (front ++ node :: back) := by
  obtain ⟨edge, apart, _, ring⟩ := holds.link new
  rw [last] at edge apart ring
  obtain ⟨linked, returns, links⟩ := linkAfter_links edge.1 apart
  refine ⟨linked, returns, ?_⟩
  unfold Holds
  rw [links]
  exact ring

theorem Holds.linkBefore {list : ListHead Node} {front back : List Node}
    {pivot : ListAddress Node} (holds : list.Holds (front ++ back)) {node : Node}
    (new : node ∉ front ++ back) (first : behind back = pivot) :
    ∃ linked, list.linkBefore pivot node = .ok linked ∧ linked.Holds (front ++ node :: back) := by
  obtain ⟨edge, _, apart, ring⟩ := holds.link new
  rw [first] at edge apart ring
  obtain ⟨linked, returns, links⟩ := linkBefore_links edge.2 apart
  refine ⟨linked, returns, ?_⟩
  unfold Holds
  rw [links]
  exact ring

/-! ### Removals -/

theorem Holds.neighbours {list : ListHead Node} {front back : List Node} {node : Node}
    (holds : list.Holds (front ++ node :: back)) :
    list.links.Linked (ahead front) (.node node) ∧
      list.links.Linked (.node node) (behind back) ∧
      behind back ≠ .node node ∧
      (list.links.unlink (ahead front) (.node node) (behind back)).Ring .root
        ((front ++ back).map .node) := by
  have ring : list.links.Ring .root (front.map .node ++ .node node :: back.map .node) := by
    rw [← List.map_cons, ← List.map_append]
    exact holds
  have nodup := holds.nodup
  rw [List.nodup_append, List.nodup_cons] at nodup
  have apart : behind back ≠ .node node := by
    intro same
    have member : behind back ∈ .root :: back.map .node := after_mem ..
    rw [same, node_mem] at member
    exact nodup.2.1.1 member
  rw [List.map_append]
  exact ⟨ring.edges.1, ring.edges.2, apart, ring.unlink⟩

theorem Holds.unlink {list : ListHead Node} {front back : List Node} {node : Node}
    (holds : list.Holds (front ++ node :: back)) :
    ∃ unlinked, list.unlink (.node node) = .ok unlinked ∧ unlinked.Holds (front ++ back) := by
  obtain ⟨first, second, apart, ring⟩ := holds.neighbours
  obtain ⟨unlinked, returns, links⟩ := unlink_links second.1 first.2 apart
  refine ⟨unlinked, returns, ?_⟩
  unfold Holds
  rw [links]
  exact ring

theorem Holds.destroy {list : ListHead Node} {front back : List Node} {node : Node}
    (holds : list.Holds (front ++ node :: back)) :
    ∃ unlinked, list.eraseFromParent node = .ok unlinked ∧ unlinked.Holds (front ++ back) := by
  obtain ⟨first, second, _, ring⟩ := holds.neighbours
  obtain ⟨unlinked, returns, links⟩ := eraseFromParent_links second.1 first.2
  refine ⟨unlinked, returns, ?_⟩
  unfold Holds
  rw [links]
  exact ring

theorem Holds.destroy_outside {list : ListHead Node} {cells : List Node} (holds : list.Holds cells)
    {node : Node} (outside : node ∉ cells) : list.eraseFromParent node = .ok list := by
  unfold eraseFromParent
  rw [(holds.unlinked outside).1]
  rfl

theorem Holds.eraseFromParent {list : ListHead Node} {cells : List Node} (holds : list.Holds cells)
    (node : Node) :
    ∃ unlinked, list.eraseFromParent node = .ok unlinked ∧ unlinked.Holds (cells.erase node) := by
  by_cases member : node ∈ cells
  · obtain ⟨front, back, _, same, erased⟩ := List.exists_erase_eq member
    rw [same] at holds
    rw [erased]
    exact holds.destroy
  · rw [List.erase_of_not_mem member]
    exact ⟨list, holds.destroy_outside member, holds⟩

theorem Holds.popFront {list : ListHead Node} {node : Node} {rest : List Node}
    (holds : list.Holds (node :: rest)) :
    ∃ popped, list.doPopFront = .ok (some (.node node), popped) ∧ popped.Holds rest := by
  have atFront : list.Holds ([] ++ node :: rest) := holds
  obtain ⟨first, second, _, ring⟩ := atFront.neighbours
  let bent := (list.setPrev (behind rest) (some .root)).setNext .root (some (behind rest))
  have front : list.listNext .root = some (.node node) := first.1
  have next : list.listNext (.node node) = some (behind rest) := second.1
  refine ⟨bent.reset (.node node), ?_, ?_⟩
  · unfold doPopFront
    rw [front]
    dsimp only
    rw [if_pos nofun]
    change (target (list.listNext (.node node)) >>= _) = _
    rw [next]
    change Except.ok (some _, ((list.setPrev _ _).setNext _
      ((list.setPrev _ _).listNext (.node node))).reset _) = _
    rw [listNext_setPrev, next]
  · have links : (bent.reset (.node node)).links =
        list.links.unlink .root (.node node) (behind rest) := by
      unfold ListHead.links Links.unlink reset
      simp [bent]
    unfold Holds
    rw [links]
    exact ring

theorem Holds.popBack {list : ListHead Node} {node : Node} {front : List Node}
    (holds : list.Holds (front ++ [node])) :
    ∃ popped, list.doPopBack = .ok (some (.node node), popped) ∧ popped.Holds front := by
  obtain ⟨_, second, _, _⟩ := holds.neighbours
  obtain ⟨popped, returns, kept⟩ := holds.unlink
  have back : list.listPrev .root = some (.node node) := second.2
  refine ⟨popped, ?_, by simpa using kept⟩
  unfold doPopBack
  simp only [back, target_some]
  change (list.unlink (.node node) >>= _) = _
  rw [returns]
  rfl

theorem Holds.pop_empty {list : ListHead Node} (holds : list.Holds []) :
    list.doPopFront = .ok (none, list) ∧ list.doPopBack = .ok (none, list) := by
  have nothing : list.links.Ring .root ([] ++ []) := holds
  have edge := nothing.edge
  have front : list.listNext .root = some .root := edge.1
  have back : list.listPrev .root = some .root := edge.2
  constructor
  · unfold doPopFront
    rw [front]
    rfl
  · unfold doPopBack
    rw [back]
    rfl

/-! ### Clearing -/

theorem clearLoop_path {list : ListHead Node} {cells : List Node} {start : ListAddress Node}
    (path : list.links.Path start (cells.map .node) .root) (nodup : cells.Nodup) {fuel : Nat}
    (enough : cells.length < fuel) :
    ∃ cleared, list.clearLoop (some start) fuel = .ok cleared ∧
      (∀ node ∈ cells, cleared.deref (.node node) = { listNext := none, listPrev := none }) ∧
      ∀ node ∉ cells, cleared.deref (.node node) = list.deref (.node node) := by
  induction cells generalizing list start fuel with
  | nil =>
      cases fuel with
      | zero => cases enough
      | succ fuel =>
          have atRoot : start = .root := path
          rw [atRoot]
          exact ⟨list, rfl, nofun, fun node _ => rfl⟩
  | cons node rest ih =>
      cases fuel with
      | zero => cases enough
      | succ fuel =>
          obtain ⟨same, following, linked, later⟩ := path
          rw [List.nodup_cons] at nodup
          have kept : (list.reset (.node node)).links.Path following (rest.map .node) .root := by
            refine later.mono fun other member next met edge => ?_
            have otherNode : other ≠ .node node := by
              intro equal
              rw [equal, List.mem_map] at member
              obtain ⟨inner, inside, equal⟩ := member
              cases equal
              exact nodup.1 inside
            have nextNode : next ≠ .node node := by
              intro equal
              rw [equal, List.mem_append, List.mem_map, List.mem_singleton] at met
              rcases met with ⟨inner, inside, equal⟩ | atRoot
              · cases equal
                exact nodup.1 inside
              · cases atRoot
            constructor
            · change (list.reset (.node node)).listNext other = some next
              unfold reset
              rw [listNext_setPrev, listNext_setNext, Function.update_of_ne otherNode]
              exact edge.1
            · change (list.reset (.node node)).listPrev next = some other
              unfold reset
              rw [listPrev_setPrev, listPrev_setNext, Function.update_of_ne nextNode]
              exact edge.2
          obtain ⟨cleared, returns, inside, outside⟩ :=
            ih kept nodup.2 (Nat.lt_of_succ_lt_succ enough)
          have next : list.listNext (.node node) = some following := linked.1
          refine ⟨cleared, ?_, ?_, ?_⟩
          · rw [same]
            change (list.reset (.node node)).clearLoop (list.listNext (.node node)) fuel = _
            rw [next]
            exact returns
          · intro other member
            rcases List.mem_cons.1 member with first | further
            · rw [first, outside node nodup.1, deref_reset, Function.update_self]
            · exact inside other further
          · intro other stranger
            rw [List.mem_cons, not_or] at stranger
            have different : ListAddress.node other ≠ .node node :=
              fun equal => stranger.1 (ListAddress.node.inj equal)
            rw [outside other stranger.2, deref_reset, Function.update_of_ne different]

theorem Holds.clear {list : ListHead Node} {cells : List Node} (holds : list.Holds cells)
    {fuel : Nat} (enough : cells.length < fuel) :
    ∃ cleared, list.doClear fuel = .ok cleared ∧ cleared.Holds [] := by
  obtain ⟨_, following, linked, path⟩ := Links.Ring.path holds
  have next : list.listNext .root = some following := linked.1
  obtain ⟨cleared, returns, inside, outside⟩ := clearLoop_path path holds.nodup enough
  have null : ∀ node, cleared.deref (.node node) = { listNext := none, listPrev := none } := by
    intro node
    by_cases member : node ∈ cells
    · exact inside node member
    · have nowhere := holds.unlinked member
      rw [outside node member]
      unfold listNext listPrev at nowhere
      cases pointers : list.deref (.node node) with
      | mk listNext listPrev =>
          rw [pointers] at nowhere
          rw [show listNext = none from nowhere.1, show listPrev = none from nowhere.2]
  refine ⟨(cleared.setPrev .root (some .root)).setNext .root (some .root), ?_, ?_⟩
  · unfold doClear
    rw [next, returns]
    rfl
  · have nextOf : ∀ address, ((cleared.setPrev .root (some .root)).setNext .root
        (some .root)).listNext address =
        Function.update cleared.listNext .root (some .root) address := by
      intro address
      rw [listNext_setNext, listNext_setPrev]
    have prevOf : ∀ address, ((cleared.setPrev .root (some .root)).setNext .root
        (some .root)).listPrev address =
        Function.update cleared.listPrev .root (some .root) address := by
      intro address
      rw [listPrev_setNext, listPrev_setPrev]
    constructor
    case path =>
      apply Links.Path.single
      constructor
      · exact (nextOf .root).trans (Function.update_self ..)
      · exact (prevOf .root).trans (Function.update_self ..)
    case nodup => exact List.nodup_singleton _
    case outside =>
      intro address stranger
      cases address with
      | root => exact absurd List.mem_cons_self stranger
      | node node =>
          have different : ListAddress.node node ≠ .root := nofun
          constructor
          · refine (nextOf (.node node)).trans ?_
            rw [Function.update_of_ne different]
            exact congrArg ListNode.listNext (null node)
          · refine (prevOf (.node node)).trans ?_
            rw [Function.update_of_ne different]
            exact congrArg ListNode.listPrev (null node)

/-! ### The sequence -/

inductive Operation (Node : Type) where
  | pushFront (node : Node)
  | pushBack (node : Node)
  | insertBefore (pivot node : Node)
  | insertAfter (pivot node : Node)
  | erase (node : Node)
  | popFront
  | popBack
  | clear
  /-- The destructor. The node may be constructed again. -/
  | destroy (node : Node)
  deriving DecidableEq, Repr

def Operation.apply (fuel : Nat) (list : ListHead Node) :
    Operation Node → Except Fault (ListHead Node)
  | .pushFront node => list.doPushFront node
  | .pushBack node => list.doPushBack node
  | .insertBefore pivot node => list.doInsertBefore pivot node
  | .insertAfter pivot node => list.doInsertAfter pivot node
  | .erase node => list.doErase node
  | .popFront => list.doPopFront.map Prod.snd
  | .popBack => list.doPopBack.map Prod.snd
  | .clear => list.doClear fuel
  | .destroy node => list.eraseFromParent node

def run (fuel : Nat) (list : ListHead Node) :
    List (Operation Node) → Except Fault (ListHead Node)
  | [] => .ok list
  | operation :: rest => (operation.apply fuel list).bind fun next => run fuel next rest

def putBefore (pivot node : Node) : List Node → List Node
  | [] => []
  | head :: rest =>
      if head = pivot then node :: head :: rest else head :: putBefore pivot node rest

def putAfter (pivot node : Node) : List Node → List Node
  | [] => []
  | head :: rest =>
      if head = pivot then head :: node :: rest else head :: putAfter pivot node rest

/-- What an operation makes of the sequence. -/
def Operation.change (cells : List Node) : Operation Node → List Node
  | .pushFront node => node :: cells
  | .pushBack node => cells ++ [node]
  | .insertBefore pivot node => putBefore pivot node cells
  | .insertAfter pivot node => putAfter pivot node cells
  | .erase node => cells.erase node
  | .popFront => cells.tail
  | .popBack => cells.dropLast
  | .clear => []
  | .destroy node => cells.erase node

def sequence (cells : List Node) (operations : List (Operation Node)) : List Node :=
  operations.foldl Operation.change cells

omit [DecidableEq Node] in
def Operation.Allowed (cells : List Node) : Operation Node → Prop
  | .pushFront node | .pushBack node => node ∉ cells
  | .insertBefore pivot node | .insertAfter pivot node => pivot ∈ cells ∧ node ∉ cells
  | .erase node => node ∈ cells
  | .popFront | .popBack | .clear | .destroy _ => True

def AllAllowed (cells : List Node) : List (Operation Node) → Prop
  | [] => True
  | operation :: rest => operation.Allowed cells ∧ AllAllowed (operation.change cells) rest

instance decidableListAllowed (cells : List Node) (operation : Operation Node) :
    Decidable (operation.Allowed cells) :=
  match operation with
  | .pushFront node | .pushBack node => inferInstanceAs (Decidable (node ∉ cells))
  | .insertBefore pivot node | .insertAfter pivot node =>
      inferInstanceAs (Decidable (pivot ∈ cells ∧ node ∉ cells))
  | .erase node => inferInstanceAs (Decidable (node ∈ cells))
  | .popFront | .popBack | .clear | .destroy _ => isTrue trivial

instance decidableAllAllowed : (cells : List Node) → (operations : List (Operation Node)) →
    Decidable (AllAllowed cells operations)
  | _, [] => isTrue trivial
  | cells, operation :: rest =>
      have := decidableAllAllowed (operation.change cells) rest
      inferInstanceAs (Decidable (_ ∧ _))

theorem putBefore_split {front back : List Node} {pivot node : Node} (first : pivot ∉ front) :
    putBefore pivot node (front ++ pivot :: back) = front ++ node :: pivot :: back := by
  induction front with
  | nil => exact if_pos rfl
  | cons head rest ih =>
      rw [List.mem_cons, not_or] at first
      change (if head = pivot then _ else head :: putBefore pivot node (rest ++ pivot :: back)) = _
      rw [if_neg (fun same => first.1 same.symm), ih first.2]
      rfl

theorem putAfter_split {front back : List Node} {pivot node : Node} (first : pivot ∉ front) :
    putAfter pivot node (front ++ pivot :: back) = front ++ pivot :: node :: back := by
  induction front with
  | nil => exact if_pos rfl
  | cons head rest ih =>
      rw [List.mem_cons, not_or] at first
      change (if head = pivot then _ else head :: putAfter pivot node (rest ++ pivot :: back)) = _
      rw [if_neg (fun same => first.1 same.symm), ih first.2]
      rfl

theorem putBefore_length (pivot node : Node) (cells : List Node) :
    (putBefore pivot node cells).length ≤ cells.length + 1 := by
  induction cells with
  | nil => exact Nat.zero_le 1
  | cons head rest ih =>
      unfold putBefore
      split
      · exact Nat.le_refl _
      · exact Nat.succ_le_succ ih

theorem putAfter_length (pivot node : Node) (cells : List Node) :
    (putAfter pivot node cells).length ≤ cells.length + 1 := by
  induction cells with
  | nil => exact Nat.zero_le 1
  | cons head rest ih =>
      unfold putAfter
      split
      · exact Nat.le_refl _
      · exact Nat.succ_le_succ ih

theorem Operation.change_length (operation : Operation Node) (cells : List Node) :
    (operation.change cells).length ≤ cells.length + 1 := by
  cases operation with
  | pushFront node => exact Nat.le_refl _
  | pushBack node => exact Nat.le_of_eq (List.length_append ..)
  | insertBefore pivot node => exact putBefore_length pivot node cells
  | insertAfter pivot node => exact putAfter_length pivot node cells
  | erase node | destroy node => exact Nat.le_succ_of_le List.length_erase_le
  | popFront =>
      change cells.tail.length ≤ _
      rw [List.length_tail]
      omega
  | popBack =>
      change cells.dropLast.length ≤ _
      rw [List.length_dropLast]
      omega
  | clear => exact Nat.zero_le _

theorem exists_split {cells : List Node} {node : Node} (member : node ∈ cells) :
    ∃ front back, cells = front ++ node :: back ∧ node ∉ front ∧
      cells.erase node = front ++ back := by
  obtain ⟨front, back, notIn, same, erased⟩ := List.exists_erase_eq member
  exact ⟨front, back, same, notIn, erased⟩

theorem Holds.step {list : ListHead Node} {cells : List Node} (holds : list.Holds cells)
    {operation : Operation Node} (allowed : operation.Allowed cells) {fuel : Nat}
    (enough : cells.length < fuel) :
    ∃ next, operation.apply fuel list = .ok next ∧ next.Holds (operation.change cells) := by
  cases operation with
  | pushFront node =>
      have whole : list.Holds ([] ++ cells) := holds
      exact whole.linkAfter allowed rfl
  | pushBack node =>
      have whole : list.Holds (cells ++ []) := by
        rw [List.append_nil]
        exact holds
      rw [← List.append_nil cells] at allowed
      exact whole.linkBefore allowed rfl
  | insertBefore pivot node =>
      obtain ⟨front, back, same, first, _⟩ := exists_split allowed.1
      have new := allowed.2
      rw [same] at holds new
      change ∃ next, list.linkBefore (.node pivot) node = .ok next ∧ next.Holds (putBefore _ _ _)
      rw [same, putBefore_split first]
      exact holds.linkBefore new rfl
  | insertAfter pivot node =>
      obtain ⟨front, back, same, first, _⟩ := exists_split allowed.1
      have new := allowed.2
      have shifted : front ++ pivot :: back = (front ++ [pivot]) ++ back := by
        rw [List.append_assoc, List.singleton_append]
      rw [same, shifted] at holds new
      change ∃ next, list.linkAfter (.node pivot) node = .ok next ∧ next.Holds (putAfter _ _ _)
      have moved := holds.linkAfter new (ahead_concat front pivot)
      rw [List.append_assoc, List.singleton_append] at moved
      rw [same, putAfter_split first]
      exact moved
  | erase node =>
      obtain ⟨front, back, same, _, erased⟩ := exists_split allowed
      rw [same] at holds
      change ∃ next, list.unlink (.node node) = .ok next ∧ next.Holds (cells.erase node)
      rw [erased]
      exact holds.unlink
  | popFront =>
      cases cells with
      | nil =>
          refine ⟨list, ?_, holds⟩
          change list.doPopFront.map Prod.snd = _
          rw [holds.pop_empty.1]
          rfl
      | cons node rest =>
          obtain ⟨popped, returns, kept⟩ := holds.popFront
          refine ⟨popped, ?_, kept⟩
          change list.doPopFront.map Prod.snd = _
          rw [returns]
          rfl
  | popBack =>
      rcases List.eq_nil_or_concat cells with empty | ⟨front, node, same⟩
      · subst empty
        refine ⟨list, ?_, holds⟩
        change list.doPopBack.map Prod.snd = _
        rw [holds.pop_empty.2]
        rfl
      · rw [List.concat_eq_append] at same
        subst same
        obtain ⟨popped, returns, kept⟩ := holds.popBack
        refine ⟨popped, ?_, ?_⟩
        · change list.doPopBack.map Prod.snd = _
          rw [returns]
          rfl
        · change popped.Holds (front ++ [node]).dropLast
          rw [List.dropLast_concat]
          exact kept
  | clear => exact holds.clear enough
  | destroy node => exact holds.eraseFromParent node

theorem Holds.run {list : ListHead Node} {cells : List Node} (holds : list.Holds cells)
    {operations : List (Operation Node)} (allowed : AllAllowed cells operations) {fuel : Nat}
    (enough : cells.length + operations.length < fuel) :
    ∃ last, list.run fuel operations = .ok last ∧ last.Holds (sequence cells operations) := by
  induction operations generalizing list cells with
  | nil => exact ⟨list, rfl, holds⟩
  | cons operation rest ih =>
      rw [List.length_cons] at enough
      have room : cells.length < fuel := by omega
      obtain ⟨next, returns, kept⟩ := holds.step allowed.1 room
      have longer := operation.change_length cells
      obtain ⟨last, runs, final⟩ := ih kept allowed.2 (by omega)
      refine ⟨last, ?_, final⟩
      change (operation.apply fuel list).bind _ = _
      rw [returns]
      exact runs

theorem list_follows_sequence (operations : List (Operation Node)) (fuel : Nat)
    (allowed : AllAllowed [] operations) (enough : operations.length < fuel) :
    ∃ list, run fuel .initial operations = .ok list ∧
      (∀ steps > (sequence [] operations).length,
        list.walk .forward steps = .ok (sequence [] operations) ∧
          list.walk .backward steps = .ok (sequence [] operations).reverse) ∧
      (∀ address other, list.listNext address = some other ↔ list.listPrev other = some address) ∧
      (∀ node ∉ sequence [] operations,
        list.listNext (.node node) = none ∧ list.listPrev (.node node) = none) ∧
      (∀ node ∈ sequence [] operations, ∃ rest, list.eraseFromParent node = .ok rest ∧
        rest.Holds ((sequence [] operations).erase node)) ∧
      ∀ node ∉ sequence [] operations, list.eraseFromParent node = .ok list := by
  have room : ([] : List Node).length + operations.length < fuel := by
    rw [List.length_nil, Nat.zero_add]
    exact enough
  obtain ⟨list, returns, holds⟩ := holds_initial.run allowed room
  refine ⟨list, returns, ?_, Links.Ring.inverse holds, ?_, ?_, ?_⟩
  · intro steps far
    exact ⟨holds.forward far, holds.backward far⟩
  · intro node outside
    exact holds.unlinked outside
  · intro node _
    exact holds.eraseFromParent node
  · intro node outside
    exact holds.destroy_outside outside

def errands : List (Operation Nat) :=
  [.pushFront 1, .pushBack 2, .insertBefore 1 3,
    .insertAfter 2 4, .erase 4, .popFront, .popBack, .destroy 1,
    .destroy 3, .pushBack 3, .clear, .pushFront 4]

theorem list_follows_sequence_errands :
    ∃ list, run 13 .initial errands = .ok list ∧ list.walk .forward 2 = .ok [4] := by
  have allowed : AllAllowed [] errands := by decide
  obtain ⟨list, returns, walks, _⟩ := list_follows_sequence errands 13 allowed (by decide)
  exact ⟨list, returns, (walks 2 (by decide)).1⟩

end MCoro.ListHead
