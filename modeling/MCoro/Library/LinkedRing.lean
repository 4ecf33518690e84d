/-
Circular doubly linked lists.

Each cell may have a next and a previous cell. A ring starts at its root and comes
back to it; what it holds is the list of the cells met on the way. Linking a cell in
and taking one out change two edges, and every other edge stays, so a path that does
not use the changed edges is carried over whole.
-/

import Mathlib

namespace MCoro.LinkedRing

variable {Cell : Type}

structure Links (Cell : Type) where
  next : Cell → Option Cell
  prev : Cell → Option Cell

/-- The cell ahead of a place, given what the ring holds before it. -/
def before (root : Cell) (front : List Cell) : Cell :=
  front.getLast?.getD root

/-- The cell behind a place, given what the ring holds after it. -/
def after (root : Cell) (back : List Cell) : Cell :=
  back.head?.getD root

@[simp] theorem before_nil (root : Cell) : before root [] = root := rfl

@[simp] theorem before_concat (root cell : Cell) (front : List Cell) :
    before root (front ++ [cell]) = cell := by
  unfold before
  rw [List.getLast?_concat]
  rfl

@[simp] theorem after_nil (root : Cell) : after root [] = root := rfl

@[simp] theorem after_cons (root cell : Cell) (back : List Cell) :
    after root (cell :: back) = cell := rfl

theorem before_cons (root : Cell) (front : List Cell) :
    (root :: front).getLast? = some (before root front) :=
  List.getLast?_cons

theorem after_concat (root : Cell) (back : List Cell) :
    (back ++ [root]).head? = some (after root back) := by
  cases back with
  | nil => rfl
  | cons cell rest => rfl

theorem cons_append_eq (root : Cell) (front rest : List Cell) :
    root :: (front ++ rest) = (root :: front).dropLast ++ before root front :: rest := by
  have ends := List.dropLast_append_getLast? (before root front) (before_cons root front)
  calc root :: (front ++ rest) = (root :: front) ++ rest := rfl
    _ = ((root :: front).dropLast ++ [before root front]) ++ rest := by rw [ends]
    _ = (root :: front).dropLast ++ before root front :: rest := List.append_assoc ..

theorem before_mem (root : Cell) (front : List Cell) : before root front ∈ root :: front :=
  List.mem_of_getLast? (before_cons root front)

theorem after_mem (root : Cell) (back : List Cell) : after root back ∈ root :: back := by
  have met := List.mem_of_mem_head? (after_concat root back)
  rw [List.mem_append, List.mem_singleton] at met
  exact List.mem_cons.2 met.symm

namespace Links

/-- The edge between two neighbours, from both of its ends. -/
def Linked (links : Links Cell) (cell following : Cell) : Prop :=
  links.next cell = some following ∧ links.prev following = some cell

/-- The cells met from `start` on, before `stop` is reached. -/
def Path (links : Links Cell) : Cell → List Cell → Cell → Prop
  | start, [], stop => start = stop
  | start, cell :: rest, stop =>
      start = cell ∧ ∃ following, links.Linked cell following ∧ links.Path following rest stop

def flip (links : Links Cell) : Links Cell :=
  { next := links.prev
    prev := links.next }

structure Ring (links : Links Cell) (root : Cell) (cells : List Cell) : Prop where
  path : links.Path root (root :: cells) root
  nodup : (root :: cells).Nodup
  outside : ∀ cell, cell ∉ root :: cells → links.next cell = none ∧ links.prev cell = none

/-! ### Paths -/

variable {links : Links Cell}

theorem Path.append {start stop : Cell} {front back : List Cell} :
    links.Path start (front ++ back) stop ↔
      ∃ middle, links.Path start front middle ∧ links.Path middle back stop := by
  induction front generalizing start with
  | nil =>
      constructor
      · intro path
        exact ⟨start, rfl, path⟩
      · intro parts
        obtain ⟨middle, same, path⟩ := parts
        cases same
        exact path
  | cons cell rest ih =>
      constructor
      · intro path
        obtain ⟨same, following, linked, path⟩ := path
        obtain ⟨middle, first, second⟩ := ih.1 path
        exact ⟨middle, ⟨same, following, linked, first⟩, second⟩
      · intro parts
        obtain ⟨middle, ⟨same, following, linked, first⟩, second⟩ := parts
        exact ⟨same, following, linked, ih.2 ⟨middle, first, second⟩⟩

theorem Path.single {cell stop : Cell} (linked : links.Linked cell stop) :
    links.Path cell [cell] stop :=
  ⟨rfl, stop, linked, rfl⟩

theorem Path.last {start cell stop : Cell} {front : List Cell}
    (path : links.Path start (front ++ [cell]) stop) : links.Linked cell stop := by
  obtain ⟨middle, _, same, following, linked, ends⟩ := Path.append.1 path
  cases same
  cases ends
  exact linked

theorem Path.head {start stop : Cell} {cells : List Cell} (path : links.Path start cells stop) :
    (cells ++ [stop]).head? = some start := by
  cases cells with
  | nil => exact congrArg some (Eq.symm path)
  | cons cell rest => exact congrArg some path.1.symm

theorem Path.mono {other : Links Cell} {start stop : Cell} {cells : List Cell}
    (path : links.Path start cells stop)
    (keeps : ∀ cell ∈ cells, ∀ following ∈ cells ++ [stop], links.Linked cell following →
      other.Linked cell following) : other.Path start cells stop := by
  induction cells generalizing start with
  | nil => exact path
  | cons cell rest ih =>
      obtain ⟨same, following, linked, path⟩ := path
      have later : ∀ met ∈ rest ++ [stop], met ∈ cell :: rest ++ [stop] :=
        fun met => List.mem_cons_of_mem cell
      have met := later following (List.mem_of_mem_head? path.head)
      refine ⟨same, following, keeps cell List.mem_cons_self following met linked, ih path ?_⟩
      intro further member next nextMember
      exact keeps further (List.mem_cons_of_mem cell member) next (later next nextMember)

theorem Path.exists_following {start stop cell : Cell} {cells : List Cell}
    (path : links.Path start cells stop) (member : cell ∈ cells) :
    ∃ following, links.Linked cell following := by
  induction cells generalizing start with
  | nil => cases member
  | cons head rest ih =>
      obtain ⟨_, following, linked, path⟩ := path
      rcases List.mem_cons.1 member with first | later
      · rw [first]
        exact ⟨following, linked⟩
      · exact ih path later

theorem linked_flip {cell following : Cell} :
    links.flip.Linked following cell ↔ links.Linked cell following :=
  And.comm

theorem Path.flip {start stop : Cell} {cells : List Cell}
    (path : links.Path start (start :: cells) stop) :
    links.flip.Path stop (stop :: cells.reverse) start := by
  induction cells generalizing start with
  | nil =>
      obtain ⟨_, following, linked, ends⟩ := path
      cases ends
      exact Path.single (linked_flip.2 linked)
  | cons cell rest ih =>
      obtain ⟨_, following, linked, path⟩ := path
      have same : following = cell := path.1
      rw [same] at linked path
      rw [List.reverse_cons, ← List.cons_append]
      exact Path.append.2 ⟨cell, ih path, Path.single (linked_flip.2 linked)⟩

/-! ### Rings -/

variable {root : Cell}

theorem Ring.inverse {cells : List Cell} (ring : links.Ring root cells) (cell following : Cell) :
    links.next cell = some following ↔ links.prev following = some cell := by
  constructor
  · intro next
    have inside : cell ∈ root :: cells := by
      by_contra stranger
      rw [(ring.outside cell stranger).1] at next
      cases next
    obtain ⟨actual, linked⟩ := ring.path.exists_following inside
    cases linked.1.symm.trans next
    exact linked.2
  · intro prev
    have inside : following ∈ root :: cells := by
      by_contra stranger
      rw [(ring.outside following stranger).2] at prev
      cases prev
    have reversed : following ∈ root :: cells.reverse := by
      rw [List.mem_cons, List.mem_reverse]
      exact List.mem_cons.1 inside
    obtain ⟨actual, linked⟩ := ring.path.flip.exists_following reversed
    cases linked.1.symm.trans prev
    exact linked.2

theorem Ring.flip {cells : List Cell} (ring : links.Ring root cells) :
    links.flip.Ring root cells.reverse := by
  constructor
  case path => exact ring.path.flip
  case nodup =>
    have nodup := List.nodup_cons.1 ring.nodup
    rw [List.nodup_cons, List.mem_reverse, List.nodup_reverse]
    exact nodup
  case outside =>
    intro cell stranger
    rw [List.mem_cons, List.mem_reverse, ← List.mem_cons] at stranger
    exact (ring.outside cell stranger).symm

theorem Ring.linked_mem {cells : List Cell} (ring : links.Ring root cells) {cell following : Cell}
    (linked : links.Linked cell following) : cell ∈ root :: cells ∧ following ∈ root :: cells := by
  constructor
  · by_contra stranger
    cases (ring.outside cell stranger).1.symm.trans linked.1
  · by_contra stranger
    cases (ring.outside following stranger).2.symm.trans linked.2

theorem Ring.edge {front back : List Cell} (ring : links.Ring root (front ++ back)) :
    links.Linked (before root front) (after root back) := by
  obtain ⟨middle, first, second⟩ := Path.append.1 (List.cons_append ▸ ring.path)
  have behind : middle = after root back :=
    Option.some.inj (second.head.symm.trans (after_concat root back))
  have ends := List.dropLast_append_getLast? (before root front) (before_cons root front)
  rw [← ends, behind] at first
  exact first.last

variable [DecidableEq Cell]

def link (links : Links Cell) (before cell after : Cell) : Links Cell :=
  { next := Function.update (Function.update links.next cell (some after)) before (some cell)
    prev := Function.update (Function.update links.prev cell (some before)) after (some cell) }

def unlink (links : Links Cell) (before cell after : Cell) : Links Cell :=
  { next := Function.update (Function.update links.next before (some after)) cell none
    prev := Function.update (Function.update links.prev after (some before)) cell none }

theorem link_keeps {before after cell other following : Cell} (linked : links.Linked before after)
    (alone : links.prev cell = none) (notBefore : other ≠ before) (notCell : other ≠ cell)
    (edge : links.Linked other following) :
    (links.link before cell after).Linked other following := by
  have followingCell : following ≠ cell := by
    intro same
    rw [same, Linked, alone] at edge
    cases edge.2
  have followingAfter : following ≠ after := by
    intro same
    rw [same] at edge
    cases edge.2.symm.trans linked.2
    exact notBefore rfl
  constructor
  · change Function.update _ before _ other = _
    rw [Function.update_of_ne notBefore, Function.update_of_ne notCell]
    exact edge.1
  · change Function.update _ after _ following = _
    rw [Function.update_of_ne followingAfter, Function.update_of_ne followingCell]
    exact edge.2

theorem unlink_keeps {before after cell other following : Cell}
    (first : links.Linked before cell) (second : links.Linked cell after)
    (notBefore : other ≠ before) (notCell : other ≠ cell)
    (edge : links.Linked other following) :
    (links.unlink before cell after).Linked other following := by
  have followingCell : following ≠ cell := by
    intro same
    rw [same] at edge
    cases edge.2.symm.trans first.2
    exact notBefore rfl
  have followingAfter : following ≠ after := by
    intro same
    rw [same] at edge
    cases edge.2.symm.trans second.2
    exact notCell rfl
  constructor
  · change Function.update _ cell _ other = _
    rw [Function.update_of_ne notCell, Function.update_of_ne notBefore]
    exact edge.1
  · change Function.update _ cell _ following = _
    rw [Function.update_of_ne followingCell, Function.update_of_ne followingAfter]
    exact edge.2

section Link

variable {before cell after : Cell} {lead back : List Cell}

theorem Path.link (path : links.Path root (lead ++ before :: back) root)
    (nodup : (lead ++ before :: back).Nodup) (new : cell ∉ lead ++ before :: back)
    (alone : links.prev cell = none) (apart : after ≠ cell) (linked : links.Linked before after) :
    (links.link before cell after).Path root (lead ++ before :: cell :: back) root := by
  obtain ⟨middle, first, same, next, edge, second⟩ := Path.append.1 path
  obtain rfl : before = middle := same.symm
  obtain rfl : after = next := Option.some.inj (linked.1.symm.trans edge.1)
  have distinct := List.nodup_append.1 nodup
  rw [List.mem_append, List.mem_cons, not_or, not_or] at new
  have firstKept : (links.link before cell after).Path root lead before := by
    refine first.mono fun other member following _ => link_keeps linked alone ?_ ?_
    · intro same
      exact distinct.2.2 other member before List.mem_cons_self same
    · intro same
      exact new.1 (same ▸ member)
  have secondKept : (links.link before cell after).Path after back root := by
    refine second.mono fun other member following _ => link_keeps linked alone ?_ ?_
    · intro same
      exact (List.nodup_cons.1 distinct.2.1).1 (same ▸ member)
    · intro same
      exact new.2.2 (same ▸ member)
  have toCell : (links.link before cell after).Linked before cell := by
    constructor
    · exact Function.update_self ..
    · change Function.update _ after _ cell = _
      rw [Function.update_of_ne apart.symm, Function.update_self]
  have fromCell : (links.link before cell after).Linked cell after := by
    constructor
    · change Function.update _ before _ cell = _
      rw [Function.update_of_ne new.2.1, Function.update_self]
    · exact Function.update_self ..
  exact Path.append.2 ⟨before, firstKept, rfl, cell, toCell, rfl, after, fromCell, secondKept⟩

theorem Path.unlink (path : links.Path root (lead ++ before :: cell :: back) root)
    (nodup : (lead ++ before :: cell :: back).Nodup) (linked : links.Linked cell after)
    (apart : after ≠ cell) :
    (links.unlink before cell after).Path root (lead ++ before :: back) root := by
  obtain ⟨middle, first, same, next, edge, also, further, later, second⟩ := Path.append.1 path
  obtain rfl : before = middle := same.symm
  obtain rfl : cell = next := also.symm
  obtain rfl : after = further := Option.some.inj (linked.1.symm.trans later.1)
  have distinct := List.nodup_append.1 nodup
  have tail := List.nodup_cons.1 distinct.2.1
  have firstKept : (links.unlink before cell after).Path root lead before := by
    refine first.mono fun other member following _ => unlink_keeps edge later ?_ ?_
    · intro same
      exact distinct.2.2 other member before List.mem_cons_self same
    · intro same
      exact distinct.2.2 other member cell (List.mem_cons_of_mem _ List.mem_cons_self) same
  have secondKept : (links.unlink before cell after).Path after back root := by
    refine second.mono fun other member following _ => unlink_keeps edge later ?_ ?_
    · intro same
      exact tail.1 (List.mem_cons_of_mem cell (same ▸ member))
    · intro same
      exact (List.nodup_cons.1 tail.2).1 (same ▸ member)
  have beforeCell : before ≠ cell := fun same => tail.1 (same ▸ List.mem_cons_self)
  have closed : (links.unlink before cell after).Linked before after := by
    constructor
    · change Function.update _ cell _ before = _
      rw [Function.update_of_ne beforeCell, Function.update_self]
    · change Function.update _ cell _ after = _
      rw [Function.update_of_ne apart, Function.update_self]
  exact Path.append.2 ⟨before, firstKept, rfl, after, closed, secondKept⟩

end Link

/-- A cell outside goes in between `front` and `back`. -/
theorem Ring.link {front back : List Cell} (ring : links.Ring root (front ++ back)) {cell : Cell}
    (new : cell ∉ root :: (front ++ back)) :
    (links.link (before root front) cell (after root back)).Ring root (front ++ cell :: back) := by
  have edge := ring.edge
  have inside := ring.linked_mem edge
  have moved : (root :: (front ++ cell :: back)).Perm (cell :: root :: (front ++ back)) := by
    rw [← List.cons_append, ← List.cons_append]
    exact List.perm_middle
  constructor
  case path =>
    have path := ring.path
    have nodup := ring.nodup
    have alone := (ring.outside cell new).2
    have apart : after root back ≠ cell := fun same => new (same ▸ inside.2)
    rw [cons_append_eq] at path nodup new
    rw [cons_append_eq]
    exact path.link nodup new alone apart edge
  case nodup =>
    rw [moved.nodup_iff, List.nodup_cons]
    exact ⟨new, ring.nodup⟩
  case outside =>
    intro other stranger
    rw [moved.mem_iff, List.mem_cons, not_or] at stranger
    have notBefore : other ≠ before root front := fun same => stranger.2 (same ▸ inside.1)
    have notAfter : other ≠ after root back := fun same => stranger.2 (same ▸ inside.2)
    have old := ring.outside other stranger.2
    constructor
    · change Function.update _ (before root front) _ other = _
      rw [Function.update_of_ne notBefore, Function.update_of_ne stranger.1]
      exact old.1
    · change Function.update _ (after root back) _ other = _
      rw [Function.update_of_ne notAfter, Function.update_of_ne stranger.1]
      exact old.2

omit [DecidableEq Cell] in
theorem Ring.edges {front back : List Cell} {cell : Cell}
    (ring : links.Ring root (front ++ cell :: back)) :
    links.Linked (before root front) cell ∧ links.Linked cell (after root back) := by
  have behind : links.Ring root ((front ++ [cell]) ++ back) := by
    rw [List.append_assoc, List.singleton_append]
    exact ring
  have edge := behind.edge
  rw [before_concat] at edge
  exact ⟨ring.edge, edge⟩

/-- A cell goes out from between `front` and `back`. -/
theorem Ring.unlink {front back : List Cell} {cell : Cell}
    (ring : links.Ring root (front ++ cell :: back)) :
    (links.unlink (before root front) cell (after root back)).Ring root (front ++ back) := by
  have moved : (root :: (front ++ cell :: back)).Perm (cell :: root :: (front ++ back)) := by
    rw [← List.cons_append, ← List.cons_append]
    exact List.perm_middle
  have nodup := ring.nodup
  rw [moved.nodup_iff, List.nodup_cons] at nodup
  have beforeMem : before root front ∈ root :: (front ++ back) :=
    List.mem_append_left back (before_mem root front)
  have afterMem : after root back ∈ root :: (front ++ back) := by
    rcases List.mem_cons.1 (after_mem root back) with atRoot | later
    · rw [atRoot]
      exact List.mem_cons_self
    · exact List.mem_cons_of_mem root (List.mem_append_right front later)
  constructor
  case path =>
    have path := ring.path
    have distinct := ring.nodup
    have apart : after root back ≠ cell := fun same => nodup.1 (same ▸ afterMem)
    rw [cons_append_eq] at path distinct
    rw [cons_append_eq]
    exact path.unlink distinct ring.edges.2 apart
  case nodup => exact nodup.2
  case outside =>
    intro other stranger
    by_cases same : other = cell
    · rw [same]
      exact ⟨Function.update_self .., Function.update_self ..⟩
    · have notBefore : other ≠ before root front := fun equal => stranger (equal ▸ beforeMem)
      have notAfter : other ≠ after root back := fun equal => stranger (equal ▸ afterMem)
      have absent : other ∉ root :: (front ++ cell :: back) := by
        rw [moved.mem_iff, List.mem_cons, not_or]
        exact ⟨same, stranger⟩
      have old := ring.outside other absent
      constructor
      · change Function.update _ cell _ other = _
        rw [Function.update_of_ne same, Function.update_of_ne notBefore]
        exact old.1
      · change Function.update _ cell _ other = _
        rw [Function.update_of_ne same, Function.update_of_ne notAfter]
        exact old.2

end Links

end MCoro.LinkedRing
