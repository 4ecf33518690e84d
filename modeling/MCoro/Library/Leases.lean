/-
Numbers that are given out, held by one owner at a time and given back.

A number can be issued again once it was given back. A lease is a number together
with the term of its issue, which tells a holder of an old lease from a holder of a
new one though they go by the same number.
-/

import Mathlib

namespace MCoro.Leases

structure Lease (Number : Type) where
  number : Number
  term : Nat
  deriving DecidableEq, Repr

/-- A call that gives a number back: the lease that the caller goes by, and the term
that the number was in. -/
structure Return (Number : Type) where
  lease : Lease Number
  found : Option Nat
  deriving DecidableEq, Repr

structure Registry (Number : Type) where
  current : Number → Option Nat := fun _ => none
  issued : Nat := 0
  returns : List (Return Number) := []

section

variable {Key Value : Type} [DecidableEq Key] {f : Key → Option Value} {key other : Key}
  {value value' : Value}

theorem update_none_eq_some_iff :
    Function.update f key none other = some value ↔ other ≠ key ∧ f other = some value := by
  by_cases same : other = key
  · subst same
    rw [Function.update_self]
    constructor
    · intro impossible
      cases impossible
    · intro both
      exact absurd rfl both.1
  · rw [Function.update_of_ne same]
    exact ⟨fun holds => ⟨same, holds⟩, fun both => both.2⟩

theorem update_some_eq_some_iff :
    Function.update f key (some value') other = some value ↔
      other = key ∧ value = value' ∨ other ≠ key ∧ f other = some value := by
  by_cases same : other = key
  · subst same
    rw [Function.update_self]
    constructor
    · intro holds
      exact Or.inl ⟨rfl, (Option.some.inj holds).symm⟩
    · rintro (⟨_, rfl⟩ | ⟨differs, _⟩)
      · rfl
      · exact absurd rfl differs
  · rw [Function.update_of_ne same]
    constructor
    · intro holds
      exact Or.inr ⟨same, holds⟩
    · rintro (⟨equal, _⟩ | ⟨_, holds⟩)
      · exact absurd equal same
      · exact holds

end

variable {Owner Number : Type}

namespace Registry

def timesReturned (registry : Registry Number) (term : Nat) : Nat :=
  (registry.returns.map fun call => call.lease.term).count term

variable [DecidableEq Number]

def issue (registry : Registry Number) (number : Number) : Registry Number :=
  { current := Function.update registry.current number (some registry.issued)
    issued := registry.issued + 1
    returns := registry.returns }

def giveBack (registry : Registry Number) (lease : Lease Number) : Registry Number :=
  { current := Function.update registry.current lease.number none
    issued := registry.issued
    returns := registry.returns ++ [⟨lease, registry.current lease.number⟩] }

theorem timesReturned_giveBack (registry : Registry Number) (lease : Lease Number) (term : Nat) :
    (registry.giveBack lease).timesReturned term =
      registry.timesReturned term + if lease.term = term then 1 else 0 := by
  unfold timesReturned giveBack
  rw [List.map_append, List.count_append]
  congr 1
  rw [List.map_singleton, List.count_singleton]
  simp only [beq_iff_eq]

end Registry

abbrev Holdings (Owner Number : Type) := Owner → Option (Lease Number)

/-- No two owners go by one number, every return is of the current term, and every issue
is either given back, once, or in the hands of one owner. -/
structure Kept (registry : Registry Number) (held : Holdings Owner Number) : Prop where
  alone : ∀ owner other lease lease', held owner = some lease → held other = some lease' →
    lease.number = lease'.number → owner = other
  right : ∀ call ∈ registry.returns, call.found = some call.lease.term
  once : ∀ term < registry.issued,
    (registry.timesReturned term = 1 ∧
      ¬∃ owner lease, held owner = some lease ∧ lease.term = term) ∨
    (registry.timesReturned term = 0 ∧
      ∃! owner, ∃ lease, held owner = some lease ∧ lease.term = term)

structure Sound (registry : Registry Number) (held : Holdings Owner Number) : Prop where
  agrees : ∀ lease : Lease Number,
    registry.current lease.number = some lease.term ↔ ∃ owner, held owner = some lease
  single : ∀ owner other lease, held owner = some lease → held other = some lease → owner = other
  right : ∀ call ∈ registry.returns, call.found = some call.lease.term
  placed : ∀ number other term, registry.current number = some term →
    registry.current other = some term → number = other
  below : ∀ number term, registry.current number = some term → term < registry.issued
  returned : ∀ term < registry.issued, registry.timesReturned term = 1 ∨
    ∃ number, registry.current number = some term
  unreturned : ∀ number term, registry.current number = some term →
    registry.timesReturned term = 0
  beyond : ∀ term, registry.issued ≤ term → registry.timesReturned term = 0

variable {registry : Registry Number} {held : Holdings Owner Number}

theorem Sound.current (sound : Sound registry held) {owner : Owner} {lease : Lease Number}
    (holds : held owner = some lease) : registry.current lease.number = some lease.term :=
  (sound.agrees lease).2 ⟨owner, holds⟩

theorem Sound.eq_of_number (sound : Sound registry held) {owner other : Owner}
    {lease lease' : Lease Number} (holds : held owner = some lease)
    (holds' : held other = some lease') (same : lease.number = lease'.number) :
    lease = lease' := by
  have first := sound.current holds
  have second := sound.current holds'
  rw [same, second] at first
  cases lease
  cases lease'
  cases same
  cases first
  rfl

theorem Sound.eq_of_term (sound : Sound registry held) {owner other : Owner}
    {lease lease' : Lease Number} (holds : held owner = some lease)
    (holds' : held other = some lease') (same : lease.term = lease'.term) : lease = lease' := by
  have first := sound.current holds
  have second := sound.current holds'
  rw [same] at first
  exact sound.eq_of_number holds holds' (sound.placed _ _ _ first second)

theorem Sound.kept (sound : Sound registry held) : Kept registry held := by
  constructor
  case alone =>
    intro owner other lease lease' holds holds' same
    have one := sound.eq_of_number holds holds' same
    rw [← one] at holds'
    exact sound.single owner other lease holds holds'
  case right => exact sound.right
  case once =>
    intro term issued
    by_cases current : ∃ number, registry.current number = some term
    · right
      obtain ⟨number, current⟩ := current
      constructor
      · exact sound.unreturned number term current
      · obtain ⟨owner, holds⟩ := (sound.agrees ⟨number, term⟩).1 current
        refine ⟨owner, ⟨_, holds, rfl⟩, ?_⟩
        rintro other ⟨lease, holds', same⟩
        have one := sound.eq_of_term holds' holds same
        rw [one] at holds'
        exact sound.single other owner _ holds' holds
    · left
      constructor
      · exact (sound.returned term issued).resolve_right current
      · rintro ⟨owner, lease, holds, rfl⟩
        exact current ⟨lease.number, sound.current holds⟩

theorem sound_initial : Sound ({} : Registry Number) (fun _ : Owner => none) := by
  constructor
  case agrees =>
    intro lease
    constructor
    · intro impossible
      cases impossible
    · rintro ⟨owner, impossible⟩
      cases impossible
  case returned =>
    intro term impossible
    cases impossible
  case right =>
    intro call impossible
    cases impossible
  case beyond => exact fun term _ => rfl
  all_goals
    intros
    contradiction

/-! ### The operations -/

theorem Sound.exchange (sound : Sound registry held) (hands : Equiv.Perm Owner) :
    Sound registry (fun owner => held (hands owner)) := by
  constructor
  case agrees =>
    intro lease
    rw [sound.agrees lease]
    constructor
    · rintro ⟨owner, holds⟩
      refine ⟨hands.symm owner, ?_⟩
      rw [hands.apply_symm_apply, holds]
    · rintro ⟨owner, holds⟩
      exact ⟨hands owner, holds⟩
  case single =>
    intro owner other lease holds holds'
    exact hands.injective (sound.single _ _ lease holds holds')
  case right => exact sound.right
  case placed => exact sound.placed
  case below => exact sound.below
  case returned => exact sound.returned
  case unreturned => exact sound.unreturned
  case beyond => exact sound.beyond

variable [DecidableEq Owner]

theorem Sound.swap (sound : Sound registry held) (owner other : Owner) :
    Sound registry
      (Function.update (Function.update held other (held owner)) owner (held other)) := by
  rw [← Equiv.comp_swap_eq_update]
  exact sound.exchange (Equiv.swap owner other)

variable [DecidableEq Number]

theorem Sound.issue (sound : Sound registry held) {number : Number} {owner : Owner}
    (unused : registry.current number = none) (empty : held owner = none) :
    Sound (registry.issue number)
      (Function.update held owner (some ⟨number, registry.issued⟩)) := by
  have news (other : Number) (term : Nat) :
      (registry.issue number).current other = some term ↔
        other = number ∧ term = registry.issued ∨
          other ≠ number ∧ registry.current other = some term :=
    update_some_eq_some_iff
  have hands (other : Owner) (lease : Lease Number) :
      Function.update held owner (some ⟨number, registry.issued⟩) other = some lease ↔
        other = owner ∧ lease = ⟨number, registry.issued⟩ ∨
          other ≠ owner ∧ held other = some lease :=
    update_some_eq_some_iff
  constructor
  case agrees =>
    intro lease
    constructor
    · intro current
      rcases (news lease.number lease.term).1 current with ⟨same, term⟩ | ⟨_, before⟩
      · refine ⟨owner, ?_⟩
        rw [Function.update_self, ← same, ← term]
      · obtain ⟨other, holds⟩ := (sound.agrees lease).1 before
        refine ⟨other, ?_⟩
        rw [Function.update_of_ne _, holds]
        intro same
        rw [same, empty] at holds
        cases holds
    · rintro ⟨other, holds⟩
      rcases (hands other lease).1 holds with ⟨_, rfl⟩ | ⟨_, before⟩
      · exact Function.update_self ..
      · have current := sound.current before
        have differs : lease.number ≠ number := by
          intro same
          rw [same, unused] at current
          cases current
        exact (Function.update_of_ne differs _ _).trans current
  case single =>
    intro first second lease holds holds'
    rcases (hands first lease).1 holds with ⟨rfl, rfl⟩ | ⟨_, before⟩
    · rcases (hands second _).1 holds' with ⟨rfl, _⟩ | ⟨_, before'⟩
      · rfl
      · have current := sound.current before'
        rw [unused] at current
        cases current
    · rcases (hands second lease).1 holds' with ⟨_, rfl⟩ | ⟨_, before'⟩
      · have current := sound.current before
        rw [unused] at current
        cases current
      · exact sound.single first second lease before before'
  case right => exact sound.right
  case placed =>
    intro one other term current current'
    rcases (news one term).1 current with ⟨rfl, rfl⟩ | ⟨_, before⟩
    · rcases (news other _).1 current' with ⟨rfl, _⟩ | ⟨_, before'⟩
      · rfl
      · exact absurd (sound.below other _ before') (Nat.lt_irrefl _)
    · rcases (news other term).1 current' with ⟨_, rfl⟩ | ⟨_, before'⟩
      · exact absurd (sound.below one _ before) (Nat.lt_irrefl _)
      · exact sound.placed one other term before before'
  case below =>
    intro other term current
    rcases (news other term).1 current with ⟨_, rfl⟩ | ⟨_, before⟩
    · exact Nat.lt_succ_self _
    · exact Nat.lt_succ_of_lt (sound.below other term before)
  case returned =>
    intro term issued
    rcases Nat.lt_succ_iff_lt_or_eq.1 issued with earlier | rfl
    · rcases sound.returned term earlier with returned | ⟨other, current⟩
      · exact Or.inl returned
      · right
        refine ⟨other, (Function.update_of_ne ?_ _ _).trans current⟩
        rintro rfl
        rw [unused] at current
        cases current
    · exact Or.inr ⟨number, Function.update_self ..⟩
  case unreturned =>
    intro other term current
    rcases (news other term).1 current with ⟨_, rfl⟩ | ⟨_, before⟩
    · exact sound.beyond _ (Nat.le_refl _)
    · exact sound.unreturned other term before
  case beyond =>
    intro term later
    exact sound.beyond term (Nat.le_of_succ_le later)

theorem Sound.giveBack (sound : Sound registry held) {owner : Owner} {lease : Lease Number}
    (holds : held owner = some lease) :
    Sound (registry.giveBack lease) (Function.update held owner none) := by
  have now := sound.current holds
  have kept (other : Number) (term : Nat) :
      (registry.giveBack lease).current other = some term ↔
        other ≠ lease.number ∧ registry.current other = some term :=
    update_none_eq_some_iff
  have hands (other : Owner) (lease' : Lease Number) :
      Function.update held owner none other = some lease' ↔
        other ≠ owner ∧ held other = some lease' :=
    update_none_eq_some_iff
  constructor
  case agrees =>
    intro lease'
    rw [kept]
    constructor
    · rintro ⟨differs, current⟩
      obtain ⟨other, holds'⟩ := (sound.agrees lease').1 current
      refine ⟨other, (hands other lease').2 ⟨?_, holds'⟩⟩
      rintro rfl
      rw [holds] at holds'
      cases holds'
      exact differs rfl
    · rintro ⟨other, holds'⟩
      obtain ⟨differs, holds'⟩ := (hands other lease').1 holds'
      constructor
      · intro same
        have one := sound.eq_of_number holds' holds same
        subst one
        exact differs (sound.single _ _ _ holds' holds)
      · exact sound.current holds'
  case single =>
    intro first second lease' holds1 holds2
    exact sound.single first second lease' ((hands _ _).1 holds1).2 ((hands _ _).1 holds2).2
  case right =>
    intro call member
    rcases List.mem_append.1 member with earlier | last
    · exact sound.right call earlier
    · rw [List.mem_singleton.1 last]
      exact now
  case placed =>
    intro one other term current current'
    exact sound.placed one other term ((kept _ _).1 current).2 ((kept _ _).1 current').2
  case below =>
    intro other term current
    exact sound.below other term ((kept _ _).1 current).2
  case returned =>
    intro term issued
    rw [Registry.timesReturned_giveBack]
    by_cases same : lease.term = term
    · subst same
      rw [sound.unreturned _ _ now, if_pos rfl]
      exact Or.inl rfl
    · rw [if_neg same]
      rcases sound.returned term issued with returned | ⟨other, current⟩
      · exact Or.inl returned
      · right
        refine ⟨other, (kept other term).2 ⟨?_, current⟩⟩
        rintro rfl
        rw [now] at current
        exact same (Option.some.inj current)
  case unreturned =>
    intro other term current
    obtain ⟨differs, current⟩ := (kept other term).1 current
    rw [Registry.timesReturned_giveBack, sound.unreturned other term current, if_neg]
    intro same
    rw [← same] at current
    exact differs (sound.placed _ _ _ current now)
  case beyond =>
    intro term later
    rw [Registry.timesReturned_giveBack, sound.beyond term later, if_neg]
    intro same
    have below := sound.below _ _ now
    rw [same] at below
    exact absurd below (Nat.not_lt.2 later)

end MCoro.Leases
