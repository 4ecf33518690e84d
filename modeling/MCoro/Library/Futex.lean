/-
A futex word and the parties that wait on it.

A wait names the value it expects and a mask. The kernel compares the word and puts
the party to sleep or returns at once; a sleeper returns when a wake whose mask
meets its own chooses it, or when its wait is cancelled.
-/

import Mathlib

namespace MCoro.Futex

inductive Result where
  | woken
  /-- The word did not have the expected value: EAGAIN. -/
  | again
  | canceled
  /-- The mask was 0: EINVAL. -/
  | invalid
  deriving DecidableEq, Repr

inductive Wait where
  | idle
  /-- Submitted, but the kernel has not compared the word yet. -/
  | queued (expected mask : UInt32)
  | asleep (mask : UInt32)
  | returned (result : Result)
  deriving DecidableEq, Repr

/-- FUTEX_BITSET_MATCH_ANY. -/
def matchAny : UInt32 := 0xffffffff

/-- What the kernel makes of a queued wait. -/
def Wait.compare (word : UInt32) : Wait → Wait
  | .queued expected mask =>
      if mask = 0 then .returned .invalid
      else if word = expected then .asleep mask
      else .returned .again
  | wait => wait

theorem Wait.compare_queued {mask : UInt32} (valid : mask ≠ 0) (word expected : UInt32) :
    (Wait.queued expected mask).compare word =
      if word = expected then .asleep mask else .returned .again := by
  unfold compare
  simp only
  rw [if_neg valid]

theorem Wait.compare_cases (word expected mask : UInt32) :
    (Wait.queued expected mask).compare word = .returned .invalid ∨
      word = expected ∧ (Wait.queued expected mask).compare word = .asleep mask ∨
      word ≠ expected ∧ (Wait.queued expected mask).compare word = .returned .again := by
  by_cases invalid : mask = 0
  · left
    unfold compare
    simp only
    rw [if_pos invalid]
  · rw [compare_queued invalid]
    by_cases same : word = expected
    · rw [if_pos same]
      exact .inr (.inl ⟨same, rfl⟩)
    · rw [if_neg same]
      exact .inr (.inr ⟨same, rfl⟩)

/-- A sleeper that a wake with the mask can choose. -/
def Wait.Meets (mask : UInt32) : Wait → Prop
  | .asleep own => own &&& mask ≠ 0
  | _ => False

instance (mask : UInt32) (wait : Wait) : Decidable (wait.Meets mask) :=
  match wait with
  | .asleep own => inferInstanceAs (Decidable (own &&& mask ≠ 0))
  | .idle | .queued _ _ | .returned _ => isFalse id

def Wait.IsAsleep : Wait → Prop
  | .asleep _ => True
  | _ => False

def Wait.IsQueued : Wait → Prop
  | .queued _ _ => True
  | _ => False

def Wait.HasReturned : Wait → Prop
  | .returned _ => True
  | _ => False

instance (wait : Wait) : Decidable wait.IsAsleep :=
  match wait with
  | .asleep _ => isTrue trivial
  | .idle | .queued _ _ | .returned _ => isFalse id

instance (wait : Wait) : Decidable wait.IsQueued :=
  match wait with
  | .queued _ _ => isTrue trivial
  | .idle | .asleep _ | .returned _ => isFalse id

instance (wait : Wait) : Decidable wait.HasReturned :=
  match wait with
  | .returned _ => isTrue trivial
  | .idle | .queued _ _ | .asleep _ => isFalse id

theorem Wait.Meets.isAsleep {mask : UInt32} {wait : Wait} (meets : wait.Meets mask) :
    wait.IsAsleep := by
  cases wait with
  | asleep own => trivial
  | idle | queued _ _ | returned _ => cases meets

/-- A wait does not fall asleep at a word that has changed. -/
theorem Wait.not_isAsleep_compare {word expected : UInt32} (changed : word ≠ expected)
    (mask : UInt32) : ¬((Wait.queued expected mask).compare word).IsAsleep := by
  rcases compare_cases word expected mask with invalid | ⟨same, _⟩ | ⟨_, again⟩
  · rw [invalid]
    exact id
  · exact absurd same changed
  · rw [again]
    exact id

theorem Wait.ne_idle {wait : Wait} (unfinished : wait.IsQueued ∨ wait.IsAsleep) : wait ≠ .idle := by
  intro idle
  subst idle
  rcases unfinished with queued | asleep
  · cases queued
  · cases asleep

theorem Wait.not_hasReturned {wait : Wait} (unfinished : wait.IsQueued ∨ wait.IsAsleep) :
    ¬wait.HasReturned := by
  intro returned
  cases wait with
  | returned result =>
      rcases unfinished with queued | asleep
      · cases queued
      · cases asleep
  | idle | queued _ _ | asleep _ => cases returned

theorem Wait.HasReturned.ne_idle {wait : Wait} (returned : wait.HasReturned) : wait ≠ .idle := by
  intro idle
  subst idle
  cases returned

variable {Party : Type} [DecidableEq Party]

/-- The kernel wakes one sleeper that the mask meets, if there is one. -/
def WakesOne (waits : Party → Wait) (mask : UInt32) : Option Party → Prop
  | some party => (waits party).Meets mask
  | none => ∀ party, ¬(waits party).Meets mask

instance [Fintype Party] (waits : Party → Wait) (mask : UInt32) (chosen : Option Party) :
    Decidable (WakesOne waits mask chosen) :=
  match chosen with
  | some party => inferInstanceAs (Decidable ((waits party).Meets mask))
  | none => inferInstanceAs (Decidable (∀ party, ¬(waits party).Meets mask))

/-- The same where only the listed parties have ever waited. -/
def WakesAmong (names : List Party) (waits : Party → Wait) (mask : UInt32) : Option Party → Prop
  | some party => party ∈ names ∧ (waits party).Meets mask
  | none => ∀ party ∈ names, ¬(waits party).Meets mask

instance (names : List Party) (waits : Party → Wait) (mask : UInt32) (chosen : Option Party) :
    Decidable (WakesAmong names waits mask chosen) :=
  match chosen with
  | some party => inferInstanceAs (Decidable (party ∈ names ∧ (waits party).Meets mask))
  | none => inferInstanceAs (Decidable (∀ party ∈ names, ¬(waits party).Meets mask))

omit [DecidableEq Party] in
theorem WakesAmong.cons {names : List Party} {waits : Party → Wait} {mask : UInt32}
    {chosen : Option Party} (wakes : WakesAmong names waits mask chosen) {name : Party}
    (awake : ¬(waits name).Meets mask) : WakesAmong (name :: names) waits mask chosen := by
  cases chosen with
  | none => exact List.forall_mem_cons.2 ⟨awake, wakes⟩
  | some party => exact ⟨List.mem_cons_of_mem _ wakes.1, wakes.2⟩

def wakeOne (waits : Party → Wait) : Option Party → Party → Wait
  | some party => Function.update waits party (.returned .woken)
  | none => waits

def wakeEach (waits : Party → Wait) (woken : List Party) (party : Party) : Wait :=
  if party ∈ woken then .returned .woken else waits party

/-- A wake of the sleepers that it meets, of all of them or of a number. -/
structure WakesUpTo (Meets : Party → Prop) (number : Nat) (woken : List Party) : Prop where
  distinct : woken.Nodup
  meets : ∀ party ∈ woken, Meets party
  within : woken.length ≤ number
  all : woken.length < number → ∀ party, Meets party → party ∈ woken

instance [Fintype Party] (Meets : Party → Prop) [DecidablePred Meets] (number : Nat)
    (woken : List Party) : Decidable (WakesUpTo Meets number woken) :=
  decidable_of_iff (woken.Nodup ∧ (∀ party ∈ woken, Meets party) ∧ woken.length ≤ number ∧
      (woken.length < number → ∀ party, Meets party → party ∈ woken))
    ⟨fun ⟨distinct, meets, within, all⟩ => ⟨distinct, meets, within, all⟩,
      fun wakes => ⟨wakes.distinct, wakes.meets, wakes.within, wakes.all⟩⟩

/-- The same where only the listed parties can be met. -/
@[reducible]
def WakesUpTo.decidable {names : List Party} {Meets : Party → Prop} [DecidablePred Meets]
    (named : ∀ party, Meets party → party ∈ names) (number : Nat) (woken : List Party) :
    Decidable (WakesUpTo Meets number woken) :=
  decidable_of_iff (woken.Nodup ∧ (∀ party ∈ woken, Meets party) ∧ woken.length ≤ number ∧
      (woken.length < number → ∀ party ∈ names, Meets party → party ∈ woken))
    ⟨fun ⟨distinct, meets, within, all⟩ => ⟨distinct, meets, within,
        fun fewer party met => all fewer party (named party met) met⟩,
      fun wakes => ⟨wakes.distinct, wakes.meets, wakes.within,
        fun fewer party _ => wakes.all fewer party⟩⟩

omit [DecidableEq Party] in
theorem WakesUpTo.of_few {Meets : Party → Prop} {number : Nat} {woken names : List Party}
    (wakes : WakesUpTo Meets number woken) (few : names.length ≤ number)
    (named : ∀ party, Meets party → party ∈ names) {party : Party} (meets : Meets party) :
    party ∈ woken := by
  by_cases fewer : woken.length < number
  · exact wakes.all fewer party meets
  · have among : woken ⊆ names := fun other member => named other (wakes.meets other member)
    have same := (wakes.distinct.subperm among).perm_of_length_le (by omega)
    exact same.mem_iff.2 (named party meets)

theorem wakeOne_of_ne {waits : Party → Wait} {chosen : Option Party} {party : Party}
    (different : chosen ≠ some party) : wakeOne waits chosen party = waits party := by
  cases chosen with
  | none => rfl
  | some other =>
      have apart : party ≠ other := fun same => different (same ▸ rfl)
      exact Function.update_of_ne apart ..

theorem wakeOne_chosen (waits : Party → Wait) (party : Party) :
    wakeOne waits (some party) party = .returned .woken :=
  Function.update_self ..

theorem wakeOne_isAsleep {waits : Party → Wait} {chosen : Option Party} {party : Party}
    (asleep : (wakeOne waits chosen party).IsAsleep) : (waits party).IsAsleep := by
  by_cases same : chosen = some party
  · subst same
    rw [wakeOne_chosen] at asleep
    cases asleep
  · rw [wakeOne_of_ne same] at asleep
    exact asleep

end MCoro.Futex
