/-
Runs of a mutex: who holds it, and who will see to the sleepers.

Whenever a waiter is asleep there is a witness that is not: the holder, who has yet
to unlock, a party between the store and the wake of its unlock, or a woken waiter
that has yet to exchange the word.
-/

import MCoro.Generic.Mutex

namespace MCoro.BasicMutex

variable {Party : Type}

/-- Only a party in lock has a wait, and it waits for a word that is not 1. -/
def Fits (place : Place) : Futex.Wait → Prop
  | .idle => True
  | .queued expected mask => place = .waiting ∧ expected = 1 ∧ mask = Futex.matchAny
  | .asleep mask => place = .waiting ∧ mask = Futex.matchAny
  | .returned _ => place = .waiting

theorem Fits.idle (place : Place) : Fits place .idle :=
  trivial

theorem Fits.queued : Fits .waiting (.queued 1 Futex.matchAny) :=
  ⟨rfl, rfl, rfl⟩

theorem Fits.asleep : Fits .waiting (.asleep Futex.matchAny) :=
  ⟨rfl, rfl⟩

theorem Fits.returned (result : Futex.Result) : Fits .waiting (.returned result) :=
  rfl

structure Inv (state : State Party) : Prop where
  word : state.mutex.mFutex = 0 ∨ state.mutex.mFutex = 1
  holder : state.mutex.mFutex ≠ 0 ↔ ∃ party, state.place party = .holding
  one : ∀ party other, state.place party = .holding → state.place other = .holding →
    party = other
  each : ∀ party, Fits (state.place party) (state.waits party)
  witness : ∀ party, (state.waits party).IsAsleep →
    (∃ holder, state.place holder = .holding) ∨ (∃ other, state.waits other = .returned .woken) ∨
      ∃ other, state.place other = .unlocking

theorem Inv.initial : Inv (State.initial : State Party) := by
  constructor
  case word => exact .inl rfl
  case holder => simp [State.initial]
  case one =>
    intro party other holds
    cases holds
  case each =>
    intro party
    trivial
  case witness =>
    intro party asleep
    cases asleep

theorem Fits.waiting {place : Place} {wait : Futex.Wait} (fits : Fits place wait)
    (busy : wait ≠ .idle) : place = .waiting := by
  cases wait with
  | idle => exact absurd rfl busy
  | queued expected mask => exact fits.1
  | asleep mask => exact fits.1
  | returned result => exact fits

theorem Fits.meets {place : Place} {wait : Futex.Wait} (fits : Fits place wait)
    (asleep : wait.IsAsleep) : wait.Meets Futex.matchAny := by
  cases wait with
  | asleep mask =>
      rw [fits.2]
      decide
  | idle | queued _ _ | returned _ => cases asleep

theorem Inv.tryLock_iff {state : State Party} (inv : Inv state) :
    state.mutex.tryLock.2 = true ↔ ¬∃ party, state.place party = .holding := by
  rw [← inv.holder, not_not]
  unfold tryLock exchange
  simp

theorem Inv.tryLock_fails {state : State Party} (inv : Inv state)
    (taken : ¬state.mutex.tryLock.2 = true) : state.mutex.tryLock.1 = state.mutex := by
  rw [inv.tryLock_iff, not_not, ← inv.holder] at taken
  rcases inv.word with zero | one
  · exact absurd zero taken
  · unfold tryLock exchange
    cases state with
    | mk mutex place waits =>
        cases mutex
        exact congrArg BasicMutex.mk one.symm

variable [DecidableEq Party]

/-! ### One party moves -/

theorem Inv.each_move {state : State Party} (inv : Inv state) (party : Party) {place : Place}
    {wait : Futex.Wait} (fits : Fits place wait) (other : Party) :
    Fits ((state.move party place wait).place other) ((state.move party place wait).waits other) := by
  change Fits (Function.update state.place party place other)
    (Function.update state.waits party wait other)
  by_cases same : other = party
  · subst same
    rw [Function.update_self, Function.update_self]
    exact fits
  · rw [Function.update_of_ne same, Function.update_of_ne same]
    exact inv.each other

/-- A party that does not hold the mutex moves; it may be the witness only when there
is a holder. -/
theorem Inv.move {state : State Party} (inv : Inv state) {party : Party} {place : Place}
    {wait : Futex.Wait} (before : state.place party ≠ .holding) (after : place ≠ .holding)
    (fits : Fits place wait)
    (calm : state.waits party ≠ .returned .woken ∨ ∃ holder, state.place holder = .holding)
    (settled : state.place party ≠ .unlocking)
    (asleep : wait.IsAsleep → ∃ holder, state.place holder = .holding) :
    Inv (state.move party place wait) := by
  have holding : ∀ other, (state.move party place wait).place other = .holding ↔
      state.place other = .holding := by
    intro other
    change Function.update state.place party place other = .holding ↔ _
    by_cases same : other = party
    · subst same
      rw [Function.update_self]
      exact ⟨fun holds => absurd holds after, fun holds => absurd holds before⟩
    · rw [Function.update_of_ne same]
  constructor
  case word => exact inv.word
  case holder =>
    rw [exists_congr holding]
    exact inv.holder
  case one =>
    intro first second firstHolds secondHolds
    exact inv.one first second ((holding first).1 firstHolds) ((holding second).1 secondHolds)
  case each => exact inv.each_move party fits
  case witness =>
    rw [exists_congr holding]
    intro other sleeps
    by_cases same : other = party
    · subst same
      change (Function.update state.waits other wait other).IsAsleep at sleeps
      rw [Function.update_self] at sleeps
      exact .inl (asleep sleeps)
    · change (Function.update state.waits party wait other).IsAsleep at sleeps
      rw [Function.update_of_ne same] at sleeps
      rcases inv.witness other sleeps with held | ⟨woken, result⟩ | ⟨unlocker, unlocking⟩
      · exact .inl held
      · rcases calm with notWoken | held
        · have different : woken ≠ party := fun equal => notWoken (equal ▸ result)
          refine .inr (.inl ⟨woken, ?_⟩)
          exact (Function.update_of_ne different ..).trans result
        · exact .inl held
      · have different : unlocker ≠ party := fun equal => settled (equal ▸ unlocking)
        refine .inr (.inr ⟨unlocker, ?_⟩)
        exact (Function.update_of_ne different ..).trans unlocking

theorem Inv.setWait {state : State Party} (inv : Inv state) {party : Party} {wait : Futex.Wait}
    (waiting : state.place party = .waiting) (fits : Fits .waiting wait)
    (calm : state.waits party ≠ .returned .woken)
    (asleep : wait.IsAsleep → ∃ holder, state.place holder = .holding) :
    Inv (state.setWait party wait) := by
  have same : state.setWait party wait = state.move party .waiting wait := by
    unfold State.setWait State.move
    rw [← waiting, Function.update_eq_self]
  rw [same]
  exact inv.move (by rw [waiting]; nofun) (by nofun) fits (.inl calm) (by rw [waiting]; nofun)
    asleep

theorem Inv.acquire {state : State Party} (inv : Inv state) (party : Party)
    (free : state.mutex.tryLock.2 = true) :
    Inv ({ state with mutex := state.mutex.tryLock.1 }.move party .holding .idle) := by
  rw [inv.tryLock_iff, not_exists] at free
  have only : ∀ other, Function.update state.place party .holding other = .holding →
      other = party := by
    intro other holds
    by_contra different
    rw [Function.update_of_ne different] at holds
    exact free other holds
  have held : ∃ holder, Function.update state.place party .holding holder = .holding :=
    ⟨party, Function.update_self ..⟩
  constructor
  case word => exact .inr rfl
  case holder =>
    constructor
    · intro taken
      exact held
    · intro taken
      exact (by decide : (1 : UInt32) ≠ 0)
  case one =>
    intro first second firstHolds secondHolds
    rw [only first firstHolds, only second secondHolds]
  case each => exact inv.each_move party trivial
  case witness =>
    intro other asleep
    exact .inl held

/-! ### The calls -/

theorem Inv.tryLock {state : State Party} (inv : Inv state) {party : Party}
    (outside : state.place party = .outside) : Inv (state.tryLock party) := by
  have idle : state.waits party = .idle := by
    by_contra busy
    have waiting := (inv.each party).waiting busy
    rw [outside] at waiting
    cases waiting
  unfold State.tryLock
  by_cases free : state.mutex.tryLock.2 = true
  · rw [if_pos free]
    exact inv.acquire party free
  · rw [if_neg free, inv.tryLock_fails free]
    apply inv.move (by rw [outside]; nofun) (by nofun) (Fits.idle _) (.inl (by rw [idle]; nofun))
      (by rw [outside]; nofun)
    intro asleep
    cases asleep

theorem Inv.lockRound {state : State Party} (inv : Inv state) {party : Party}
    (before : state.place party = .outside ∨ state.place party = .waiting) :
    Inv (state.lockRound party) := by
  unfold State.lockRound
  by_cases free : state.mutex.tryLock.2 = true
  · rw [if_pos free]
    exact inv.acquire party free
  · rw [if_neg free, inv.tryLock_fails free]
    rw [inv.tryLock_iff, not_not] at free
    apply inv.move ?_ (by nofun) Fits.queued (.inr free)
    · rcases before with outside | waiting
      · rw [outside]
        nofun
      · rw [waiting]
        nofun
    · intro asleep
      exact free
    · rcases before with outside | waiting
      · rw [outside]
        nofun
      · rw [waiting]
        nofun

theorem Inv.compare {state : State Party} (inv : Inv state) {party : Party}
    (queued : (state.waits party).IsQueued) :
    Inv (state.setWait party ((state.waits party).compare state.mutex.mFutex)) := by
  have fits := inv.each party
  cases wait : state.waits party with
  | queued expected mask =>
      rw [wait] at fits
      rcases fits with ⟨waiting, rfl, rfl⟩
      rw [Futex.Wait.compare_queued (by decide)]
      by_cases taken : state.mutex.mFutex = 1
      · have held := inv.holder.1 (by rw [taken]; decide)
        rw [if_pos taken]
        apply inv.setWait waiting Fits.asleep (by rw [wait]; nofun)
        intro asleep
        exact held
      · rw [if_neg taken]
        apply inv.setWait waiting (Fits.returned _) (by rw [wait]; nofun)
        intro asleep
        cases asleep
  | idle | asleep _ | returned _ =>
      rw [wait] at queued
      cases queued

theorem Inv.cancel {state : State Party} (inv : Inv state) {party : Party}
    (open_ : (state.waits party).IsQueued ∨ (state.waits party).IsAsleep) :
    Inv (state.setWait party (.returned .canceled)) := by
  have waiting := (inv.each party).waiting (Futex.Wait.ne_idle open_)
  apply inv.setWait waiting (Fits.returned _)
  · intro woken
    apply Futex.Wait.not_hasReturned open_
    rw [woken]
    trivial
  · intro asleep
    cases asleep

theorem Inv.resume {state : State Party} (inv : Inv state) {party : Party}
    (returned : (state.waits party).HasReturned) : Inv (state.resume party) := by
  have waiting := (inv.each party).waiting returned.ne_idle
  have leaves : ∀ result, state.waits party = .returned result → result ≠ .woken →
      Inv (state.move party .outside .idle) := by
    intro result wait notWoken
    apply inv.move (by rw [waiting]; nofun) (by nofun) (Fits.idle _) ?_ (by rw [waiting]; nofun)
    · intro asleep
      cases asleep
    · rw [wait]
      exact .inl fun same => notWoken (Futex.Wait.returned.inj same)
  unfold State.resume
  cases wait : state.waits party with
  | returned result =>
      cases result with
      | woken | again => exact inv.lockRound (.inr waiting)
      | canceled => exact leaves .canceled wait nofun
      | invalid => exact leaves .invalid wait nofun
  | idle | queued _ _ | asleep _ => exact inv

theorem Inv.store {state : State Party} (inv : Inv state) {party : Party}
    (holds : state.place party = .holding) :
    Inv
      { state with
        mutex := state.mutex.store
        place := Function.update state.place party .unlocking } := by
  have none_ : ∀ other, Function.update state.place party .unlocking other ≠ .holding := by
    intro other held
    by_cases same : other = party
    · rw [same, Function.update_self] at held
      cases held
    · rw [Function.update_of_ne same] at held
      exact same (inv.one other party held holds)
  constructor
  case word => exact .inl rfl
  case holder =>
    constructor
    · intro taken
      exact absurd rfl taken
    · rintro ⟨other, held⟩
      exact absurd held (none_ other)
  case one =>
    intro first second firstHolds
    exact absurd firstHolds (none_ first)
  case each =>
    intro other
    by_cases same : other = party
    · have idle : state.waits other = .idle := by
        by_contra busy
        have waiting := (inv.each other).waiting busy
        rw [same, holds] at waiting
        cases waiting
      change Fits _ (state.waits other)
      rw [idle]
      trivial
    · change Fits (Function.update state.place party .unlocking other) _
      rw [Function.update_of_ne same]
      exact inv.each other
  case witness =>
    intro other asleep
    exact .inr (.inr ⟨party, Function.update_self ..⟩)

/-- The wake of unlock: afterwards there is a woken waiter, or there was no sleeper. -/
theorem Inv.wake {state : State Party} (inv : Inv state) {party : Party}
    (unlocking : state.place party = .unlocking) {woken : Option Party}
    (wakes : Futex.WakesOne state.waits Futex.matchAny woken) :
    Inv
      { state with
        place := Function.update state.place party .outside
        waits := Futex.wakeOne state.waits woken } := by
  have holding : ∀ other, Function.update state.place party .outside other = .holding ↔
      state.place other = .holding := by
    intro other
    by_cases same : other = party
    · rw [same, Function.update_self, unlocking]
      exact ⟨nofun, nofun⟩
    · rw [Function.update_of_ne same]
  constructor
  case word => exact inv.word
  case holder =>
    rw [exists_congr holding]
    exact inv.holder
  case one =>
    intro first second firstHolds secondHolds
    exact inv.one first second ((holding first).1 firstHolds) ((holding second).1 secondHolds)
  case each =>
    have left : ∀ other, Fits (Function.update state.place party .outside other)
        (state.waits other) := by
      intro other
      by_cases same : other = party
      · subst same
        by_cases idle : state.waits other = .idle
        · rw [idle]
          trivial
        · have waiting := (inv.each other).waiting idle
          rw [unlocking] at waiting
          cases waiting
      · rw [Function.update_of_ne same]
        exact inv.each other
    intro other
    change Fits _ (Futex.wakeOne state.waits woken other)
    by_cases same : woken = some other
    · subst same
      have meets : (state.waits other).Meets Futex.matchAny := wakes
      rw [Futex.wakeOne_chosen]
      exact (left other).waiting (Futex.Wait.ne_idle (.inr meets.isAsleep))
    · rw [Futex.wakeOne_of_ne same]
      exact left other
  case witness =>
    intro other asleep
    have before := Futex.wakeOne_isAsleep asleep
    cases woken with
    | none => exact absurd ((inv.each other).meets before) (wakes other)
    | some chosen => exact .inr (.inl ⟨chosen, Futex.wakeOne_chosen ..⟩)

/-! ### Runs -/

theorem Inv.next {state : State Party} (inv : Inv state) {action : Action Party}
    (enabled : Enabled state action) : Inv (next state action) := by
  cases action with
  | tryLock party => exact inv.tryLock enabled
  | lock party => exact inv.lockRound (.inl enabled)
  | compare party => exact inv.compare enabled
  | cancel party => exact inv.cancel enabled
  | resume party => exact inv.resume enabled
  | store party => exact inv.store enabled
  | wake party woken => exact inv.wake enabled.1 enabled.2

structure Guards (state : State Party) : Prop where
  one_holder : ∀ party other, state.place party = .holding → state.place other = .holding →
    party = other
  holder_iff : (∃ party, state.place party = .holding) ↔ state.mutex.mFutex = 1
  sleeper_has_witness : ∀ party, (state.waits party).IsAsleep →
    (∃ holder, state.place holder = .holding) ∨ (∃ other, state.waits other = .returned .woken) ∨
      ∃ other, state.place other = .unlocking
  /-- A free mutex with a sleeper has a step of a woken waiter or of an unlock to come. -/
  free_goes_on : state.mutex.mFutex ≠ 1 → ∀ party, (state.waits party).IsAsleep →
    ∃ other, Enabled state (.resume other) ∧ state.waits other = .returned .woken ∨
      ∃ woken, Enabled state (.wake other woken)

omit [DecidableEq Party] in
theorem Inv.guards {state : State Party} (inv : Inv state) : Guards state := by
  have holder_iff : (∃ party, state.place party = .holding) ↔ state.mutex.mFutex = 1 := by
    rw [← inv.holder]
    constructor
    · intro taken
      exact inv.word.resolve_left taken
    · intro one
      rw [one]
      decide
  constructor
  case one_holder => exact inv.one
  case holder_iff => exact holder_iff
  case sleeper_has_witness => exact inv.witness
  case free_goes_on =>
    intro free party asleep
    rcases inv.witness party asleep with held | ⟨woken, result⟩ | ⟨unlocker, unlocking⟩
    · exact absurd (holder_iff.1 held) free
    · refine ⟨woken, .inl ⟨?_, result⟩⟩
      change (state.waits woken).HasReturned
      rw [result]
      trivial
    · have meets := (inv.each party).meets asleep
      exact ⟨unlocker, .inr ⟨some party, unlocking, meets⟩⟩

/-- Any number of parties, any order of their steps. -/
theorem guards_always (Party : Type) [DecidableEq Party] (actions : List (Action Party))
    (runs : (machine Party).Runs .initial actions) :
    Guards ((machine Party).after .initial actions) := by
  have keeps : ∀ state action, Inv state → (machine Party).Enabled state action →
      Inv ((machine Party).next state action) := by
    intro state action inv enabled
    exact inv.next enabled
  exact (Machine.invariant Inv keeps Inv.initial runs).guards

/-- A waiter sleeps, the unlock wakes it, and a third party takes the mutex before it
retries. -/
theorem guards_always_barging :
    Guards ((machine (Fin 3)).after .initial
      [.lock 0, .lock 1, .compare 1, .store 0, .wake 0 (some 1), .tryLock 2, .resume 1,
        .compare 1]) :=
  guards_always (Fin 3) _ (by decide)

end MCoro.BasicMutex
