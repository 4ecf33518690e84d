/-
Runs of call_once: who holds a Locked that tests true, and how often there is one.

The stage of a party goes with its place in the mutex, so a holder is a holder of
the mutex, and there is one at most. mCalled is stored under the mutex and read
again under it: who reads false there comes before every set_ready.
-/

import MCoro.Generic.CallOnce
import MCoro.Generic.MutexRuns

namespace MCoro

/-! ### One step of the mutex -/

namespace BasicMutex

variable {Party : Type} [DecidableEq Party]

def Action.party : Action Party → Party
  | .tryLock party | .lock party | .compare party | .cancel party | .resume party
  | .store party | .wake party _ => party

theorem State.lockRound_place (state : State Party) (party : Party) :
    (state.lockRound party).place = Function.update state.place party .holding ∨
      (state.lockRound party).place = Function.update state.place party .waiting := by
  unfold State.lockRound
  split
  · exact .inl rfl
  · exact .inr rfl

theorem State.resume_place (state : State Party) (party : Party) :
    (state.resume party).place = state.place ∨
      ∃ place, (place = .holding ∨ place = .waiting ∨ place = .outside) ∧
        (state.resume party).place = Function.update state.place party place := by
  have round := state.lockRound_place party
  unfold State.resume
  split
  · right
    rcases round with holding | waiting
    · exact ⟨.holding, .inl rfl, holding⟩
    · exact ⟨.waiting, .inr (.inl rfl), waiting⟩
  · right
    rcases round with holding | waiting
    · exact ⟨.holding, .inl rfl, holding⟩
    · exact ⟨.waiting, .inr (.inl rfl), waiting⟩
  · exact .inr ⟨.outside, .inr (.inr rfl), rfl⟩
  · exact .inr ⟨.outside, .inr (.inr rfl), rfl⟩
  · exact .inl rfl

theorem next_place_of_ne (state : State Party) (action : Action Party) {other : Party}
    (different : other ≠ action.party) : (next state action).place other = state.place other := by
  cases action with
  | tryLock party | store party | wake party woken => exact Function.update_of_ne different ..
  | compare party | cancel party => rfl
  | lock party =>
      change (state.lockRound party).place other = _
      rcases state.lockRound_place party with same | same
      · rw [same]
        exact Function.update_of_ne different ..
      · rw [same]
        exact Function.update_of_ne different ..
  | resume party =>
      change (state.resume party).place other = _
      rcases state.resume_place party with same | ⟨place, _, same⟩
      · rw [same]
      · rw [same]
        exact Function.update_of_ne different ..

end BasicMutex

namespace CallOnce

open BasicMutex (Place)

variable {Party : Type}

/-! ### Stages and places -/

/-- The places in the mutex that go with a stage; some stages come after a set_ready. -/
def Agrees (called : Bool) : Stage → Place → Prop
  | .idle, place => place = .outside
  | .locking, place => place = .outside ∨ place = .waiting
  | .locked, place => place = .holding
  | .leaving, place => called = true ∧ (place = .holding ∨ place = .unlocking)
  | .holder ready, place =>
      (ready = true → called = true) ∧ (place = .holding ∨ place = .unlocking)

theorem Agrees.called {called : Bool} {stage : Stage} {place : Place}
    (agrees : Agrees called stage place) : Agrees true stage place := by
  cases stage with
  | idle | locking | locked => exact agrees
  | leaving => exact ⟨rfl, agrees.2⟩
  | holder ready => exact ⟨fun _ => rfl, agrees.2⟩

structure Inv (state : State Party) : Prop where
  mutex : BasicMutex.Inv state.mMutex
  agrees : ∀ party, Agrees state.mCalled (state.stage party) (state.mMutex.place party)

theorem Inv.initial : Inv (State.initial : State Party) where
  mutex := BasicMutex.Inv.initial
  agrees := fun _ => rfl

theorem Agrees.locking {called : Bool} {stage : Stage} (agrees : Agrees called stage .waiting) :
    stage = .locking := by
  cases stage with
  | idle | locked => cases agrees
  | locking => rfl
  | leaving | holder ready =>
      obtain ⟨_, holding | unlocking⟩ := agrees
      · cases holding
      · cases unlocking

theorem Agrees.unlocking {called : Bool} {stage : Stage} (agrees : Agrees called stage .unlocking) :
    stage = .leaving ∨ ∃ ready, stage = .holder ready := by
  cases stage with
  | idle | locked => cases agrees
  | locking => cases agrees <;> contradiction
  | leaving => exact .inl rfl
  | holder ready => exact .inr ⟨ready, rfl⟩

theorem Agrees.store {state : State Party} {party : Party}
    (agrees : Agrees state.mCalled (state.stage party) (state.mMutex.place party))
    (may : MayStep state (.store party)) :
    Agrees state.mCalled (state.stage party) .unlocking := by
  rcases may with leaving | ⟨ready, holder⟩
  · rw [leaving] at agrees ⊢
    exact ⟨agrees.1, .inr rfl⟩
  · rw [holder] at agrees ⊢
    exact ⟨agrees.1, .inr rfl⟩

variable [DecidableEq Party]

theorem Inv.move {state : State Party} (inv : Inv state) {called : Bool}
    {mutex : BasicMutex.State Party} {party : Party} {stage : Stage} {returned : List Bool}
    (mutexInv : BasicMutex.Inv mutex)
    (others : ∀ other, other ≠ party → mutex.place other = state.mMutex.place other)
    (later : called = state.mCalled ∨ called = true)
    (own : Agrees called stage (mutex.place party)) :
    Inv
      { mCalled := called
        mMutex := mutex
        stage := Function.update state.stage party stage
        returned := returned } where
  mutex := mutexInv
  agrees := by
    intro other
    change Agrees called (Function.update state.stage party stage other) (mutex.place other)
    by_cases same : other = party
    · subst same
      rw [Function.update_self]
      exact own
    · rw [Function.update_of_ne same, others other same]
      rcases later with kept | set
      · rw [kept]
        exact inv.agrees other
      · rw [set]
        exact (inv.agrees other).called

theorem Inv.mutexStep {state : State Party} (inv : Inv state) {action : BasicMutex.Action Party}
    (enabled : BasicMutex.Enabled state.mMutex action) {stage : Stage} {returned : List Bool}
    (own : Agrees state.mCalled stage ((BasicMutex.next state.mMutex action).place action.party)) :
    Inv
      { mCalled := state.mCalled
        mMutex := BasicMutex.next state.mMutex action
        stage := Function.update state.stage action.party stage
        returned := returned } :=
  inv.move (inv.mutex.next enabled)
    (fun _ different => BasicMutex.next_place_of_ne state.mMutex action different) (.inl rfl) own

theorem Inv.mutexStay {state : State Party} (inv : Inv state) {action : BasicMutex.Action Party}
    (enabled : BasicMutex.Enabled state.mMutex action)
    (own : Agrees state.mCalled (state.stage action.party)
      ((BasicMutex.next state.mMutex action).place action.party)) :
    Inv { state with mMutex := BasicMutex.next state.mMutex action } := by
  have moved : Inv
      { state with
        mMutex := BasicMutex.next state.mMutex action
        stage := Function.update state.stage action.party (state.stage action.party) } :=
    inv.mutexStep enabled own
  rw [Function.update_eq_self] at moved
  exact moved

theorem Inv.attempt {state : State Party} (inv : Inv state) {action : BasicMutex.Action Party}
    (enabled : BasicMutex.Enabled state.mMutex action)
    (locking : state.stage action.party = .locking)
    (place : (BasicMutex.next state.mMutex action).place action.party = .holding ∨
      (BasicMutex.next state.mMutex action).place action.party = .waiting ∨
        (BasicMutex.next state.mMutex action).place action.party = .outside) :
    Inv
      (if (BasicMutex.next state.mMutex action).place action.party = .holding then
        State.setStage { state with mMutex := BasicMutex.next state.mMutex action } action.party
          .locked
      else { state with mMutex := BasicMutex.next state.mMutex action }) := by
  rcases place with holding | open_
  · rw [if_pos holding]
    exact inv.mutexStep enabled holding
  · have notHolding : (BasicMutex.next state.mMutex action).place action.party ≠ .holding := by
      rcases open_ with waiting | outside
      · rw [waiting]
        decide
      · rw [outside]
        decide
    rw [if_neg notHolding]
    apply inv.mutexStay enabled
    rw [locking]
    exact open_.symm

theorem Inv.mutexNext {state : State Party} (inv : Inv state) {action : BasicMutex.Action Party}
    (may : MayStep state action) (enabled : BasicMutex.Enabled state.mMutex action) :
    Inv (State.settle { state with mMutex := BasicMutex.next state.mMutex action } action) := by
  have agrees := inv.agrees action.party
  cases action with
  | tryLock party => cases may
  | lock party =>
      apply inv.attempt enabled may
      change (state.mMutex.lockRound party).place party = _ ∨
        (state.mMutex.lockRound party).place party = _ ∨ _
      rcases state.mMutex.lockRound_place party with same | same
      · rw [same, Function.update_self]
        exact .inl rfl
      · rw [same, Function.update_self]
        exact .inr (.inl rfl)
  | resume party =>
      have returned : (state.mMutex.waits party).HasReturned := enabled
      have waiting := (inv.mutex.each party).waiting returned.ne_idle
      change Agrees state.mCalled (state.stage party) (state.mMutex.place party) at agrees
      rw [waiting] at agrees
      apply inv.attempt enabled agrees.locking
      change (state.mMutex.resume party).place party = _ ∨
        (state.mMutex.resume party).place party = _ ∨
          (state.mMutex.resume party).place party = _
      rcases state.mMutex.resume_place party with same | ⟨place, ends, same⟩
      · rw [same]
        exact .inr (.inl waiting)
      · rw [same, Function.update_self]
        exact ends
  | compare party | cancel party => exact inv.mutexStay enabled agrees
  | store party =>
      apply inv.mutexStay enabled
      have holding : state.mMutex.place party = .holding := enabled
      change Agrees state.mCalled (state.stage party) (state.mMutex.place party) at agrees
      change Agrees state.mCalled (state.stage party)
        (Function.update state.mMutex.place party .unlocking party)
      rw [Function.update_self]
      exact agrees.store may
  | wake party woken =>
      apply inv.mutexStep enabled
      exact Function.update_self ..

omit [DecidableEq Party] in
theorem Inv.withReturned {state : State Party} (inv : Inv state) (returned : List Bool) :
    Inv { state with returned := returned } where
  mutex := inv.mutex
  agrees := inv.agrees

theorem Inv.step {state : State Party} (inv : Inv state) {action : Action Party}
    (enabled : Enabled state action) : Inv (step state action) := by
  have stays : ∀ party other : Party, other ≠ party →
      state.mMutex.place other = state.mMutex.place other := fun _ _ _ => rfl
  cases action with
  | enter party =>
      have idle : state.stage party = .idle := enabled
      have agrees := inv.agrees party
      rw [idle] at agrees
      change Inv (if state.mCalled then state else state.setStage party .locking)
      by_cases called : state.mCalled
      · rw [if_pos called]
        exact inv
      · rw [if_neg called]
        exact inv.move inv.mutex (stays party) (.inl rfl) (.inl agrees)
  | mutex action => exact inv.mutexNext enabled.1 enabled.2
  | check party =>
      have locked : state.stage party = .locked := enabled
      have holding := inv.agrees party
      rw [locked] at holding
      apply inv.move inv.mutex (stays party) (.inl rfl)
      by_cases called : state.mCalled
      · rw [if_pos called]
        exact ⟨called, .inl holding⟩
      · rw [if_neg called]
        exact ⟨nofun, .inl holding⟩
  | setReady party =>
      exact inv.move inv.mutex (stays party) (.inr rfl) ⟨fun _ => rfl, .inl enabled.2⟩

theorem Inv.next {state : State Party} (inv : Inv state) {action : Action Party}
    (enabled : Enabled state action) : Inv (next state action) :=
  (inv.step enabled).withReturned _

theorem inv_always {actions : List (Action Party)}
    (runs : (machine Party).Runs .initial actions) : Inv ((machine Party).after .initial actions) :=
  Machine.invariant Inv (fun _ _ inv enabled => inv.next enabled) Inv.initial runs

omit [DecidableEq Party] in
theorem Inv.one_holder {state : State Party} (inv : Inv state) {party other : Party}
    (holds : state.Holds party) (otherHolds : state.Holds other) : party = other :=
  inv.mutex.one party other holds.2 otherHolds.2

/-! ### The flag -/

theorem State.settle_cases (state : State Party) (action : BasicMutex.Action Party) :
    state.settle action = state ∨ ∃ stage, state.settle action = state.setStage action.party stage := by
  cases action with
  | lock party | resume party =>
      by_cases holding : state.mMutex.place party = .holding
      · exact .inr ⟨.locked, if_pos holding⟩
      · exact .inl (if_neg holding)
  | wake party woken => exact .inr ⟨.idle, rfl⟩
  | tryLock party | compare party | cancel party | store party => exact .inl rfl

@[simp] theorem State.settle_mCalled (state : State Party) (action : BasicMutex.Action Party) :
    (state.settle action).mCalled = state.mCalled := by
  rcases state.settle_cases action with same | ⟨stage, same⟩
  · rw [same]
  · rw [same]
    rfl

theorem next_mCalled (state : State Party) (action : Action Party) :
    (next state action).mCalled = true ↔
      state.mCalled = true ∨ ∃ party, action = .setReady party := by
  cases action with
  | enter party =>
      change (if state.mCalled then state else state.setStage party .locking).mCalled = true ↔ _
      constructor
      · split
        · exact .inl
        · exact .inl
      · rintro (called | ⟨_, same⟩)
        · rw [if_pos called]
          exact called
        · cases same
  | mutex action =>
      change (State.settle _ action).mCalled = true ↔ _
      rw [State.settle_mCalled]
      constructor
      · exact .inl
      · rintro (called | ⟨_, same⟩)
        · exact called
        · cases same
  | check party =>
      constructor
      · exact .inl
      · rintro (called | ⟨_, same⟩)
        · exact called
        · cases same
  | setReady party =>
      constructor
      · intro _
        exact .inr ⟨party, rfl⟩
      · intro _
        rfl

theorem after_mCalled (state : State Party) (actions : List (Action Party)) :
    ((machine Party).after state actions).mCalled = true ↔
      state.mCalled = true ∨ ∃ party, .setReady party ∈ actions := by
  induction actions generalizing state with
  | nil =>
      constructor
      · exact .inl
      · rintro (called | ⟨_, never⟩)
        · exact called
        · cases never
  | cons action rest ih =>
      change ((machine Party).after (next state action) rest).mCalled = true ↔ _
      rw [ih, next_mCalled, or_assoc]
      apply or_congr_right
      constructor
      · rintro (⟨party, same⟩ | ⟨party, later⟩)
        · exact ⟨party, List.mem_cons.2 (.inl same.symm)⟩
        · exact ⟨party, List.mem_cons_of_mem action later⟩
      · rintro ⟨party, found⟩
        rcases List.mem_cons.1 found with same | later
        · exact .inl ⟨party, same.symm⟩
        · exact .inr ⟨party, later⟩

omit [DecidableEq Party] in
theorem returns_cases {state : State Party} {action : Action Party} {tests : Bool}
    (result : returns state action = some tests) :
    (tests = false ∧ state.mCalled = true) ∨
      (tests = false ∧ ∃ party, state.stage party = .leaving) ∨
      (tests = true ∧ state.mCalled = false) := by
  cases action with
  | enter party =>
      change (if state.mCalled then some false else none) = some tests at result
      by_cases called : state.mCalled
      · rw [if_pos called] at result
        exact .inl ⟨(Option.some.inj result).symm, called⟩
      · rw [if_neg called] at result
        cases result
  | mutex action =>
      cases action with
      | wake party woken =>
          change (if state.stage party = .leaving then some false else none) = some tests at result
          by_cases leaving : state.stage party = .leaving
          · rw [if_pos leaving] at result
            exact .inr (.inl ⟨(Option.some.inj result).symm, party, leaving⟩)
          · rw [if_neg leaving] at result
            cases result
      | tryLock party | lock party | compare party | cancel party | resume party | store party =>
          cases result
  | check party =>
      change (if state.mCalled then none else some true) = some tests at result
      by_cases called : state.mCalled
      · rw [if_pos called] at result
        cases result
      · rw [if_neg called] at result
        exact .inr (.inr ⟨(Option.some.inj result).symm, Bool.eq_false_iff.2 called⟩)
  | setReady party => cases result

omit [DecidableEq Party] in
/-- A Locked that tests true is returned while mCalled is false. -/
theorem not_called_of_returns_true {state : State Party} {action : Action Party}
    (result : returns state action = some true) : state.mCalled = false := by
  rcases returns_cases result with ⟨different, _⟩ | ⟨different, _⟩ | ⟨_, notCalled⟩
  · cases different
  · cases different
  · exact notCalled

omit [DecidableEq Party] in
/-- One that tests false is returned when mCalled is true. -/
theorem Inv.called_of_returns_false {state : State Party} (inv : Inv state) {action : Action Party}
    (result : returns state action = some false) : state.mCalled = true := by
  rcases returns_cases result with ⟨_, called⟩ | ⟨_, party, leaving⟩ | ⟨different, _⟩
  · exact called
  · have agrees := inv.agrees party
    rw [leaving] at agrees
    exact agrees.1
  · cases different

/-! ### How many initialise -/

/-- Who holds a Locked that tests true calls set_ready before it gives the mutex back. -/
def ReadyFirst (state : State Party) : Action Party → Prop
  | .mutex (.store party) => state.stage party ≠ .holder false
  | _ => True

/-- Whether a Locked that tests true has been returned. -/
def State.Begun (state : State Party) : Prop :=
  state.mCalled = true ∨ ∃ party, state.stage party = .holder false

structure Counts (state : State Party) : Prop where
  inv : Inv state
  /-- A holder that has yet to call set_ready has the mutex. -/
  ready : ∀ party, state.stage party = .holder false → state.mMutex.place party = .holding
  before : ¬state.Begun → state.returned = []
  after : state.Begun → state.returned.count true = 1

omit [DecidableEq Party] in
theorem Counts.initial : Counts (State.initial : State Party) := by
  constructor
  case inv => exact Inv.initial
  case ready =>
    intro party holder
    cases holder
  case before =>
    intro _
    rfl
  case after =>
    rintro (called | ⟨_, holder⟩)
    · cases called
    · cases holder

def Action.party : Action Party → Party
  | .enter party | .check party | .setReady party => party
  | .mutex action => action.party

theorem settle_stage (state : State Party) (action : BasicMutex.Action Party) {other : Party}
    (different : other ≠ action.party) : (state.settle action).stage other = state.stage other := by
  rcases state.settle_cases action with same | ⟨stage, same⟩
  · rw [same]
  · rw [same]
    exact Function.update_of_ne different ..

theorem settle_mMutex (state : State Party) (action : BasicMutex.Action Party) :
    (state.settle action).mMutex = state.mMutex := by
  rcases state.settle_cases action with same | ⟨stage, same⟩
  · rw [same]
  · rw [same]
    rfl

theorem next_of_ne (state : State Party) (action : Action Party) {other : Party}
    (different : other ≠ action.party) :
    (next state action).stage other = state.stage other ∧
      (next state action).mMutex.place other = state.mMutex.place other := by
  cases action with
  | enter party =>
      change (if state.mCalled then state else state.setStage party .locking).stage other = _ ∧
        (if state.mCalled then state else state.setStage party .locking).mMutex.place other = _
      split
      · exact ⟨rfl, rfl⟩
      · exact ⟨Function.update_of_ne different .., rfl⟩
  | mutex action =>
      change (State.settle _ action).stage other = _ ∧ (State.settle _ action).mMutex.place other = _
      rw [settle_stage _ action different, settle_mMutex]
      exact ⟨rfl, BasicMutex.next_place_of_ne state.mMutex action different⟩
  | check party | setReady party => exact ⟨Function.update_of_ne different .., rfl⟩

/-- The party is no holder without a set_ready, neither before the step nor after it, and
nothing is returned. -/
theorem Counts.quiet {state : State Party} (counts : Counts state) {action : Action Party}
    (enabled : Enabled state action) (called : (next state action).mCalled = state.mCalled)
    (returned : (next state action).returned = state.returned)
    (was : state.stage action.party ≠ .holder false)
    (becomes : (next state action).stage action.party ≠ .holder false) :
    Counts (next state action) := by
  have holders : ∀ party, (next state action).stage party = .holder false →
      party ≠ action.party ∧ state.stage party = .holder false := by
    intro party holder
    by_cases same : party = action.party
    · rw [same] at holder
      exact absurd holder becomes
    · rw [(next_of_ne state action same).1] at holder
      exact ⟨same, holder⟩
  have begun : (next state action).Begun ↔ state.Begun := by
    unfold State.Begun
    rw [called]
    apply or_congr_right
    constructor
    · rintro ⟨party, holder⟩
      exact ⟨party, (holders party holder).2⟩
    · rintro ⟨party, holder⟩
      have different : party ≠ action.party := fun same => was (same ▸ holder)
      exact ⟨party, (next_of_ne state action different).1.trans holder⟩
  constructor
  case inv => exact counts.inv.next enabled
  case ready =>
    intro party holder
    obtain ⟨different, before⟩ := holders party holder
    rw [(next_of_ne state action different).2]
    exact counts.ready party before
  case before =>
    intro notBegun
    rw [returned]
    exact counts.before (begun.not.1 notBegun)
  case after =>
    intro hasBegun
    rw [returned]
    exact counts.after (begun.1 hasBegun)

/-- A Locked that tests true has been returned, mCalled is true after the step, and no further
one is returned. -/
theorem Counts.settled {state : State Party} (counts : Counts state) {action : Action Party}
    (enabled : Enabled state action) (begun : state.Begun)
    (called : (next state action).mCalled = true)
    (becomes : (next state action).stage action.party ≠ .holder false)
    (result : returns state action ≠ some true) : Counts (next state action) := by
  constructor
  case inv => exact counts.inv.next enabled
  case ready =>
    intro party holder
    by_cases same : party = action.party
    · rw [same] at holder
      exact absurd holder becomes
    · have stays := next_of_ne state action same
      rw [stays.1] at holder
      exact stays.2.trans (counts.ready party holder)
  case before =>
    intro notBegun
    exact absurd (.inl called) notBegun
  case after =>
    intro _
    change (state.returned ++ (returns state action).toList).count true = 1
    rw [List.count_append, counts.after begun]
    cases returned : returns state action with
    | none => rfl
    | some tests =>
        cases tests with
        | false => rfl
        | true => exact absurd returned result

theorem Counts.mutexQuiet {state : State Party} (counts : Counts state)
    {action : BasicMutex.Action Party} (enabled : Enabled state (.mutex action))
    (silent : returns state (.mutex action) = none)
    (was : state.stage action.party ≠ .holder false)
    (becomes : (State.settle { state with mMutex := BasicMutex.next state.mMutex action }
      action).stage action.party = .locked ∨
        (State.settle { state with mMutex := BasicMutex.next state.mMutex action }
          action).stage action.party = state.stage action.party) :
    Counts (next state (.mutex action)) := by
  apply counts.quiet enabled
  · exact State.settle_mCalled _ action
  · change state.returned ++ (returns state (.mutex action)).toList = _
    rw [silent]
    exact List.append_nil _
  · exact was
  · change (State.settle _ action).stage action.party ≠ _
    rcases becomes with locked | same
    · rw [locked]
      nofun
    · rw [same]
      exact was

theorem settle_attempt (state : State Party) (party : Party) :
    (if state.mMutex.place party = .holding then state.setStage party .locked
      else state).stage party = .locked ∨
      (if state.mMutex.place party = .holding then state.setStage party .locked
        else state).stage party = state.stage party := by
  split
  · exact .inl (Function.update_self ..)
  · exact .inr rfl

omit [DecidableEq Party] in
theorem Inv.waits {state : State Party} (inv : Inv state) {party : Party}
    (busy : state.mMutex.waits party ≠ .idle) : state.stage party = .locking := by
  have agrees := inv.agrees party
  rw [(inv.mutex.each party).waiting busy] at agrees
  exact agrees.locking

omit [DecidableEq Party] in
theorem Counts.called_of_unlocking {state : State Party} (counts : Counts state) {party : Party}
    (unlocking : state.mMutex.place party = .unlocking) : state.mCalled = true := by
  have agrees := counts.inv.agrees party
  rw [unlocking] at agrees
  rcases agrees.unlocking with leaving | ⟨ready, holder⟩
  · rw [leaving] at agrees
    exact agrees.1
  · cases ready with
    | true =>
        rw [holder] at agrees
        exact agrees.1 rfl
    | false =>
        have holding := counts.ready party holder
        rw [unlocking] at holding
        cases holding

theorem Counts.mutexNext {state : State Party} (counts : Counts state)
    {action : BasicMutex.Action Party} (enabled : Enabled state (.mutex action))
    (first : ReadyFirst state (.mutex action)) : Counts (next state (.mutex action)) := by
  cases action with
  | tryLock party => cases enabled.1
  | lock party =>
      have locking : state.stage party = .locking := enabled.1
      apply counts.mutexQuiet enabled rfl
      · change state.stage party ≠ _
        rw [locking]
        nofun
      · exact settle_attempt { state with mMutex := state.mMutex.lockRound party } party
  | resume party =>
      have returned : (state.mMutex.waits party).HasReturned := enabled.2
      apply counts.mutexQuiet enabled rfl
      · change state.stage party ≠ _
        rw [counts.inv.waits returned.ne_idle]
        nofun
      · exact settle_attempt { state with mMutex := state.mMutex.resume party } party
  | compare party =>
      have queued : (state.mMutex.waits party).IsQueued := enabled.2
      apply counts.mutexQuiet enabled rfl
      · change state.stage party ≠ _
        rw [counts.inv.waits (Futex.Wait.ne_idle (.inl queued))]
        nofun
      · exact .inr rfl
  | cancel party =>
      apply counts.mutexQuiet enabled rfl
      · change state.stage party ≠ _
        rw [counts.inv.waits (Futex.Wait.ne_idle enabled.2)]
        nofun
      · exact .inr rfl
  | store party => exact counts.mutexQuiet enabled rfl first (.inr rfl)
  | wake party woken =>
      have called := counts.called_of_unlocking enabled.2.1
      apply counts.settled enabled (.inl called) ((next_mCalled ..).2 (.inl called))
      · change Function.update state.stage party .idle party ≠ _
        rw [Function.update_self]
        nofun
      · change (if state.stage party = .leaving then some false else none) ≠ some true
        split
        · nofun
        · nofun

theorem Counts.check {state : State Party} (counts : Counts state) {party : Party}
    (locked : state.stage party = .locked) : Counts (next state (.check party)) := by
  have enabled : Enabled state (.check party) := locked
  have holding := counts.inv.agrees party
  rw [locked] at holding
  have stage : (next state (.check party)).stage party =
      if state.mCalled then .leaving else .holder false := Function.update_self ..
  by_cases called : state.mCalled
  · rw [if_pos called] at stage
    apply counts.settled enabled (.inl called) ((next_mCalled ..).2 (.inl called))
    · change (next state (.check party)).stage party ≠ _
      rw [stage]
      nofun
    · change (if state.mCalled then none else some true) ≠ some true
      rw [if_pos called]
      nofun
  · rw [if_neg called] at stage
    have fresh : ¬state.Begun := by
      rintro (wasCalled | ⟨other, holder⟩)
      · exact called wasCalled
      · have same := counts.inv.mutex.one other party (counts.ready other holder) holding
        rw [same, locked] at holder
        cases holder
    constructor
    case inv => exact counts.inv.next enabled
    case ready =>
      intro other holder
      by_cases same : other = party
      · rw [same]
        exact holding
      · have stays := next_of_ne state (.check party) same
        rw [stays.1] at holder
        exact stays.2.trans (counts.ready other holder)
    case before =>
      intro notBegun
      exact absurd (.inr ⟨party, stage⟩) notBegun
    case after =>
      intro _
      change (state.returned ++ (if state.mCalled then none else some true).toList).count true = 1
      rw [counts.before fresh, if_neg called]
      rfl

theorem Counts.next {state : State Party} (counts : Counts state) {action : Action Party}
    (enabled : Enabled state action) (first : ReadyFirst state action) :
    Counts (next state action) := by
  cases action with
  | enter party =>
      have idle : state.stage party = .idle := enabled
      by_cases called : state.mCalled
      · apply counts.settled enabled (.inl called) ((next_mCalled ..).2 (.inl called))
        · change (if state.mCalled then state else state.setStage party .locking).stage party ≠ _
          rw [if_pos called, idle]
          nofun
        · change (if state.mCalled then some false else none) ≠ some true
          rw [if_pos called]
          nofun
      · apply counts.quiet enabled
        · change (if state.mCalled then state else state.setStage party .locking).mCalled = _
          rw [if_neg called]
          rfl
        · change state.returned ++ (if state.mCalled then some false else none).toList = _
          rw [if_neg called]
          exact List.append_nil _
        · change state.stage party ≠ _
          rw [idle]
          nofun
        · change (if state.mCalled then state else state.setStage party .locking).stage party ≠ _
          rw [if_neg called]
          change Function.update state.stage party .locking party ≠ _
          rw [Function.update_self]
          nofun
  | mutex action => exact counts.mutexNext enabled first
  | check party => exact counts.check enabled
  | setReady party =>
      have begun : state.Begun := by
        obtain ⟨⟨ready, holder⟩, _⟩ := enabled
        cases ready with
        | false => exact .inr ⟨party, holder⟩
        | true =>
            have agrees := counts.inv.agrees party
            rw [holder] at agrees
            exact .inl (agrees.1 rfl)
      apply counts.settled enabled begun rfl
      · change Function.update state.stage party (.holder true) party ≠ _
        rw [Function.update_self]
        nofun
      · nofun

/-! ### Runs -/

structure InitialisesOnce (actions : List (Action Party)) : Prop where
  one_holder : ∀ party other, ((machine Party).after .initial actions).Holds party →
    ((machine Party).after .initial actions).Holds other → party = other
  /-- A Locked that tests true is returned before every set_ready. -/
  true_before : ∀ front action back, actions = front ++ action :: back →
    returns ((machine Party).after .initial front) action = some true →
      ¬∃ party, .setReady party ∈ front
  /-- One that tests false is returned after a set_ready. -/
  false_after : ∀ front action back, actions = front ++ action :: back →
    returns ((machine Party).after .initial front) action = some false →
      ∃ party, .setReady party ∈ front
  /-- Where every holder calls set_ready, one call initialises, and no call returns without it. -/
  exactly_once : (machine Party).Along ReadyFirst .initial actions →
    ((machine Party).after .initial actions).returned.count true ≤ 1 ∧
      (((machine Party).after .initial actions).returned ≠ [] →
        ((machine Party).after .initial actions).returned.count true = 1)

theorem counts_always {actions : List (Action Party)}
    (runs : (machine Party).Runs .initial actions)
    (first : (machine Party).Along ReadyFirst .initial actions) :
    Counts ((machine Party).after .initial actions) :=
  Machine.invariant_along Counts (fun _ _ counts enabled first => counts.next enabled first)
    Counts.initial runs first

/-- Any number of callers, any order of their steps. -/
theorem call_once_initialises (Party : Type) [DecidableEq Party] (actions : List (Action Party))
    (runs : (machine Party).Runs .initial actions) : InitialisesOnce actions := by
  constructor
  case one_holder =>
    intro party other
    exact (inv_always runs).one_holder
  case true_before =>
    rintro front action back split result
    have notCalled := not_called_of_returns_true result
    rintro ready
    have called := (after_mCalled State.initial front).2 (.inr ready)
    rw [notCalled] at called
    cases called
  case false_after =>
    rintro front action back split result
    rw [split] at runs
    have called := (inv_always (Machine.Along.step runs).1).called_of_returns_false result
    rcases (after_mCalled State.initial front).1 called with initially | ready
    · cases initially
    · exact ready
  case exactly_once =>
    intro first
    have counts := counts_always runs first
    by_cases begun : ((machine Party).after .initial actions).Begun
    · have one := counts.after begun
      exact ⟨one.le, fun _ => one⟩
    · have none_ := counts.before begun
      rw [none_]
      exact ⟨Nat.zero_le 1, fun some_ => absurd rfl some_⟩

/-- A second caller sleeps on the mutex and its wait is cancelled, it tries again and finds
mCalled true under the lock; a third caller finds it true at once. -/
theorem call_once_initialises_three :
    InitialisesOnce
      ([.enter 0, .enter 1, .mutex (.lock 0), .mutex (.lock 1), .mutex (.compare 1), .check 0,
        .mutex (.cancel 1), .mutex (.resume 1), .mutex (.lock 1), .setReady 0, .mutex (.compare 1),
        .mutex (.store 0), .mutex (.wake 0 (some 1)), .enter 2, .mutex (.resume 1), .check 1,
        .mutex (.store 1), .mutex (.wake 1 none)] : List (Action (Fin 3))) :=
  call_once_initialises (Fin 3) _ (by decide +kernel)

end CallOnce

end MCoro
