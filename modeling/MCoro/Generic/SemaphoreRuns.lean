/-
Runs of a semaphore: what its calls change.

The counter stays within its bounds and accounts for all exchanges, whatever the
outcomes. A call that returns success has changed it exactly once if its first
exchange succeeded and the next one failed.
-/

import MCoro.Generic.Semaphore
import MCoro.Library.Population
import MCoro.Library.Words

namespace MCoro.Semaphore

/-- The changes made by the calls of one direction. -/
def Direction.changes (direction : Direction) : Option Call → Nat
  | some call => if call.direction = direction then call.changes else 0
  | none => 0

/-- The calls of that direction that have returned success. -/
def Direction.successes (direction : Direction) : Option Call → Nat
  | some call => if call.direction = direction ∧ call.position = .succeeded then 1 else 0
  | none => 0

def State.changed (state : State) (direction : Direction) : Nat :=
  Population.total direction.changes state.known state.calls

def State.succeeded (state : State) (direction : Direction) : Nat :=
  Population.total direction.successes state.known state.calls

/-! ### Accounting -/

structure Accounts (maxCount initialCount : UInt32) (state : State) : Prop where
  known : ∀ id call, state.calls id = some call → id ∈ state.known
  distinct : state.known.Nodup
  maximum : state.semaphore.mMaxCount = maxCount
  bounded : state.semaphore.mCounter ≤ maxCount
  inside : ∀ id call count, state.calls id = some call → call.position = .exchanging count →
    count ≠ call.direction.limit state.semaphore
  conserved : state.semaphore.mCounter.toNat + state.changed .acquire =
    initialCount.toNat + state.changed .release

variable {maxCount initialCount : UInt32}

theorem Accounts.initial (within : initialCount ≤ maxCount) :
    Accounts maxCount initialCount (State.initial maxCount initialCount) :=
  { known := by
      intro id call found
      cases found
    distinct := List.nodup_nil
    maximum := rfl
    bounded := within
    inside := by
      intro id call count found
      cases found
    conserved := rfl }

theorem State.set_same (state : State) (id : Nat) (call : Call) :
    (state.set id call).calls id = some call :=
  Function.update_self ..

theorem State.set_other (state : State) {id other : Nat} (different : other ≠ id) (call : Call) :
    (state.set id call).calls other = state.calls other :=
  Function.update_of_ne different ..

/-- A call that is found after an assignment is the assigned one or was there before. -/
theorem State.set_cases {state : State} {id other : Nat} {call probe : Call}
    (at_ : (state.set id call).calls other = some probe) :
    other = id ∧ probe = call ∨ other ≠ id ∧ state.calls other = some probe := by
  by_cases same : other = id
  · rw [same, set_same] at at_
    exact .inl ⟨same, (Option.some.inj at_).symm⟩
  · rw [set_other _ same] at at_
    exact .inr ⟨same, at_⟩

theorem Accounts.setWait {state : State} (accounts : Accounts maxCount initialCount state)
    (id : Nat) (wait : Futex.Wait) : Accounts maxCount initialCount (state.setWait id wait) :=
  { accounts with }

theorem Accounts.changed_set {state : State} (accounts : Accounts maxCount initialCount state)
    {id : Nat} {call moved : Call} (found : state.calls id = some call) (direction : Direction) :
    (state.set id moved).changed direction + direction.changes (some call) =
      state.changed direction + direction.changes (some moved) := by
  have total := Population.total_update direction.changes state.calls accounts.distinct
    (accounts.known id call found) (some moved)
  rw [found] at total
  exact total

theorem Accounts.goTo {state : State} (accounts : Accounts maxCount initialCount state) {id : Nat}
    {call : Call} (found : state.calls id = some call) {position : Position}
    (inside : ∀ count, position = .exchanging count →
      count ≠ call.direction.limit state.semaphore) :
    Accounts maxCount initialCount (state.set id { call with position := position }) := by
  have same : ∀ direction,
      (state.set id { call with position := position }).changed direction =
        state.changed direction := by
    intro direction
    have total : (state.set id { call with position := position }).changed direction + _ = _ :=
      accounts.changed_set found direction
    change _ + direction.changes (some call) = _ + direction.changes (some call) at total
    omega
  constructor
  case known =>
    intro other probe at_
    by_cases equal : other = id
    · rw [equal]
      exact accounts.known id call found
    · rw [state.set_other equal] at at_
      exact accounts.known other probe at_
  case distinct => exact accounts.distinct
  case maximum => exact accounts.maximum
  case bounded => exact accounts.bounded
  case inside =>
    intro other probe count at_ exchanging
    rcases State.set_cases at_ with ⟨rfl, rfl⟩ | ⟨_, before⟩
    · exact inside count exchanging
    · exact accounts.inside other probe count before exchanging
  case conserved =>
    rw [same, same]
    exact accounts.conserved

theorem Accounts.round {state : State} (accounts : Accounts maxCount initialCount state) {id : Nat}
    {call : Call} (found : state.calls id = some call) (count : UInt32) :
    Accounts maxCount initialCount (state.round id call count) := by
  unfold State.round
  by_cases blocked : count = call.direction.limit state.semaphore
  · rw [if_pos blocked]
    apply Accounts.setWait
    apply accounts.goTo found
    intro other position
    cases position
  · rw [if_neg blocked]
    apply accounts.goTo found
    intro other position
    cases position
    exact blocked

theorem Direction.limit_store (direction : Direction) (state : State) (counter : UInt32) :
    direction.limit (state.store counter).semaphore = direction.limit state.semaphore := by
  cases direction <;> rfl

theorem State.exchange_cases (state : State) (id : Nat) {call : Call} {count : UInt32}
    (inside : count ≠ call.direction.limit state.semaphore) (spurious : Bool) :
    (spurious = false ∧ state.semaphore.mCounter = count ∧
        state.exchange id call count spurious =
          (state.store (call.direction.desired count)).set id
            { call with
              position := .exchanging count
              changes := call.changes + 1 }) ∨
      ((spurious = true ∨ state.semaphore.mCounter ≠ count) ∧
        state.exchange id call count spurious =
          state.set id { call with position := .notifying }) := by
  unfold exchange compareExchangeWeak compareExchange
  cases spurious with
  | true => exact .inr ⟨.inl rfl, rfl⟩
  | false =>
      rw [if_neg Bool.false_ne_true]
      by_cases same : state.semaphore.mCounter = count
      · rw [if_pos same]
        refine .inl ⟨rfl, same, ?_⟩
        change (state.store _).round id _ count = _
        unfold round
        rw [Direction.limit_store]
        exact if_neg inside
      · rw [if_neg same]
        exact .inr ⟨.inr same, rfl⟩

theorem Direction.desired_within (direction : Direction) {semaphore : Semaphore}
    (bounded : semaphore.mCounter ≤ semaphore.mMaxCount)
    (inside : semaphore.mCounter ≠ direction.limit semaphore) :
    direction.desired semaphore.mCounter ≤ semaphore.mMaxCount ∧
      (direction = .acquire →
        (direction.desired semaphore.mCounter).toNat + 1 = semaphore.mCounter.toNat) ∧
      (direction = .release →
        (direction.desired semaphore.mCounter).toNat = semaphore.mCounter.toNat + 1) := by
  cases direction with
  | acquire =>
      have less := toNat_sub_one inside
      rw [UInt32.le_iff_toNat_le] at bounded ⊢
      change (semaphore.mCounter - 1).toNat ≤ _ ∧
        (_ → (semaphore.mCounter - 1).toNat + 1 = semaphore.mCounter.toNat) ∧ _
      refine ⟨by omega, fun _ => less, nofun⟩
  | release =>
      rcases toNat_add_one bounded inside with ⟨within, more⟩
      exact ⟨within, nofun, fun _ => more⟩

/-- An exchange adds one to the changes of its direction. -/
theorem Accounts.changed_exchange {state : State} (accounts : Accounts maxCount initialCount state)
    {id : Nat} {call : Call} (found : state.calls id = some call) (position : Position)
    (direction : Direction) :
    (state.set id
        { call with
          position := position
          changes := call.changes + 1 }).changed direction =
      state.changed direction + if call.direction = direction then 1 else 0 := by
  have total : (state.set id
      { call with
        position := position
        changes := call.changes + 1 }).changed direction + _ = _ :=
    accounts.changed_set found direction
  unfold Direction.changes at total
  simp only at total
  by_cases own : call.direction = direction
  · rw [if_pos own, if_pos own] at total
    rw [if_pos own]
    omega
  · rw [if_neg own, if_neg own] at total
    rw [if_neg own]
    exact total

theorem Accounts.change {state : State} (accounts : Accounts maxCount initialCount state) {id : Nat}
    {call : Call} (found : state.calls id = some call)
    (inside : state.semaphore.mCounter ≠ call.direction.limit state.semaphore) :
    Accounts maxCount initialCount
      ((state.store (call.direction.desired state.semaphore.mCounter)).set id
        { call with
          position := .exchanging state.semaphore.mCounter
          changes := call.changes + 1 }) := by
  have bounded := accounts.bounded
  rw [← accounts.maximum] at bounded
  rcases call.direction.desired_within bounded inside with ⟨within, difference⟩
  constructor
  case known =>
    intro other probe at_
    by_cases equal : other = id
    · rw [equal]
      exact accounts.known id call found
    · rw [State.set_other _ equal] at at_
      exact accounts.known other probe at_
  case distinct => exact accounts.distinct
  case maximum => exact accounts.maximum
  case bounded =>
    rw [accounts.maximum] at within
    exact within
  case inside =>
    intro other probe count at_ exchanging
    change count ≠ probe.direction.limit
      (state.store (call.direction.desired state.semaphore.mCounter)).semaphore
    rw [Direction.limit_store]
    rcases State.set_cases at_ with ⟨rfl, rfl⟩ | ⟨_, before⟩
    · cases exchanging
      exact inside
    · exact accounts.inside other probe count before exchanging
  case conserved =>
    have conserved := accounts.conserved
    have acquires := accounts.changed_exchange found (.exchanging state.semaphore.mCounter) .acquire
    have releases := accounts.changed_exchange found (.exchanging state.semaphore.mCounter) .release
    rcases difference with ⟨less, more⟩
    change (call.direction.desired state.semaphore.mCounter).toNat +
      (state.set id _).changed .acquire = _ + (state.set id _).changed .release
    rw [acquires, releases]
    cases direction : call.direction with
    | acquire =>
        have taken := less direction
        rw [direction] at taken
        rw [if_pos rfl, if_neg nofun]
        omega
    | release =>
        have given := more direction
        rw [direction] at given
        rw [if_neg nofun, if_pos rfl]
        omega

theorem Accounts.exchange {state : State} (accounts : Accounts maxCount initialCount state)
    {id : Nat} {call : Call} (found : state.calls id = some call) {count : UInt32}
    (position : call.position = .exchanging count) (spurious : Bool) :
    Accounts maxCount initialCount (state.exchange id call count spurious) := by
  have inside := accounts.inside id call count found position
  rcases state.exchange_cases id inside spurious with ⟨_, same, success⟩ | ⟨_, failure⟩
  · rw [success]
    subst same
    exact accounts.change found inside
  · rw [failure]
    apply accounts.goTo found
    intro other exchanging
    cases exchanging

theorem Accounts.enter {state : State} (accounts : Accounts maxCount initialCount state) {id : Nat}
    (fresh : id ∉ state.known) (direction : Direction) :
    Accounts maxCount initialCount
      ({ state with known := id :: state.known }.set id
        { direction := direction
          position := .loading
          changes := 0 }) := by
  have same : ∀ side : Direction, ({ state with known := id :: state.known }.set id
      { direction := direction
        position := .loading
        changes := 0 }).changed side = state.changed side := by
    intro side
    have total := Population.total_enter side.changes state.calls fresh (some
      { direction := direction
        position := .loading
        changes := 0 })
    have nothing : side.changes (some
        { direction := direction
          position := .loading
          changes := 0 }) = 0 := ite_self 0
    rw [nothing] at total
    exact total
  constructor
  case known =>
    intro other probe at_
    by_cases equal : other = id
    · rw [equal]
      exact List.mem_cons_self
    · rw [State.set_other _ equal] at at_
      exact List.mem_cons_of_mem _ (accounts.known other probe at_)
  case distinct => exact List.nodup_cons.2 ⟨fresh, accounts.distinct⟩
  case maximum => exact accounts.maximum
  case bounded => exact accounts.bounded
  case inside =>
    intro other probe count at_ exchanging
    rcases State.set_cases at_ with ⟨rfl, rfl⟩ | ⟨_, before⟩
    · cases exchanging
    · exact accounts.inside other probe count before exchanging
  case conserved =>
    rw [same, same]
    exact accounts.conserved

/-! ### One change for each call -/

/-- The changes a call has made by then. -/
def Call.Once (call : Call) : Prop :=
  match call.position with
  | .loading | .waiting | .failed => call.changes = 0
  | .exchanging _ => call.changes ≤ 1
  | .notifying | .succeeded => call.changes = 1

structure Exact (maxCount initialCount : UInt32) (state : State) : Prop where
  accounts : Accounts maxCount initialCount state
  once : ∀ id call, state.calls id = some call → call.Once

theorem State.once_set {state : State} (once : ∀ id call, state.calls id = some call → call.Once)
    (id : Nat) {moved : Call} (exact_ : moved.Once) :
    ∀ other call, (state.set id moved).calls other = some call → call.Once := by
  intro other call at_
  by_cases same : other = id
  · subst same
    rw [set_same] at at_
    cases at_
    exact exact_
  · rw [state.set_other same] at at_
    exact once other call at_

theorem State.once_round {state : State} (once : ∀ id call, state.calls id = some call → call.Once)
    (id : Nat) {call : Call} (unchanged : call.changes = 0) (count : UInt32) :
    ∀ other probe, (state.round id call count).calls other = some probe → probe.Once := by
  unfold round
  by_cases blocked : count = call.direction.limit state.semaphore
  · rw [if_pos blocked]
    exact once_set once id unchanged
  · rw [if_neg blocked]
    exact once_set once id (unchanged.trans_le (Nat.zero_le 1))

/-! ### Steps -/

theorem Position.exchanging_of_isSome {position : Position} (some_ : position.count?.isSome) :
    ∃ count, position = .exchanging count := by
  cases position with
  | exchanging count => exact ⟨count, rfl⟩
  | loading | waiting | notifying | succeeded | failed => cases some_

theorem Accounts.step {state : State} {action : Action}
    (accounts : Accounts maxCount initialCount state) (enabled : Enabled state action) :
    Accounts maxCount initialCount (next state action) := by
  cases action with
  | call id direction => exact accounts.enter enabled direction
  | load id =>
      rcases enabled with ⟨call, found, ready⟩
      change state.calls id = some call at found
      simp only [next, found, Option.elim_some]
      exact accounts.round found _
  | exchange id spurious =>
      rcases enabled with ⟨call, found, ready⟩
      change state.calls id = some call at found
      rcases Position.exchanging_of_isSome ready with ⟨count, position⟩
      simp only [next, found, Option.elim_some, position, Position.count?]
      exact accounts.exchange found position spurious
  | compare id | cancel id => exact accounts.setWait id _
  | resume id =>
      rcases enabled with ⟨call, found, ready⟩
      change state.calls id = some call at found
      simp only [next, found, Option.elim_some]
      unfold State.resume
      have leaves : ∀ position, (∀ count, position ≠ .exchanging count) →
          Accounts maxCount initialCount
            ((state.set id { call with position := position }).setWait id .idle) := by
        intro position elsewhere
        apply Accounts.setWait
        apply accounts.goTo found
        intro count exchanging
        exact absurd exchanging (elsewhere count)
      split
      · exact leaves .loading (by simp)
      · exact leaves .loading (by simp)
      · exact leaves .failed (by simp)
      · exact leaves .failed (by simp)
      · exact accounts
  | notify id woken =>
      rcases enabled with ⟨call, found, ready⟩
      change state.calls id = some call at found
      simp only [next, found, Option.elim_some]
      have woke : Accounts maxCount initialCount
          { state with waits := Futex.wakeEach state.waits woken } :=
        { accounts with }
      apply woke.goTo found
      intro count exchanging
      cases exchanging

theorem Exact.exchange {state : State} (exact_ : Exact maxCount initialCount state) {id : Nat}
    {call : Call} (found : state.calls id = some call) {count : UInt32}
    (position : call.position = .exchanging count) {spurious : Bool}
    (right : RightOutcome state call spurious) :
    ∀ other probe, (state.exchange id call count spurious).calls other = some probe →
      probe.Once := by
  have inside := exact_.accounts.inside id call count found position
  have most : call.changes ≤ 1 := by
    have once := exact_.once id call found
    unfold Call.Once at once
    rw [position] at once
    exact once
  have equal : call.position.count? = some state.semaphore.mCounter ↔
      state.semaphore.mCounter = count := by
    rw [position]
    exact ⟨fun same => (Option.some.inj same).symm, fun same => congrArg some same.symm⟩
  unfold RightOutcome at right
  rw [ne_eq, equal] at right
  rcases state.exchange_cases id inside spurious with ⟨steady, same, success⟩ | ⟨fails, failure⟩
  · have first : call.changes = 0 := by
      by_contra second
      rw [if_neg second] at right
      rcases right with spuriously | changed
      · rw [steady] at spuriously
        cases spuriously
      · exact changed same
    rw [success]
    exact State.once_set exact_.once id (Nat.succ_le_succ first.le)
  · have second : call.changes = 1 := by
      by_contra different
      have first : call.changes = 0 := by omega
      rw [if_pos first] at right
      rcases fails with spuriously | changed
      · rw [right.1] at spuriously
        cases spuriously
      · exact changed right.2
    rw [failure]
    exact State.once_set exact_.once id second

theorem Exact.step {state : State} {action : Action} (exact_ : Exact maxCount initialCount state)
    (enabled : Enabled state action) (one : OneChange state action) :
    Exact maxCount initialCount (next state action) := by
  refine ⟨exact_.accounts.step enabled, ?_⟩
  have changes : ∀ id call position, state.calls id = some call → call.position = position →
      Call.Once { call with position := position } := by
    rintro id call _ found rfl
    exact exact_.once id call found
  cases action with
  | call id direction => exact State.once_set exact_.once id rfl
  | load id =>
      rcases enabled with ⟨call, found, ready⟩
      change state.calls id = some call at found
      simp only [next, found, Option.elim_some]
      exact State.once_round exact_.once id (changes id call .loading found ready) _
  | exchange id spurious =>
      rcases enabled with ⟨call, found, ready⟩
      change state.calls id = some call at found
      rcases Position.exchanging_of_isSome ready with ⟨count, position⟩
      have right := one call found
      simp only [next, found, Option.elim_some, position, Position.count?]
      exact exact_.exchange found position right
  | compare id | cancel id => exact exact_.once
  | resume id =>
      rcases enabled with ⟨call, found, ready⟩
      change state.calls id = some call at found
      have unchanged : call.changes = 0 := changes id call .waiting found ready.1
      simp only [next, found, Option.elim_some]
      unfold State.resume
      split
      · exact State.once_set exact_.once id unchanged
      · exact State.once_set exact_.once id unchanged
      · exact State.once_set exact_.once id unchanged
      · exact State.once_set exact_.once id unchanged
      · exact exact_.once
  | notify id woken =>
      rcases enabled with ⟨call, found, ready⟩
      change state.calls id = some call at found
      have changed : call.changes = 1 := changes id call .notifying found ready.1
      simp only [next, found, Option.elim_some]
      exact State.once_set exact_.once id changed

/-! ### Runs -/

def State.Settled (state : State) : Prop :=
  ∀ id call, state.calls id = some call → call.position = .succeeded ∨ call.position = .failed

structure Permits (initialCount : UInt32) (state : State) : Prop where
  one_change : ∀ id call, state.calls id = some call → call.position = .succeeded →
    call.changes = 1
  balance : state.Settled →
    state.semaphore.mCounter.toNat + state.succeeded .acquire =
      initialCount.toNat + state.succeeded .release

theorem Exact.permits {state : State} (exact_ : Exact maxCount initialCount state) :
    Permits initialCount state := by
  have one_change : ∀ id call, state.calls id = some call → call.position = .succeeded →
      call.changes = 1 := by
    intro id call found succeeded
    have once := exact_.once id call found
    unfold Call.Once at once
    rw [succeeded] at once
    exact once
  constructor
  case one_change => exact one_change
  case balance =>
    intro settled
    have same : ∀ direction, state.succeeded direction = state.changed direction := by
      intro direction
      unfold State.succeeded State.changed Population.total
      apply congrArg List.sum
      apply List.map_congr_left
      intro id member
      cases found : state.calls id with
      | none => rfl
      | some call =>
          change (if call.direction = direction ∧ call.position = .succeeded then 1 else 0) =
            if call.direction = direction then call.changes else 0
          by_cases own : call.direction = direction
          · rcases settled id call found with succeeded | failed
            · rw [if_pos ⟨own, succeeded⟩, if_pos own]
              exact (one_change id call found succeeded).symm
            · have once := exact_.once id call found
              unfold Call.Once at once
              rw [failed] at once
              rw [if_neg (by rw [failed]; simp), if_pos own]
              exact once.symm
          · rw [if_neg (fun both => own both.1), if_neg own]
    rw [same, same]
    exact exact_.accounts.conserved

/-- Any number of calls, any order of their steps, any spurious failures: the counter stays
within its bounds, and as long as the first exchange of every call succeeds and the next
one fails, the calls that return success have changed it once each. -/
theorem permits_balance (maxCount initialCount : UInt32) (within : initialCount ≤ maxCount)
    (actions : List Action)
    (runs : (machine maxCount initialCount).Runs (.initial maxCount initialCount) actions) :
    let state := (machine maxCount initialCount).after (.initial maxCount initialCount) actions
    state.semaphore.mMaxCount = maxCount ∧ state.semaphore.mCounter ≤ maxCount ∧
      ((machine maxCount initialCount).Along OneChange (.initial maxCount initialCount) actions →
        Permits initialCount state) := by
  have keeps : ∀ state action, Accounts maxCount initialCount state → Enabled state action →
      Accounts maxCount initialCount (next state action) := by
    intro state action accounts enabled
    exact accounts.step enabled
  have start := Accounts.initial within
  have accounts := Machine.invariant (Accounts maxCount initialCount) keeps start runs
  refine ⟨accounts.maximum, accounts.bounded, ?_⟩
  intro one
  have exactly : ∀ state action, Exact maxCount initialCount state → Enabled state action →
      OneChange state action → Exact maxCount initialCount (next state action) := by
    intro state action exact_ enabled one
    exact exact_.step enabled one
  have first : Exact maxCount initialCount (.initial maxCount initialCount) := by
    refine ⟨start, ?_⟩
    intro id call found
    cases found
  exact (Machine.invariant_along (Exact maxCount initialCount) exactly first runs one).permits

/-- An acquire and then a release, whose second exchange fails spuriously. -/
theorem permits_balance_two :
    Permits 1 ((machine 2 1).after (.initial 2 1)
      [.call 0 .acquire, .load 0, .exchange 0 false, .exchange 0 false, .notify 0 [],
        .call 1 .release, .load 1, .exchange 1 false, .exchange 1 true, .notify 1 []]) :=
  (permits_balance 2 1 (by decide) _ (by decide)).2.2 (by decide)

/-- Two acquires load the same count; the exchange of the second fails, and it returns
success with nothing taken. -/
theorem second_acquire_takes_nothing :
    ¬∀ (maxCount initialCount : UInt32), initialCount ≤ maxCount → ∀ actions,
      (machine maxCount initialCount).Runs (.initial maxCount initialCount) actions →
      Permits initialCount
        ((machine maxCount initialCount).after (.initial maxCount initialCount) actions) := by
  intro claimed
  have permits := claimed 2 2 (by decide)
    [.call 0 .acquire, .call 1 .acquire, .load 0, .load 1, .exchange 0 false, .exchange 1 false,
      .notify 1 []] (by decide)
  have changed := permits.one_change 1 _ rfl rfl
  exact absurd changed (by decide)

end MCoro.Semaphore
