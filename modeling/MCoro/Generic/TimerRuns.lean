/-
Runs of the timer queue in which timers are enqueued and fired.

An event is a timer going to sleep, from anywhere and also between two turns of
runDuration, or one turn of runDuration with a clock reading. The clock is
monotone and counts from its epoch. No timer is cancelled in these runs.
-/

import MCoro.Generic.GenericIO
import MCoro.Library.Faults

namespace MCoro.TimerRuns

open LinkedTree
open StableOrder (Precedes)
open GenericIOContext

inductive Event (Ptr : Type) where
  | enqueue (promise : Ptr) (expires : TimePoint)
  | turn (now : TimePoint)

/-- The context, the last clock reading, and the history of the run. -/
structure State (Ptr : Type) where
  context : GenericIOContext Ptr
  clock : TimePoint
  /-- The timers in mTimers, in the order in which they were enqueued. -/
  waiting : List Ptr
  enqueued : List Ptr
  resumed : List Ptr

variable {Ptr : Type}

def State.initial : State Ptr :=
  { context := .initial
    clock := 0
    waiting := []
    enqueued := []
    resumed := [] }

variable [DecidableEq Ptr]

def step (fuel : Nat) (state : State Ptr) :
    Event Ptr → Except Fault (State Ptr × Option (Turn Ptr))
  | .enqueue promise expires => do
      let context ← state.context.awaitSuspend fuel promise expires
      return ({ state with
        context := context
        waiting := state.waiting ++ [promise]
        enqueued := state.enqueued ++ [promise] }, none)
  | .turn now => do
      let (context, turn) ← state.context.runDurationTurn fuel now
      match turn with
      | .resumed promise =>
          return ({ state with
            context := context
            clock := now
            waiting := state.waiting.erase promise
            resumed := state.resumed ++ [promise] }, some turn)
      | .returned _ => return ({ state with context := context, clock := now }, some turn)

def run (fuel : Nat) (state : State Ptr) : List (Event Ptr) → Except Fault (State Ptr)
  | [] => .ok state
  | event :: rest => (step fuel state event).bind fun result => run fuel result.1 rest

/-- A timer that goes to sleep is not asleep already; the clock never goes back. -/
def Permitted (state : State Ptr) : Event Ptr → Prop
  | .enqueue promise _ => promise ∉ state.waiting
  | .turn now => state.clock ≤ now

def PermittedRun (fuel : Nat) (state : State Ptr) : List (Event Ptr) → Prop
  | [] => True
  | event :: rest =>
      Permitted state event ∧
        match step fuel state event with
        | .ok (next, _) => PermittedRun fuel next rest
        | .error _ => True

instance decidablePermitted (state : State Ptr) (event : Event Ptr) :
    Decidable (Permitted state event) := by
  cases event <;> unfold Permitted <;> infer_instance

instance decidablePermittedRun (fuel : Nat) : (state : State Ptr) → (events : List (Event Ptr)) →
    Decidable (PermittedRun fuel state events)
  | _, [] => isTrue trivial
  | state, event :: rest =>
      have : Decidable (match step fuel state event with
          | .ok (next, _) => PermittedRun fuel next rest
          | .error _ => True) :=
        match step fuel state event with
        | .ok (next, _) => decidablePermittedRun fuel next rest
        | .error _ => isTrue trivial
      inferInstanceAs (Decidable (_ ∧ _))

/-- What mTimers lists when it is walked: the waiting timers, each once. -/
def Lists (fuel : Nat) (state : State Ptr) : Prop :=
  ∃ sequence, state.context.mTimers.traverseInorder fuel = .ok sequence ∧ sequence.Nodup ∧
    sequence.Perm state.waiting

/-- What one turn with the clock reading `now` promises. -/
inductive TurnContract (state next : State Ptr) (now : TimePoint) : Turn Ptr → Prop where
  | resumed (promise : Ptr) (present : promise ∈ state.waiting)
      (least : ∀ other ∈ state.waiting, other ≠ promise →
        Precedes state.context.less state.waiting promise other)
      (due : state.context.mExpires promise ≤ now)
      (notCancelled : next.context.mCancelled promise = false)
      (success : next.context.awaitResume promise = .success)
      (removed : (next.context.mTimers.node promise).rbTree = false)
      (waiting : next.waiting = state.waiting.erase promise)
      (resumed : next.resumed = state.resumed ++ [promise]) :
      TurnContract state next now (.resumed promise)
  | idle (noTimers : state.waiting = []) (unchanged : next.waiting = state.waiting)
      (resumed : next.resumed = state.resumed) :
      TurnContract state next now (.returned none)
  | sleeps (remaining : Duration) (earliest : Ptr) (present : earliest ∈ state.waiting)
      (least : ∀ other ∈ state.waiting,
        state.context.mExpires earliest ≤ state.context.mExpires other)
      (positive : 0 < remaining)
      (exact : remaining.toInt = (state.context.mExpires earliest).toInt - now.toInt)
      (unchanged : next.waiting = state.waiting) (resumed : next.resumed = state.resumed) :
      TurnContract state next now (.returned (some remaining))

def EventContract (state next : State Ptr) : Event Ptr → Option (Turn Ptr) → Prop
  | .enqueue promise expires, report =>
      report = none ∧ next.waiting = state.waiting ++ [promise] ∧
        next.enqueued = state.enqueued ++ [promise] ∧ next.resumed = state.resumed ∧
        next.context.mExpires promise = expires
  | .turn now, report =>
      next.enqueued = state.enqueued ∧
        ∃ turn, report = some turn ∧ TurnContract state next now turn

/-! ### The invariant -/

/-- The tree holds the waiting timers by expiry, and every timer ever enqueued
has either been resumed or is still waiting. -/
structure Consistent (state : State Ptr) (shape : BinaryTree Ptr) : Prop where
  timers : RbTree.Keeps state.context.less state.waiting state.context.mTimers shape
  clock : 0 ≤ state.clock
  accounted : state.enqueued.Perm (state.resumed ++ state.waiting)

omit [DecidableEq Ptr] in
theorem Consistent.initial : Consistent (State.initial : State Ptr) .nil where
  timers := RbTree.Keeps.initial _
  clock := Int64.le_refl 0
  accounted := List.Perm.nil

instance lessStrictWeakOrder (context : GenericIOContext Ptr) :
    IsStrictWeakOrder Ptr context.less where
  irrefl promise := Int64.lt_irrefl
  trans left middle right := Int64.lt_trans
  incomp_trans left middle right := by
    intro first second
    simp only [less, Int64.not_lt] at first second ⊢
    exact ⟨Int64.le_trans second.1 first.1, Int64.le_trans first.2 second.2⟩

/-! ### One event -/

section Steps

variable {state : State Ptr} {shape : BinaryTree Ptr} {fuel : Nat}

private theorem setExpires_keeps (consistent : Consistent state shape) {promise : Ptr}
    (fresh : promise ∉ state.waiting) (expires : TimePoint) :
    RbTree.Keeps (state.context.setExpires promise expires).less state.waiting
      state.context.mTimers shape where
  linked := consistent.timers.linked
  sorted := by
    apply consistent.timers.sorted.congr
    intro left leftMember right rightMember
    have leftOther : left ≠ promise := fun same => fresh (same ▸ leftMember)
    have rightOther : right ≠ promise := fun same => fresh (same ▸ rightMember)
    simp [less, setExpires, leftOther, rightOther]
  blackTop := consistent.timers.blackTop
  marked := consistent.timers.marked

theorem Consistent.enqueue (consistent : Consistent state shape) {promise : Ptr}
    (expires : TimePoint) (fresh : promise ∉ state.waiting) (enough : state.waiting.length < fuel) :
    ∃ next report shape', step fuel state (.enqueue promise expires) = .ok (next, report) ∧
      Consistent next shape' ∧ EventContract state next (.enqueue promise expires) report := by
  obtain ⟨timers, shape', done, keeps⟩ :=
    (setExpires_keeps consistent fresh expires).insert fresh enough
  let context := { state.context.setExpires promise expires with mTimers := timers }
  let next : State Ptr :=
    { state with
      context := context
      waiting := state.waiting ++ [promise]
      enqueued := state.enqueued ++ [promise] }
  have suspended : state.context.awaitSuspend fuel promise expires = .ok context := by
    unfold awaitSuspend enqueueTimerNode
    change (state.context.mTimers.doInsert
      (state.context.setExpires promise expires).less fuel promise).bind _ = _
    rw [done]
    rfl
  refine ⟨next, none, shape', ?_, ⟨keeps, consistent.clock, ?_⟩, rfl, rfl, rfl, rfl, ?_⟩
  · change (state.context.awaitSuspend fuel promise expires).bind _ = _
    rw [suspended]
    rfl
  · rw [← List.append_assoc]
    exact consistent.accounted.append_right [promise]
  · simp [next, context, setExpires]

omit [DecidableEq Ptr] in
private theorem isEmpty_iff (consistent : Consistent state shape) :
    state.context.mTimers.isEmpty = true ↔ state.waiting = [] := by
  have rootEq : state.context.mTimers.root = top shape := consistent.timers.linked.hangs
  have sizes := consistent.timers.numNodes
  rw [RbTree.isEmpty, Option.isNone_iff_eq_none, rootEq, top_eq_none, ← List.length_eq_zero_iff,
    ← sizes]
  cases shape <;> simp [BinaryTree.numNodes]

omit [DecidableEq Ptr] in
/-- The front of a nonempty queue: the least waiting timer, with at most one child. -/
private theorem front_least (consistent : Consistent state shape) (nonempty : state.waiting ≠ [])
    (enough : state.waiting.length < fuel) :
    ∃ front, state.context.mTimers.getFront fuel = .ok front ∧ front ∈ state.waiting ∧
      state.context.mTimers.AtMostOneChild front ∧
      ∀ other ∈ state.waiting, other ≠ front →
        Precedes state.context.less state.waiting front other := by
  have timers := consistent.timers
  have sizes := timers.numNodes
  have notNil : shape ≠ .nil := by
    intro nil
    rw [nil] at sizes
    exact nonempty (List.length_eq_zero_iff.1 sizes.symm)
  obtain ⟨front, path, right, found, shapeEq, noneBefore⟩ :=
    RbTree.getFront_eq timers.linked notNil (by rw [sizes]; exact enough)
  have order : inorder shape = front :: (inorder right ++ keysAfter path) := by
    rw [shapeEq, inorder_plug, noneBefore]
    simp
  have member : front ∈ state.waiting := by
    rw [← timers.mem_iff, order]
    exact List.mem_cons_self
  have focus : RbTree.Focus state.context.mTimers path (.node front .nil right) := by
    rw [RbTree.focus_iff_shape, ← shapeEq]
    exact timers.linked
  refine ⟨front, found, member, .inl focus.linked.2.1, ?_⟩
  intro other otherMember different
  have ordered := timers.sorted.ordered
  rw [order, List.pairwise_cons] at ordered
  apply ordered.1
  rw [← timers.mem_iff, order] at otherMember
  exact (List.mem_cons.1 otherMember).resolve_left different

/-- With a clock at or after the epoch the waiting time cannot overflow. -/
private theorem remaining_exact {expires now : TimePoint} (notNegative : 0 ≤ now)
    (later : now < expires) :
    (expires - now).toInt = expires.toInt - now.toInt ∧ 0 < expires - now := by
  have low : (0 : Int) ≤ now.toInt := by
    have bound := Int64.le_iff_toInt_le.1 notNegative
    simpa using bound
  have order := Int64.lt_iff_toInt_lt.1 later
  have high := expires.toInt_lt
  have difference : (expires - now).toInt = expires.toInt - now.toInt := by
    rw [Int64.toInt_sub]
    apply Int.bmod_eq_of_le <;> omega
  refine ⟨difference, ?_⟩
  rw [Int64.lt_iff_toInt_lt, difference]
  have zero : (0 : Int64).toInt = 0 := rfl
  omega

theorem Consistent.turn (consistent : Consistent state shape) (now : TimePoint)
    (monotone : state.clock ≤ now) (enough : state.waiting.length < fuel) :
    ∃ next report shape', step fuel state (.turn now) = .ok (next, report) ∧
      Consistent next shape' ∧ EventContract state next (.turn now) report := by
  have notNegative : 0 ≤ now := Int64.le_trans consistent.clock monotone
  by_cases empty : state.waiting = []
  · have isEmpty := (isEmpty_iff consistent).2 empty
    refine ⟨{ state with clock := now }, some (.returned none), shape, ?_,
      ⟨consistent.timers, notNegative, consistent.accounted⟩, rfl, _, rfl,
      .idle empty rfl rfl⟩
    change (state.context.runDurationTurn fuel now).bind _ = _
    rw [runDurationTurn_idle isEmpty]
    rfl
  · have notEmpty : ¬state.context.mTimers.isEmpty = true := fun isEmpty =>
      empty ((isEmpty_iff consistent).1 isEmpty)
    obtain ⟨front, found, present, oneChild, least⟩ := front_least consistent empty enough
    by_cases due : state.context.mExpires front ≤ now
    · obtain ⟨timers, shape', erased, keeps⟩ :=
        consistent.timers.eraseFromParent (fun _ => oneChild) enough
      let context : GenericIOContext Ptr :=
        { state.context.setCancelled front false with mTimers := timers }
      let next : State Ptr :=
        { state with
          context := context
          clock := now
          waiting := state.waiting.erase front
          resumed := state.resumed ++ [front] }
      have turned : state.context.runDurationTurn fuel now = .ok (context, .resumed front) :=
        runDurationTurn_fires notEmpty found due erased
      have notCancelled : context.mCancelled front = false := by
        simp [context, setCancelled]
      have unmarked : timers.marks front = false := by
        have gone : ¬timers.marks front = true := by
          rw [keeps.marked, consistent.timers.nodup.mem_erase_iff]
          simp
        simpa using gone
      refine ⟨next, some (.resumed front), shape', ?_, ⟨keeps, notNegative, ?_⟩, rfl, _, rfl,
        .resumed front present least due notCancelled ?_ unmarked rfl rfl⟩
      · change (state.context.runDurationTurn fuel now).bind _ = _
        rw [turned]
        rfl
      · have split := consistent.accounted.trans
          ((List.perm_cons_erase present).append_left state.resumed)
        simpa [next] using split
      · simp [awaitResume, next, notCancelled]
    · have later : now < state.context.mExpires front := Int64.not_le.1 due
      obtain ⟨exactly, positive⟩ := remaining_exact notNegative later
      have turned := runDurationTurn_sleeps notEmpty found due
      refine ⟨{ state with clock := now }, _, shape, ?_,
        ⟨consistent.timers, notNegative, consistent.accounted⟩, rfl, _, rfl,
        .sleeps _ front present ?_ positive exactly rfl rfl⟩
      · change (state.context.runDurationTurn fuel now).bind _ = _
        rw [turned]
        rfl
      · intro other member
        by_cases same : other = front
        · rw [same]
          exact Int64.le_refl _
        · exact Int64.not_lt.1 (least other member same).not_compare

theorem Consistent.step (consistent : Consistent state shape) (event : Event Ptr)
    (permitted : Permitted state event) (enough : state.waiting.length < fuel) :
    ∃ next report shape', TimerRuns.step fuel state event = .ok (next, report) ∧
      Consistent next shape' ∧ EventContract state next event report := by
  cases event with
  | enqueue promise expires => exact consistent.enqueue expires permitted enough
  | turn now => exact consistent.turn now permitted enough

theorem EventContract.waiting_length {next : State Ptr} {event : Event Ptr}
    {report : Option (Turn Ptr)} (contract : EventContract state next event report) :
    next.waiting.length ≤ state.waiting.length + 1 := by
  cases event with
  | enqueue promise expires =>
      rw [contract.2.1]
      simp
  | turn now =>
      obtain ⟨_, turn, _, turned⟩ := contract
      cases turned with
      | resumed promise present least due notCancelled success removed waiting resumed =>
          rw [waiting]
          exact Nat.le_succ_of_le List.length_erase_le
      | idle noTimers unchanged resumed =>
          rw [unchanged]
          exact Nat.le_succ _
      | sleeps remaining earliest present least positive exact unchanged resumed =>
          rw [unchanged]
          exact Nat.le_succ _

theorem Consistent.run (consistent : Consistent state shape) (events : List (Event Ptr))
    (permitted : PermittedRun fuel state events)
    (enough : state.waiting.length + events.length < fuel) :
    ∃ next shape', TimerRuns.run fuel state events = .ok next ∧ Consistent next shape' ∧
      next.waiting.length ≤ state.waiting.length + events.length := by
  induction events generalizing state shape with
  | nil => exact ⟨state, shape, rfl, consistent, Nat.le_refl _⟩
  | cons event rest ih =>
      rw [List.length_cons] at enough ⊢
      obtain ⟨next, report, shape', done, kept, contract⟩ :=
        consistent.step event permitted.1 (by omega : state.waiting.length < fuel)
      have grown := contract.waiting_length
      have permittedRest := permitted.2
      rw [done] at permittedRest
      obtain ⟨last, shapeLast, ran, keptLast, bounded⟩ := ih kept permittedRest (by omega)
      refine ⟨last, shapeLast, ?_, keptLast, by omega⟩
      rw [TimerRuns.run, done]
      exact ran

theorem PermittedRun.before {before after : List (Event Ptr)}
    (permitted : PermittedRun fuel state (before ++ after)) : PermittedRun fuel state before := by
  induction before generalizing state with
  | nil => trivial
  | cons first rest ih =>
      have later := permitted.2
      refine ⟨permitted.1, ?_⟩
      cases done : TimerRuns.step fuel state first with
      | error fault => trivial
      | ok result =>
          rw [done] at later
          exact ih later

theorem PermittedRun.event {before after : List (Event Ptr)} {event : Event Ptr}
    {next : State Ptr} (permitted : PermittedRun fuel state (before ++ event :: after))
    (ran : TimerRuns.run fuel state before = .ok next) : Permitted next event := by
  induction before generalizing state with
  | nil =>
      cases ran
      exact permitted.1
  | cons first rest ih =>
      rw [TimerRuns.run] at ran
      obtain ⟨result, done, rest⟩ := Faults.exists_of_bind ran
      have later := permitted.2
      rw [done] at later
      exact ih later rest

omit [DecidableEq Ptr] in
theorem Consistent.lists (consistent : Consistent state shape)
    (enough : state.waiting.length < fuel) : Lists fuel state := by
  have timers := consistent.timers
  rw [← timers.numNodes] at enough
  exact ⟨inorder shape, RbTree.traverseInorder_eq timers.linked enough, timers.linked.distinct,
    timers.sorted.perm⟩

end Steps

/-! ### What a run promises -/

/-- Every event of a permitted run goes through without a fault and meets its
contract, and so far every enqueued timer was resumed once or still waits. -/
theorem timers_fire_in_order (events : List (Event Ptr)) (fuel : Nat)
    (enough : events.length < fuel) (permitted : PermittedRun fuel .initial events)
    (before after : List (Event Ptr)) (event : Event Ptr)
    (split : events = before ++ event :: after) :
    ∃ state next report,
      run fuel .initial before = .ok state ∧ step fuel state event = .ok (next, report) ∧
        Lists fuel state ∧ Lists fuel next ∧ EventContract state next event report ∧
        next.enqueued.Perm (next.resumed ++ next.waiting) := by
  rw [split] at permitted enough
  rw [List.length_append, List.length_cons] at enough
  obtain ⟨state, shape, ran, consistent, bounded⟩ :=
    Consistent.initial.run before permitted.before (by
      change 0 + before.length < fuel
      omega)
  change state.waiting.length ≤ 0 + before.length at bounded
  obtain ⟨next, report, shape', done, kept, contract⟩ :=
    consistent.step event (permitted.event ran) (by omega : state.waiting.length < fuel)
  have grown := contract.waiting_length
  exact ⟨state, next, report, ran, done, consistent.lists (by omega), kept.lists (by omega),
    contract, kept.accounted⟩

/-- Three timers; the third goes to sleep between two turns. -/
theorem timers_fire_in_order_three :
    ∃ state next report,
      run 9 .initial [Event.enqueue 1 5, .enqueue 2 3, .turn 4, .enqueue 3 4, .turn 4] =
          .ok state ∧
        step 9 state (.turn 4) = .ok (next, report) ∧ Lists 9 state ∧ Lists 9 next ∧
        EventContract state next (.turn 4) report ∧
        next.enqueued.Perm (next.resumed ++ next.waiting) :=
  timers_fire_in_order
    [.enqueue 1 5, .enqueue 2 3, .turn 4, .enqueue 3 4, .turn 4, .turn 4, .turn 6] 9
    (by decide) (by decide) [.enqueue 1 5, .enqueue 2 3, .turn 4, .enqueue 3 4, .turn 4]
    [.turn 6] (.turn 4) rfl

end MCoro.TimerRuns
