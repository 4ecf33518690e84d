/-
co_sleep of co_async/generic/timeout.hpp, and the clock reading at which it ends.

co_sleep of a duration is co_sleep of the sum of the clock and the duration. The sum has
64 bits like its parts. Between the sleep and the turn of runDuration that resumes it
other timers may be enqueued, cancelled and resumed. Where the sum is too large for a
time point it is taken to wrap, as the addition of the machine does.
-/

import MCoro.Generic.TimerRuns
import MCoro.Library.Faults

namespace MCoro

namespace Sleep

open GenericIOContext

variable {Ptr : Type} [DecidableEq Ptr]

/-- What coSleep and co_sleep pass on. -/
def expires (now : TimePoint) (timeout : Duration) : TimePoint :=
  now + timeout

/-- co_sleep up to its suspension; `now` is its reading of the clock. -/
def coSleep (fuel : Nat) (context : GenericIOContext Ptr) (promise : Ptr) (now : TimePoint)
    (timeout : Duration) : Except Fault (GenericIOContext Ptr) :=
  context.awaitSuspend fuel promise (expires now timeout)

inductive Step (Ptr : Type) where
  | suspend (promise : Ptr) (expires : TimePoint)
  | cancel (promise : Ptr)
  | turn (now : TimePoint)

def perform (fuel : Nat) (context : GenericIOContext Ptr) :
    Step Ptr → Except Fault (GenericIOContext Ptr)
  | .suspend promise expires => context.awaitSuspend fuel promise expires
  | .cancel promise => context.doCancel fuel promise
  | .turn now => do
      let (context, _) ← context.runDurationTurn fuel now
      return context

def performAll (fuel : Nat) (context : GenericIOContext Ptr) :
    List (Step Ptr) → Except Fault (GenericIOContext Ptr)
  | [] => .ok context
  | step :: rest => (perform fuel context step).bind fun context => performAll fuel context rest

def Step.Spares (promise : Ptr) : Step Ptr → Prop
  | .suspend other _ => other ≠ promise
  | .cancel _ => True
  | .turn _ => True

/-- Whatever happens to the timers in between, the turn that resumes the sleep reads a clock
that has advanced by the timeout. -/
def NeverEarly (now : TimePoint) (timeout : Duration) : Prop :=
  ∀ (Ptr : Type) [DecidableEq Ptr] (fuel : Nat) (context asleep awake after : GenericIOContext Ptr)
    (promise : Ptr) (steps : List (Step Ptr)) (later : TimePoint),
    coSleep fuel context promise now timeout = .ok asleep →
    (∀ step ∈ steps, step.Spares promise) → performAll fuel asleep steps = .ok awake →
    awake.runDurationTurn fuel later = .ok (after, .resumed promise) →
      now.toInt + timeout.toInt ≤ later.toInt

def Fits (now : TimePoint) (timeout : Duration) : Prop :=
  now.toInt + timeout.toInt ≤ Int64.maxValue.toInt

instance (now : TimePoint) (timeout : Duration) : Decidable (Fits now timeout) :=
  inferInstanceAs (Decidable (_ ≤ _))

/-! ### The sum -/

theorem expires_of_fits {now : TimePoint} {timeout : Duration} (notNegative : 0 ≤ timeout)
    (fits : Fits now timeout) : (expires now timeout).toInt = now.toInt + timeout.toInt := by
  have lower := now.le_toInt
  have positive : (0 : Int) ≤ timeout.toInt := Int64.le_iff_toInt_le.1 notNegative
  unfold Fits at fits
  rw [Int64.toInt_maxValue] at fits
  unfold expires
  rw [Int64.toInt_add]
  apply Int.bmod_eq_of_le <;> omega

theorem le_expires_iff {now : TimePoint} {timeout : Duration} (notNegative : 0 ≤ timeout) :
    now ≤ expires now timeout ↔ Fits now timeout := by
  have positive : (0 : Int) ≤ timeout.toInt := Int64.le_iff_toInt_le.1 notNegative
  constructor
  · intro later
    have order := Int64.le_iff_toInt_le.1 later
    by_contra large
    unfold Fits at large
    rw [Int64.toInt_maxValue] at large
    have highNow := now.toInt_lt
    have highTimeout := timeout.toInt_lt
    have wrapped : (expires now timeout).toInt = now.toInt + timeout.toInt - 2 ^ 64 := by
      unfold expires
      rw [Int64.toInt_add, ← Int.sub_bmod_right]
      apply Int.bmod_eq_of_le <;> omega
    omega
  · intro fits
    rw [Int64.le_iff_toInt_le, expires_of_fits notNegative fits]
    omega

/-! ### The expiry on the way -/

variable {fuel : Nat} {context next : GenericIOContext Ptr} {promise : Ptr}

theorem awaitSuspend_expires {other : Ptr} {point : TimePoint}
    (suspended : context.awaitSuspend fuel other point = .ok next) :
    next.mExpires = (context.setExpires other point).mExpires := by
  obtain ⟨timers, _, made⟩ := Faults.exists_of_bind suspended
  rw [← Except.ok.inj made]

theorem doCancel_expires {other : Ptr} (cancelled : context.doCancel fuel other = .ok next) :
    next.mExpires = context.mExpires := by
  obtain ⟨timers, _, made⟩ := Faults.exists_of_bind cancelled
  rw [← Except.ok.inj made]
  rfl

theorem runDurationTurn_expires {now : TimePoint} {turn : Turn Ptr}
    (turned : context.runDurationTurn fuel now = .ok (next, turn)) :
    next.mExpires = context.mExpires ∧
      ∀ resumed, turn = .resumed resumed → context.mExpires resumed ≤ now := by
  unfold runDurationTurn at turned
  by_cases empty : context.mTimers.isEmpty = true
  · rw [if_pos empty] at turned
    have made := Except.ok.inj turned
    rw [Prod.mk.injEq] at made
    rw [← made.1, ← made.2]
    exact ⟨rfl, fun resumed same => by cases same⟩
  · rw [if_neg empty] at turned
    obtain ⟨front, _, rest⟩ := Faults.exists_of_bind turned
    by_cases due : context.mExpires front ≤ now
    · rw [if_pos due] at rest
      obtain ⟨left, erased, made⟩ := Faults.exists_of_bind rest
      obtain ⟨timers, _, kept⟩ := Faults.exists_of_bind erased
      have both := Except.ok.inj made
      rw [Prod.mk.injEq] at both
      rw [← both.1, ← both.2, ← Except.ok.inj kept]
      refine ⟨rfl, ?_⟩
      intro resumed same
      cases same
      exact due
    · rw [if_neg due] at rest
      have made := Except.ok.inj rest
      rw [Prod.mk.injEq] at made
      rw [← made.1, ← made.2]
      exact ⟨rfl, fun resumed same => by cases same⟩

theorem perform_expires {step : Step Ptr} (performed : perform fuel context step = .ok next)
    (spares : step.Spares promise) : next.mExpires promise = context.mExpires promise := by
  cases step with
  | suspend other point =>
      rw [awaitSuspend_expires performed]
      exact if_neg (Ne.symm spares)
  | cancel other => rw [doCancel_expires performed]
  | turn now =>
      obtain ⟨⟨left, turn⟩, turned, made⟩ := Faults.exists_of_bind performed
      rw [← Except.ok.inj made, (runDurationTurn_expires turned).1]

theorem performAll_expires {steps : List (Step Ptr)}
    (performed : performAll fuel context steps = .ok next)
    (spares : ∀ step ∈ steps, step.Spares promise) :
    next.mExpires promise = context.mExpires promise := by
  induction steps generalizing context with
  | nil => rw [Except.ok.inj performed]
  | cons step rest ih =>
      obtain ⟨middle, first, others⟩ := Faults.exists_of_bind performed
      rw [ih others fun later member => spares later (List.mem_cons_of_mem step member)]
      exact perform_expires first (spares step List.mem_cons_self)

/-! ### When a sleep is as long as asked for -/

/-- A timer alone in the tree is resumed by a turn that reads its expiry or a later point. -/
theorem exists_resumed {point now : TimePoint} (clock : 0 ≤ now) (due : point ≤ now) :
    ∃ asleep after : GenericIOContext Nat,
      (initial : GenericIOContext Nat).awaitSuspend 3 0 point = .ok asleep ∧
        asleep.runDurationTurn 3 now = .ok (after, .resumed 0) := by
  obtain ⟨state, report, shape, enqueued, consistent, _, waiting, _, _, expiry⟩ :=
    TimerRuns.Consistent.initial.enqueue point List.not_mem_nil
      (by decide : (TimerRuns.State.initial : TimerRuns.State Nat).waiting.length < 3)
  change state.waiting = [0] at waiting
  unfold TimerRuns.step at enqueued
  obtain ⟨asleep, suspended, made⟩ := Faults.exists_of_bind enqueued
  have same := congrArg Prod.fst (Except.ok.inj made)
  have context : asleep = state.context := congrArg TimerRuns.State.context same
  have start : (0 : TimePoint) = state.clock := congrArg TimerRuns.State.clock same
  have before : state.clock ≤ now := start ▸ clock
  obtain ⟨last, report', _, turned, _, _, turn, told, contract⟩ :=
    consistent.turn now before (by rw [waiting]; decide : state.waiting.length < 3)
  unfold TimerRuns.step at turned
  obtain ⟨⟨after, turn'⟩, ran, ended⟩ := Faults.exists_of_bind turned
  have reported : report' = some turn' := by
    cases turn' <;> exact (congrArg Prod.snd (Except.ok.inj ended)).symm
  have turns : turn' = turn := Option.some.inj (reported.symm.trans told)
  refine ⟨asleep, after, suspended, ?_⟩
  rw [context, ran, turns]
  cases contract with
  | resumed promise present =>
      rw [waiting, List.mem_singleton] at present
      rw [present]
  | idle noTimers =>
      rw [waiting] at noTimers
      cases noTimers
  | sleeps remaining earliest present least positive exactly =>
      rw [waiting, List.mem_singleton] at present
      rw [present, expiry] at exactly
      have order := Int64.le_iff_toInt_le.1 due
      have some_ := Int64.lt_iff_toInt_lt.1 positive
      rw [Int64.toInt_zero] at some_
      omega

theorem neverEarly_of_fits {now : TimePoint} {timeout : Duration} (notNegative : 0 ≤ timeout)
    (fits : Fits now timeout) : NeverEarly now timeout := by
  intro Ptr _ fuel context asleep awake after promise steps later slept spares performed turned
  have due := (runDurationTurn_expires turned).2 promise rfl
  rw [performAll_expires performed spares, awaitSuspend_expires slept] at due
  have stored : (context.setExpires promise (expires now timeout)).mExpires promise =
      expires now timeout := if_pos rfl
  rw [stored, Int64.le_iff_toInt_le, expires_of_fits notNegative fits] at due
  exact due

/-- The expiry is not before the clock, and the sleep not shorter than the timeout, just
where the sum of the two is a time point. -/
theorem neverEarly_iff (now : TimePoint) (timeout : Duration) (notNegative : 0 ≤ timeout) :
    (now ≤ expires now timeout ↔ Fits now timeout) ∧ (NeverEarly now timeout ↔ Fits now timeout) := by
  refine ⟨le_expires_iff notNegative, ?_, neverEarly_of_fits notNegative⟩
  intro never
  by_contra large
  have early : expires now timeout ≤ now :=
    Int64.le_of_lt (Int64.not_le.1 fun later => large ((le_expires_iff notNegative).1 later))
  have clock : 0 ≤ now := by
    have high := timeout.toInt_lt
    unfold Fits at large
    rw [Int64.toInt_maxValue] at large
    rw [Int64.le_iff_toInt_le, Int64.toInt_zero]
    omega
  obtain ⟨asleep, after, suspended, turned⟩ := exists_resumed clock early
  have waited := never Nat 3 initial asleep asleep after 0 [] now suspended
    (fun step member => absurd member List.not_mem_nil) rfl turned
  have highNow := now.toInt_lt
  unfold Fits at large
  rw [Int64.toInt_maxValue] at large
  omega

/-- Ten seconds, one second after the start of the clock. -/
theorem neverEarly_ten_seconds : NeverEarly 1000000000 10000000000 :=
  (neverEarly_iff 1000000000 10000000000 (by decide)).2.2 (by decide)

/-- duration::max(), one nanosecond after the start of the clock: the expiry is the smallest
time point, and a turn at the same reading ends the sleep. -/
theorem sleep_max_early :
    expires 1 Int64.maxValue = Int64.minValue ∧ ¬1 ≤ expires 1 Int64.maxValue ∧
      ∃ asleep after : GenericIOContext Nat,
        coSleep 3 initial 0 1 Int64.maxValue = .ok asleep ∧
          asleep.runDurationTurn 3 1 = .ok (after, .resumed 0) := by
  refine ⟨by decide, by decide, ?_⟩
  exact exists_resumed (by decide) (by decide)

end Sleep

end MCoro
