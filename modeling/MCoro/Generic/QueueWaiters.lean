/-
Who sleeps at a queue, and who is about to run.

A pop has room for as many calls as there are elements, a push for as many as there
are free slots. While a call sleeps, the waiting calls of its side whose results are
already there should make up for the room. A try_push or try_pop that makes room
without notifying can break this; `Covered` is what it needs not to.
-/

import MCoro.Generic.Queue
import MCoro.Library.Population
import MCoro.Library.Words
import MCoro.Utils.RingQueueRuns

namespace MCoro.Queue

variable {T : Type}

inductive Side where
  | pop
  | push
  deriving DecidableEq, Repr

namespace Side

def other : Side → Side
  | pop => push
  | push => pop

def waitMask : Side → UInt32
  | pop => kNonEmptyMask
  | push => kNonFullMask

/-- How many calls of the side could go through. -/
def room (mQueue : RingQueue T) : Side → Nat
  | pop => mQueue.stored
  | push => mQueue.maxSize - mQueue.stored

end Side

def Request.side : Request T → Side
  | pop => .pop
  | push _ => .push

/-- A waiting call whose result is there, and is no error. -/
def Side.pending (side : Side) : Option (Call T) → Nat
  | some call =>
      match call.position with
      | .waiting _ _ (.returned .woken) | .waiting _ _ (.returned .again) =>
          if call.request.side = side then 1 else 0
      | _ => 0
  | none => 0

def State.pending (state : State T) (side : Side) : Nat :=
  Population.total side.pending state.known state.calls

def Asleep (state : State T) (side : Side) (id : Nat) : Prop :=
  ∃ call ∈ state.calls id, call.request.side = side ∧ call.position.wait.IsAsleep

instance (state : State T) (side : Side) (id : Nat) : Decidable (Asleep state side id) :=
  inferInstanceAs (Decidable (∃ call ∈ state.calls id, _ ∧ _))

/-- There is room for one more call of the side without a notification: none sleeps, or
enough of them are about to run. -/
def Covered (state : State T) (side : Side) : Prop :=
  (∀ id ∈ state.known, ¬Asleep state side id) ∨
    side.room state.queue.mQueue + 1 ≤ state.pending side

instance (state : State T) (side : Side) : Decidable (Covered state side) :=
  inferInstanceAs (Decidable (_ ∨ _))

/-- No try_push or try_pop makes room that nobody is told of and nobody is about to use. -/
def Noticed (state : State T) : Action T → Prop
  | .tryPush _ _ =>
      state.queue.mQueue.empty = true ∨ state.queue.mQueue.full = true ∨ Covered state .pop
  | .tryPop _ =>
      state.queue.mQueue.full = true ∨ state.queue.mQueue.empty = true ∨ Covered state .push
  | _ => True

instance (state : State T) (action : Action T) : Decidable (Noticed state action) :=
  match action with
  | .tryPush _ _ => inferInstanceAs (Decidable (_ ∨ _ ∨ _))
  | .tryPop _ => inferInstanceAs (Decidable (_ ∨ _ ∨ _))
  | .start _ _ _ | .compare _ | .cancel _ | .resume _ _ => isTrue trivial

/-- The word that a waiting call has loaded, and the notifications at that time. -/
def Position.loaded? : Position T → Option (UInt32 × Nat)
  | .waiting old stamp _ => some (old, stamp)
  | .returned _ | .failed => none

/-- A call that finds the word it has loaded came to it before 2^32 notifications. -/
def State.Recent (state : State T) (id : Nat) : Prop :=
  ∀ call ∈ state.calls id, ∀ loaded ∈ call.position.loaded?,
    state.queue.mReady.mFutex = loaded.1 → state.notifications < loaded.2 + 2 ^ 32

instance (state : State T) (id : Nat) : Decidable (state.Recent id) :=
  inferInstanceAs (Decidable (∀ call ∈ state.calls id, ∀ loaded ∈ call.position.loaded?, _))

/-- No call goes to sleep, or back to sleep, 2^32 notifications after its load. -/
def NoWrap (state : State T) : Action T → Prop
  | .compare id | .resume id _ => state.Recent id
  | _ => True

instance (state : State T) (action : Action T) : Decidable (NoWrap state action) :=
  match action with
  | .compare id | .resume id _ => inferInstanceAs (Decidable (state.Recent id))
  | .tryPop _ | .tryPush _ _ | .start _ _ _ | .cancel _ => isTrue trivial

/-! ### What the operations do -/

/-- An operation of the side takes from its room and adds to that of the other. -/
structure Moves (side : Side) (before after : RingQueue T) : Prop where
  consistent : after.Consistent
  own : side.room after + 1 = side.room before
  opposite : side.other.room after = side.other.room before + 1

inductive Effect {Reply : Type} (side : Side) (queue : Queue T) (outcome : Outcome T Reply) :
    Prop where
  | nothing (same : outcome.queue = queue) (quiet : outcome.notified = none)
  | silent (moves : Moves side queue.mQueue outcome.queue.mQueue)
      (word : outcome.queue.mReady = queue.mReady) (quiet : outcome.notified = none)
      (some_ : side.other.room queue.mQueue ≠ 0)
  | loud (moves : Moves side queue.mQueue outcome.queue.mQueue)
      (word : outcome.queue.mReady = queue.mReady.fetchAdd)
      (notified : outcome.notified = some side.other.waitMask)

theorem Moves.pop {mQueue : RingQueue T} (consistent : mQueue.Consistent) (movedFrom : T → T)
    (some_ : (mQueue.pop movedFrom).2.isSome) : Moves .pop mQueue (mQueue.pop movedFrom).1 := by
  have bounded := consistent.stored_le
  rcases consistent.pop_cases movedFrom with ⟨_, nothing⟩ | ⟨_, after, less, size⟩
  · rw [nothing] at some_
    cases some_
  · constructor
    case consistent => exact after
    case own => exact less
    case opposite =>
      change RingQueue.maxSize _ - RingQueue.stored _ = _ - _ + 1
      rw [size]
      omega

theorem Moves.push {mQueue : RingQueue T} (consistent : mQueue.Consistent) (movedFrom : T → T)
    {value : T} (ok : (mQueue.push movedFrom value).2.1 = true) :
    Moves .push mQueue (mQueue.push movedFrom value).1 := by
  rcases consistent.push_cases movedFrom value with ⟨_, refused⟩ | ⟨room, _, after, more, size⟩
  · rw [refused] at ok
    cases ok
  · constructor
    case consistent => exact after
    case own =>
      change RingQueue.maxSize _ - RingQueue.stored _ + 1 = _ - _
      rw [size, more]
      omega
    case opposite => exact more

theorem tryPop_effect {queue : Queue T} (consistent : queue.mQueue.Consistent)
    (movedFrom : T → T) : Effect .pop queue (queue.tryPop movedFrom) := by
  have full := consistent.full_iff
  have bounded := consistent.stored_le
  unfold tryPop
  simp only
  by_cases some_ : (queue.mQueue.pop movedFrom).2.isSome
  · have moves := Moves.pop consistent movedFrom some_
    by_cases wasFull : queue.mQueue.full = true
    · rw [if_pos ⟨some_, wasFull⟩]
      exact .loud moves rfl rfl
    · rw [if_neg (fun both => wasFull both.2)]
      have free : queue.mQueue.maxSize - queue.mQueue.stored ≠ 0 := by
        rw [full] at wasFull
        omega
      exact .silent moves rfl rfl free
  · rcases consistent.pop_cases movedFrom with ⟨_, nothing⟩ | ⟨got, _⟩
    · rw [if_neg (fun both => some_ both.1), nothing]
      exact .nothing rfl rfl
    · exact absurd got some_

theorem tryPush_effect {queue : Queue T} (consistent : queue.mQueue.Consistent)
    (movedFrom : T → T) (value : T) : Effect .push queue (queue.tryPush movedFrom value) := by
  have empty := consistent.empty_iff
  unfold tryPush
  simp only
  by_cases ok : (queue.mQueue.push movedFrom value).2.1 = true
  · have moves := Moves.push consistent movedFrom ok
    by_cases wasEmpty : queue.mQueue.empty = true
    · rw [if_pos ⟨ok, wasEmpty⟩]
      exact .loud moves rfl rfl
    · rw [if_neg (fun both => wasEmpty both.2)]
      rw [empty] at wasEmpty
      exact .silent moves rfl rfl wasEmpty
  · rcases consistent.push_cases movedFrom value with ⟨_, refused⟩ | ⟨_, accepted, _⟩
    · rw [if_neg (fun both => ok both.1), refused]
      exact .nothing rfl rfl
    · exact absurd accepted ok

theorem attempt_effect {queue : Queue T} (consistent : queue.mQueue.Consistent)
    (movedFrom : T → T) (request : Request T) :
    (∃ outcome, queue.attempt movedFrom request = some outcome ∧
        Moves request.side queue.mQueue outcome.queue.mQueue ∧
        outcome.queue.mReady = queue.mReady.fetchAdd ∧
        outcome.notified = some request.side.other.waitMask) ∨
      (queue.attempt movedFrom request = none ∧ request.side.room queue.mQueue = 0) := by
  cases request with
  | pop =>
      unfold attempt
      simp only
      by_cases some_ : (queue.mQueue.pop movedFrom).2.isSome
      · rw [if_pos some_]
        exact .inl ⟨_, rfl, Moves.pop consistent movedFrom some_, rfl, rfl⟩
      · rw [if_neg some_]
        rcases consistent.pop_cases movedFrom with ⟨none_, _⟩ | ⟨got, _⟩
        · exact .inr ⟨rfl, none_⟩
        · exact absurd got some_
  | push value =>
      unfold attempt
      simp only
      by_cases ok : (queue.mQueue.push movedFrom value).2.1 = true
      · rw [if_pos ok]
        exact .inl ⟨_, rfl, Moves.push consistent movedFrom ok, rfl, rfl⟩
      · rw [if_neg ok]
        rcases consistent.push_cases movedFrom value with ⟨full, _⟩ | ⟨_, accepted, _⟩
        · refine .inr ⟨rfl, ?_⟩
          change queue.mQueue.maxSize - queue.mQueue.stored = 0
          omega
        · exact absurd accepted ok

/-! ### The invariant -/

/-- What the wait of a call can be. A queued wait that nothing has been notified since its
load was made has no room. -/
def Fits (notifications : Nat) (mQueue : RingQueue T) (call : Call T) : Prop :=
  match call.position with
  | .returned _ | .failed => True
  | .waiting old stamp wait =>
      old = UInt32.ofNat stamp ∧ stamp ≤ notifications ∧
        match wait with
        | .idle => False
        | .queued expected mask =>
            expected = old ∧ mask = call.request.side.waitMask ∧
              (stamp = notifications → call.request.side.room mQueue = 0)
        | .asleep mask => mask = call.request.side.waitMask
        | .returned .woken | .returned .again => stamp < notifications
        | .returned .canceled | .returned .invalid => True

structure Core (state : State T) : Prop where
  known : ∀ id call, state.calls id = some call → id ∈ state.known
  distinct : state.known.Nodup
  consistent : state.queue.mQueue.Consistent
  word : state.queue.mReady.mFutex = UInt32.ofNat state.notifications
  fits : ∀ id call, state.calls id = some call →
    Fits state.notifications state.queue.mQueue call

structure Inv (state : State T) : Prop where
  core : Core state
  enough : ∀ side id, Asleep state side id → side.room state.queue.mQueue ≤ state.pending side

theorem State.set_same (state : State T) (id : Nat) (call : Call T) :
    (state.set id call).calls id = some call :=
  Function.update_self ..

theorem State.set_other (state : State T) {id other : Nat} (different : other ≠ id)
    (call : Call T) : (state.set id call).calls other = state.calls other :=
  Function.update_of_ne different ..

theorem State.waits_cases (state : State T) {id : Nat} (busy : state.waits id ≠ .idle) :
    ∃ call old stamp, state.calls id = some call ∧
      call.position = .waiting old stamp (state.waits id) := by
  unfold waits at busy ⊢
  cases found : state.calls id with
  | none =>
      rw [found] at busy
      exact absurd rfl busy
  | some call =>
      rw [found, Option.elim_some] at busy
      rw [Option.elim_some]
      cases position : call.position with
      | waiting old stamp wait => exact ⟨call, old, stamp, rfl, position⟩
      | returned reply =>
          rw [position] at busy
          exact absurd rfl busy
      | failed =>
          rw [position] at busy
          exact absurd rfl busy

theorem State.setWait_eq {state : State T} {id : Nat} {call : Call T}
    (found : state.calls id = some call) {old : UInt32} {stamp : Nat} {wait : Futex.Wait}
    (position : call.position = .waiting old stamp wait) (moved : Futex.Wait) :
    state.setWait id moved = state.set id { call with position := .waiting old stamp moved } := by
  unfold setWait
  rw [found]
  simp only [Option.elim_some, position]

theorem Core.set {state : State T} (core : Core state) {id : Nat} (member : id ∈ state.known)
    {call : Call T} (fits : Fits state.notifications state.queue.mQueue call) :
    Core (state.set id call) := by
  constructor
  case known =>
    intro other probe at_
    by_cases same : other = id
    · rw [same]
      exact member
    · rw [state.set_other same] at at_
      exact core.known other probe at_
  case distinct => exact core.distinct
  case consistent => exact core.consistent
  case word => exact core.word
  case fits =>
    intro other probe at_
    by_cases same : other = id
    · subst same
      rw [state.set_same] at at_
      cases at_
      exact fits
    · rw [state.set_other same] at at_
      exact core.fits other probe at_

theorem Core.pending_set {state : State T} (core : Core state) {id : Nat}
    (member : id ∈ state.known) (moved : Call T) (side : Side) :
    (state.set id moved).pending side + side.pending (state.calls id) =
      state.pending side + side.pending (some moved) :=
  Population.total_update side.pending state.calls core.distinct member (some moved)

theorem Side.pending_eq_zero {side : Side} {call : Call T}
    (still : ¬call.position.wait.HasReturned) : side.pending (some call) = 0 := by
  unfold pending
  simp only
  split
  · rename_i position
    rw [position] at still
    exact absurd trivial still
  · rename_i position
    rw [position] at still
    exact absurd trivial still
  · rfl

theorem Asleep.of_set {state : State T} {id other : Nat} {moved : Call T} {side : Side}
    (awake : ¬moved.position.wait.IsAsleep) (asleep : Asleep (state.set id moved) side other) :
    Asleep state side other := by
  rcases asleep with ⟨call, at_, rest⟩
  change (state.set id moved).calls other = some call at at_
  by_cases same : other = id
  · subst same
    rw [state.set_same] at at_
    cases at_
    exact absurd rest.2 awake
  · rw [state.set_other same] at at_
    exact ⟨call, at_, rest⟩

/-! ### Notifications -/

theorem Side.meets_iff (side sleeper : Side) :
    (Futex.Wait.asleep sleeper.waitMask).Meets side.waitMask ↔ sleeper = side := by
  cases side <;> cases sleeper <;> decide

theorem Core.wake_cases {state : State T} (core : Core state) {side : Side} {woken : Option Nat}
    (notices : state.Notices (some side.waitMask) woken) :
    (state.wake woken = state ∧ ∀ id, ¬Asleep state side id) ∨
      ∃ id call old stamp mask, state.calls id = some call ∧
        call.position = .waiting old stamp (.asleep mask) ∧ call.request.side = side ∧
        state.wake woken =
          state.set id { call with position := .waiting old stamp (.returned .woken) } := by
  change Futex.WakesAmong state.known state.waits side.waitMask woken at notices
  have own : ∀ id call old stamp mask, state.calls id = some call →
      call.position = .waiting old stamp (.asleep mask) → mask = call.request.side.waitMask := by
    intro id call old stamp mask found position
    have fits := core.fits id call found
    unfold Fits at fits
    rw [position] at fits
    exact fits.2.2
  cases woken with
  | none =>
      refine .inl ⟨rfl, ?_⟩
      rintro id ⟨call, found, sides, asleep⟩
      change state.calls id = some call at found
      apply notices id (core.known id call found)
      unfold State.waits
      rw [found, Option.elim_some]
      cases position : call.position with
      | waiting old stamp wait =>
          rw [position] at asleep
          cases wait with
          | asleep mask =>
              change (Futex.Wait.asleep mask).Meets side.waitMask
              rw [own id call old stamp mask found position, Side.meets_iff]
              exact sides
          | idle | queued _ _ | returned _ => cases asleep
      | returned _ | failed =>
          rw [position] at asleep
          cases asleep
  | some id =>
      right
      have meets := notices.2
      rcases state.waits_cases (Futex.Wait.ne_idle (.inr meets.isAsleep)) with ⟨call, old, stamp, found, position⟩
      cases wait : state.waits id with
      | asleep mask =>
          rw [wait] at meets position
          rw [own id call old stamp mask found position, Side.meets_iff] at meets
          exact ⟨id, call, old, stamp, mask, found, position, meets,
            State.setWait_eq found position _⟩
      | idle | queued _ _ | returned _ =>
          rw [wait] at meets
          cases meets

/-- A notification of the side, seen from the sleepers. -/
structure Woke (side : Side) (before after : State T) : Prop where
  queue : after.queue = before.queue
  known : after.known = before.known
  awake : ∀ id, ¬(before.waits id).IsAsleep → after.calls id = before.calls id
  asleep : ∀ other id, Asleep after other id → Asleep before other id
  pending : ∀ other, before.pending other ≤ after.pending other
  served : (∀ id, ¬Asleep before side id) ∨ after.pending side = before.pending side + 1

theorem Core.woke {state : State T} (core : Core state) {side : Side} {woken : Option Nat}
    (notices : state.Notices (some side.waitMask) woken) : Woke side state (state.wake woken) := by
  rcases core.wake_cases notices with ⟨same, nobody⟩ |
    ⟨id, call, old, stamp, mask, found, position, sides, set⟩
  · rw [same]
    exact ⟨rfl, rfl, fun _ _ => rfl, fun _ _ => id, fun _ => Nat.le_refl _, .inl nobody⟩
  · rw [set]
    have before : ∀ other : Side, other.pending (state.calls id) = 0 := by
      intro other
      rw [found]
      apply Side.pending_eq_zero
      rw [position]
      exact fun returned => returned.elim
    have total := fun other => core.pending_set (core.known id call found)
      { call with position := .waiting old stamp (.returned .woken) } other
    constructor
    case queue => rfl
    case known => rfl
    case awake =>
      intro other awake
      apply state.set_other
      intro same
      apply awake
      unfold State.waits
      rw [same, found, Option.elim_some, position]
      trivial
    case asleep =>
      intro other sleeper asleep
      refine Asleep.of_set ?_ asleep
      exact fun sleeping => sleeping
    case pending =>
      intro other
      have sum := total other
      rw [before] at sum
      omega
    case served =>
      right
      have sum := total side
      have one : side.pending
          (some { call with position := .waiting old stamp (.returned .woken) }) = 1 :=
        if_pos sides
      rw [before, one] at sum
      exact sum

/-- Another notification leaves no comparison that could still put to sleep. -/
theorem Fits.notify {notifications : Nat} {mQueue : RingQueue T} {call : Call T}
    (fits : Fits notifications mQueue call) (after : RingQueue T) :
    Fits (notifications + 1) after call := by
  unfold Fits at fits ⊢
  cases position : call.position with
  | returned _ | failed => trivial
  | waiting old stamp wait =>
      simp only [position] at fits ⊢
      rcases fits with ⟨loaded, older, rest⟩
      refine ⟨loaded, by omega, ?_⟩
      cases wait with
      | idle => exact rest
      | queued expected mask =>
          refine ⟨rest.1, rest.2.1, ?_⟩
          intro now
          omega
      | asleep mask => exact rest
      | returned result =>
          cases result with
          | woken | again => exact Nat.lt_succ_of_lt rest
          | canceled | invalid => trivial

theorem Side.eq_or_other (side probe : Side) : probe = side ∨ probe = side.other := by
  cases side <;> cases probe <;> decide

/-- Without a notification, both sides had room, so no such comparison was there. -/
theorem Fits.move {notifications : Nat} {mQueue after : RingQueue T} {call : Call T}
    (fits : Fits notifications mQueue call) {side : Side} (moves : Moves side mQueue after)
    (some_ : side.other.room mQueue ≠ 0) : Fits notifications after call := by
  unfold Fits at fits ⊢
  cases position : call.position with
  | returned _ | failed => trivial
  | waiting old stamp wait =>
      simp only [position] at fits ⊢
      rcases fits with ⟨loaded, older, rest⟩
      refine ⟨loaded, older, ?_⟩
      cases wait with
      | queued expected mask =>
          refine ⟨rest.1, rest.2.1, ?_⟩
          intro now
          have none_ := rest.2.2 now
          have own := moves.own
          rcases side.eq_or_other call.request.side with same | same
          · rw [same] at none_
            omega
          · rw [same] at none_
            exact absurd none_ some_
      | idle | asleep _ => exact rest
      | returned result => cases result <;> exact rest

/-! ### Steps -/

theorem Core.wake {state : State T} (core : Core state) {side : Side} {woken : Option Nat}
    (notices : state.Notices (some side.waitMask) woken)
    (older : ∀ id call loaded, state.calls id = some call →
      call.position.loaded? = some loaded → loaded.2 < state.notifications) :
    Core (state.wake woken) := by
  rcases core.wake_cases notices with ⟨same, _⟩ |
    ⟨id, call, old, stamp, mask, found, position, _, set⟩
  · rw [same]
    exact core
  · rw [set]
    apply core.set (core.known id call found)
    have fits := core.fits id call found
    unfold Fits at fits
    simp only [position] at fits
    have before : stamp < state.notifications := by
      apply older id call (old, stamp) found
      rw [position]
      rfl
    exact ⟨fits.1, fits.2.1, before⟩

theorem Fits.older {notifications : Nat} {mQueue : RingQueue T} {call : Call T}
    (fits : Fits notifications mQueue call) {loaded : UInt32 × Nat}
    (waits : call.position.loaded? = some loaded) : loaded.2 ≤ notifications := by
  unfold Fits at fits
  cases position : call.position with
  | returned _ | failed =>
      rw [position] at waits
      cases waits
  | waiting old own wait =>
      rw [position] at waits
      cases waits
      simp only [position] at fits
      exact fits.2.1

/-- What is left after an operation that has notified the other side. -/
structure Served (side : Side) (before after : State T) : Prop where
  core : Core after
  known : after.known = before.known
  awake : ∀ id, ¬(before.waits id).IsAsleep → after.calls id = before.calls id
  own : ∀ id, Asleep after side id → side.room after.queue.mQueue + 1 ≤ after.pending side
  opposite : ∀ id, Asleep after side.other id →
    side.other.room after.queue.mQueue ≤ after.pending side.other

theorem Inv.loud {state : State T} (inv : Inv state) {Reply : Type} {outcome : Outcome T Reply}
    {side : Side} (moves : Moves side state.queue.mQueue outcome.queue.mQueue)
    (word : outcome.queue.mReady = state.queue.mReady.fetchAdd)
    (notified : outcome.notified = some side.other.waitMask) {woken : Option Nat}
    (notices : state.Notices outcome.notified woken) :
    Served side state (state.apply outcome woken) := by
  let raised : State T :=
    { state with
      queue := outcome.queue
      notifications := state.notifications + 1 }
  have applied : state.apply outcome woken = raised.wake woken := by
    unfold State.apply
    rw [notified]
    rfl
  rw [notified] at notices
  have core : Core raised := by
    constructor
    case known => exact inv.core.known
    case distinct => exact inv.core.distinct
    case consistent => exact moves.consistent
    case word =>
      change outcome.queue.mReady.mFutex = UInt32.ofNat (state.notifications + 1)
      rw [word, UInt32.ofNat_add, ← inv.core.word]
      rfl
    case fits =>
      intro id call found
      exact (inv.core.fits id call found).notify _
  have woke : Woke side.other raised (raised.wake woken) := core.woke notices
  rw [applied]
  constructor
  case core =>
    apply core.wake notices
    intro id call loaded found waits
    exact Nat.lt_succ_of_le ((inv.core.fits id call found).older waits)
  case known => exact woke.known
  case awake => exact woke.awake
  case own =>
    intro id asleep
    have enough := inv.enough side id (woke.asleep side id asleep)
    have more : state.pending side ≤ _ := woke.pending side
    have less := moves.own
    rw [woke.queue]
    change side.room outcome.queue.mQueue + 1 ≤ _
    omega
  case opposite =>
    intro id asleep
    have before := woke.asleep side.other id asleep
    have enough := inv.enough side.other id before
    have more := moves.opposite
    rcases woke.served with nobody | one
    · exact absurd before (nobody id)
    · rw [woke.queue, one]
      change side.other.room outcome.queue.mQueue ≤ state.pending side.other + 1
      omega

theorem Core.settle {state : State T} (core : Core state) {id : Nat} (member : id ∈ state.known)
    {moved : Call T} (fits : Fits state.notifications state.queue.mQueue moved)
    (sleeps : moved.position.wait.IsAsleep → moved.request.side.room state.queue.mQueue = 0)
    (enough : ∀ side other, Asleep state side other → side.room state.queue.mQueue = 0 ∨
      side.room state.queue.mQueue + side.pending (state.calls id) ≤ state.pending side) :
    Inv (state.set id moved) := by
  constructor
  case core => exact core.set member fits
  case enough =>
    intro side other asleep
    have total := core.pending_set member moved side
    change side.room state.queue.mQueue ≤ (state.set id moved).pending side
    have before : Asleep state side other ∨ side.room state.queue.mQueue = 0 := by
      rcases asleep with ⟨call, at_, sides, sleeping⟩
      change (state.set id moved).calls other = some call at at_
      by_cases same : other = id
      · subst same
        rw [state.set_same] at at_
        cases at_
        rw [← sides]
        exact .inr (sleeps sleeping)
      · rw [state.set_other same] at at_
        exact .inl ⟨call, at_, sides, sleeping⟩
    rcases before with asleep | none_
    · rcases enough side other asleep with none_ | enough
      · omega
      · omega
    · omega

theorem Request.waitMask_side (request : Request T) :
    request.waitMask = request.side.waitMask := by
  cases request <;> rfl

theorem Inv.attempt {state : State T} (inv : Inv state) (movedFrom : T → T) {id : Nat}
    (member : id ∈ state.known) (awake : ¬(state.waits id).IsAsleep) {request : Request T}
    (mine : ∀ side : Side, side.pending (state.calls id) ≤ if side = request.side then 1 else 0)
    {woken : Option Nat}
    (notices : state.Notices ((state.queue.attempt movedFrom request).bind Outcome.notified)
      woken) : Inv (state.attempt movedFrom id request woken) := by
  have foreign : ∀ side : Side, side ≠ request.side → side.pending (state.calls id) = 0 := by
    intro side different
    have bound := mine side
    rw [if_neg different] at bound
    exact Nat.le_zero.1 bound
  unfold State.attempt
  rcases attempt_effect inv.core.consistent movedFrom request with
    ⟨outcome, done, moves, word, notified⟩ | ⟨blocked, none_⟩
  · rw [done] at notices
    have served := inv.loud moves word notified notices
    rw [done]
    apply served.core.settle (served.known.symm ▸ member)
    · trivial
    · exact fun asleep => asleep.elim
    · intro side other asleep
      right
      rw [served.awake id awake]
      rcases request.side.eq_or_other side with same | same
      · subst same
        have own := served.own other asleep
        have bound := mine request.side
        rw [if_pos rfl] at bound
        omega
      · subst same
        have apart : request.side.other ≠ request.side := by
          cases request.side <;> decide
        rw [foreign _ apart]
        exact served.opposite other asleep
  · rw [blocked]
    apply inv.core.settle member
    · exact ⟨inv.core.word, Nat.le_refl _, rfl, request.waitMask_side, fun _ => none_⟩
    · exact fun asleep => asleep.elim
    · intro side other asleep
      by_cases same : side = request.side
      · subst same
        exact .inl none_
      · right
        rw [foreign side same]
        exact inv.enough side other asleep

theorem Inv.apply {state : State T} (inv : Inv state) {Reply : Type}
    {outcome : Outcome T Reply} {side : Side} (effect : Effect side state.queue outcome)
    (covered : side.room state.queue.mQueue ≠ 0 → side.other.room state.queue.mQueue ≠ 0 →
      Covered state side.other)
    {woken : Option Nat} (notices : state.Notices outcome.notified woken) :
    Inv (state.apply outcome woken) := by
  cases effect with
  | nothing same quiet =>
      rw [quiet] at notices
      cases notices
      unfold State.apply
      rw [same, quiet]
      exact inv
  | silent moves word quiet some_ =>
      rw [quiet] at notices
      cases notices
      have own := moves.own
      have opposite := moves.opposite
      unfold State.apply
      rw [quiet]
      constructor
      case core =>
        constructor
        case known => exact inv.core.known
        case distinct => exact inv.core.distinct
        case consistent => exact moves.consistent
        case word =>
          change outcome.queue.mReady.mFutex = _
          rw [word]
          exact inv.core.word
        case fits =>
          intro id call found
          exact (inv.core.fits id call found).move moves some_
      case enough =>
        intro probe id asleep
        change probe.room outcome.queue.mQueue ≤ state.pending probe
        have enough := inv.enough probe id asleep
        rcases side.eq_or_other probe with same | same
        · rw [same] at enough ⊢
          omega
        · rw [same] at enough asleep ⊢
          rcases covered (by omega) some_ with nobody | more
          · rcases asleep with ⟨call, found, rest⟩
            exact absurd ⟨call, found, rest⟩ (nobody id (inv.core.known id call found))
          · omega
  | loud moves word notified =>
      have served := inv.loud moves word notified notices
      constructor
      case core => exact served.core
      case enough =>
        intro probe id asleep
        rcases side.eq_or_other probe with same | same
        · subst same
          exact Nat.le_of_succ_le (served.own id asleep)
        · subst same
          exact served.opposite id asleep

/-- A comparison that puts to sleep comes with no notification since the load. -/
theorem Inv.compare {state : State T} (inv : Inv state) {id : Nat}
    (queued : (state.waits id).IsQueued) (recent : state.Recent id) :
    Inv (state.setWait id ((state.waits id).compare state.queue.mReady.mFutex)) := by
  rcases state.waits_cases (Futex.Wait.ne_idle (.inl queued)) with ⟨call, old, stamp, found, position⟩
  have young : state.queue.mReady.mFutex = old → state.notifications < stamp + 2 ^ 32 :=
    recent call found (old, stamp) (by rw [position]; rfl)
  have fits := inv.core.fits id call found
  have none_ : ∀ side : Side, side.pending (state.calls id) = 0 := by
    intro side
    rw [found]
    apply Side.pending_eq_zero
    rw [position]
    exact Futex.Wait.not_hasReturned (.inl queued)
  have kept : ∀ side other, Asleep state side other → side.room state.queue.mQueue = 0 ∨
      side.room state.queue.mQueue + side.pending (state.calls id) ≤ state.pending side := by
    intro side other asleep
    rw [none_]
    exact .inr (inv.enough side other asleep)
  rw [State.setWait_eq found position]
  cases wait : state.waits id with
  | idle | asleep _ | returned _ =>
      rw [wait] at queued
      cases queued
  | queued expected mask =>
      unfold Fits at fits
      rw [wait] at position
      simp only [position] at fits
      rcases fits with ⟨loaded, older, same, own, room⟩
      have valid : mask ≠ 0 := by
        rw [own]
        cases call.request.side <;> decide
      rw [Futex.Wait.compare_queued valid]
      by_cases unchanged : state.queue.mReady.mFutex = expected
      · have now : state.notifications = stamp := by
          apply eq_of_recent older (young (unchanged.trans same))
          rw [← inv.core.word, ← loaded, ← same]
          exact unchanged
        rw [if_pos unchanged]
        apply inv.core.settle (inv.core.known id call found)
        · exact ⟨loaded, older, own⟩
        · exact fun _ => room now.symm
        · exact kept
      · have later : stamp ≠ state.notifications := by
          intro now
          apply unchanged
          rw [same, loaded, now]
          exact inv.core.word
        rw [if_neg unchanged]
        apply inv.core.settle (inv.core.known id call found)
        · exact ⟨loaded, older, Nat.lt_of_le_of_ne older later⟩
        · exact fun asleep => asleep.elim
        · exact kept

theorem Inv.cancel {state : State T} (inv : Inv state) {id : Nat}
    (waits : (state.waits id).IsQueued ∨ (state.waits id).IsAsleep) :
    Inv (state.setWait id (.returned .canceled)) := by
  rcases state.waits_cases (Futex.Wait.ne_idle waits) with ⟨call, old, stamp, found, position⟩
  have fits := inv.core.fits id call found
  unfold Fits at fits
  simp only [position] at fits
  rw [State.setWait_eq found position]
  apply inv.core.settle (inv.core.known id call found)
  · exact ⟨fits.1, fits.2.1, trivial⟩
  · exact fun asleep => asleep.elim
  · intro side other asleep
    right
    rw [found, Side.pending_eq_zero]
    · exact inv.enough side other asleep
    · rw [position]
      exact Futex.Wait.not_hasReturned waits

/-- A woken call looks at a word that has changed, so it tries again. -/
theorem Inv.retry {state : State T} (inv : Inv state) (movedFrom : T → T) {id : Nat}
    {call : Call T} (found : state.calls id = some call) (recent : state.Recent id)
    {old : UInt32} {stamp : Nat} {result : Futex.Result}
    (position : call.position = .waiting old stamp (.returned result))
    (later : old = UInt32.ofNat stamp ∧ stamp < state.notifications) {woken : Option Nat}
    (notices : state.Notices (if state.queue.mReady.mFutex = old then none
      else (state.queue.attempt movedFrom call.request).bind Outcome.notified) woken) :
    Inv (if state.queue.mReady.mFutex = old then state.suspend id call.request old stamp
      else state.attempt movedFrom id call.request woken) := by
  have young : state.queue.mReady.mFutex = old → state.notifications < stamp + 2 ^ 32 :=
    recent call found (old, stamp) (by rw [position]; rfl)
  have changed : state.queue.mReady.mFutex ≠ old := by
    intro same
    have bound := young same
    rw [inv.core.word, later.1] at same
    have now := eq_of_recent (Nat.le_of_lt later.2) bound same
    omega
  rw [if_neg changed] at notices ⊢
  apply inv.attempt movedFrom (inv.core.known id call found) ?_ ?_ notices
  · unfold State.waits
    rw [found, Option.elim_some, position]
    exact fun asleep => asleep.elim
  · intro side
    rw [found]
    unfold Side.pending
    simp only
    split
    · simp only [eq_comm, Nat.le_refl]
    · simp only [eq_comm, Nat.le_refl]
    · exact Nat.zero_le _

theorem Inv.resume {state : State T} (inv : Inv state) (movedFrom : T → T) {id : Nat}
    {call : Call T} (found : state.calls id = some call) (recent : state.Recent id)
    {woken : Option Nat} (notices : state.Notices (state.resumeNotified movedFrom call) woken) :
    Inv (state.resume movedFrom id call woken) := by
  have fits := inv.core.fits id call found
  unfold Fits at fits
  unfold State.resumeNotified at notices
  unfold State.resume
  cases position : call.position with
  | returned reply | failed => exact inv
  | waiting old stamp wait =>
      cases wait with
      | idle | queued _ _ | asleep _ => exact inv
      | returned result =>
          simp only [position] at fits notices ⊢
          cases result with
          | woken | again =>
              exact inv.retry movedFrom found recent position ⟨fits.1, fits.2.2⟩ notices
          | canceled | invalid =>
              apply inv.core.settle (inv.core.known id call found)
              · trivial
              · exact fun asleep => asleep.elim
              · intro side other asleep
                right
                have none_ : side.pending (some call) = 0 := by
                  unfold Side.pending
                  simp only [position]
                rw [found, none_]
                exact inv.enough side other asleep

theorem Inv.start {state : State T} (inv : Inv state) (movedFrom : T → T) {id : Nat}
    (fresh : id ∉ state.known) {request : Request T} {woken : Option Nat}
    (notices : state.Notices ((state.queue.attempt movedFrom request).bind Outcome.notified)
      woken) :
    Inv ({ state with known := id :: state.known }.attempt movedFrom id request woken) := by
  have unknown : state.calls id = none := by
    cases found : state.calls id with
    | none => rfl
    | some call => exact absurd (inv.core.known id call found) fresh
  have pending : ∀ side : Side,
      { state with known := id :: state.known }.pending side = state.pending side := by
    intro side
    unfold State.pending
    rw [Population.total_cons, unknown]
    exact Nat.zero_add _
  have entered : Inv { state with known := id :: state.known } := by
    constructor
    case core =>
      constructor
      case known =>
        intro other call found
        exact List.mem_cons_of_mem _ (inv.core.known other call found)
      case distinct => exact List.nodup_cons.2 ⟨fresh, inv.core.distinct⟩
      case consistent => exact inv.core.consistent
      case word => exact inv.core.word
      case fits => exact inv.core.fits
    case enough =>
      intro side other asleep
      rw [pending]
      exact inv.enough side other asleep
  apply entered.attempt movedFrom List.mem_cons_self
  · change ¬(state.waits id).IsAsleep
    unfold State.waits
    rw [unknown]
    exact fun asleep => asleep.elim
  · intro side
    change side.pending (state.calls id) ≤ _
    rw [unknown]
    exact Nat.zero_le _
  · cases notified : (state.queue.attempt movedFrom request).bind Outcome.notified with
    | none =>
        rw [notified] at notices
        exact notices
    | some mask =>
        rw [notified] at notices
        apply Futex.WakesAmong.cons notices
        unfold State.waits
        rw [unknown]
        exact fun meets => meets.elim

/-! ### Runs -/

theorem Inv.step {movedFrom : T → T} {state : State T} {action : Action T} (inv : Inv state)
    (enabled : Enabled movedFrom state action) (noWrap : NoWrap state action)
    (noticed : Noticed state action) : Inv (next movedFrom state action) := by
  have empty := inv.core.consistent.empty_iff
  have full := inv.core.consistent.full_iff
  have bounded := inv.core.consistent.stored_le
  cases action with
  | tryPop woken =>
      apply inv.apply (tryPop_effect inv.core.consistent movedFrom) ?_ enabled
      intro some_ free
      rcases noticed with isFull | isEmpty | covered
      · rw [full] at isFull
        change _ - _ ≠ 0 at free
        omega
      · exact absurd (empty.1 isEmpty) some_
      · exact covered
  | tryPush value woken =>
      apply inv.apply (tryPush_effect inv.core.consistent movedFrom value) ?_ enabled
      intro free some_
      rcases noticed with isEmpty | isFull | covered
      · exact absurd (empty.1 isEmpty) some_
      · rw [full] at isFull
        change _ - _ ≠ 0 at free
        omega
      · exact covered
  | start id request woken => exact inv.start movedFrom enabled.1 enabled.2
  | compare id => exact inv.compare enabled noWrap
  | cancel id => exact inv.cancel enabled
  | resume id woken =>
      rcases state.waits_cases enabled.1.ne_idle with ⟨call, old, stamp, found, position⟩
      simp only [next, found, Option.elim_some]
      exact inv.resume movedFrom found noWrap (enabled.2 call found)

theorem Inv.initial [Inhabited T] (size : Nat) : Inv (State.initial size : State T) := by
  constructor
  case core =>
    constructor
    case known =>
      intro id call found
      cases found
    case distinct => exact List.nodup_nil
    case consistent => exact RingQueue.Consistent.setMaxSize size
    case word => rfl
    case fits =>
      intro id call found
      cases found
  case enough =>
    rintro side id ⟨call, found, _⟩
    cases found

/-- No result of a wait is still to be taken up. -/
def Quiet (state : State T) : Prop :=
  ∀ id ∈ state.known, ¬(state.waits id).HasReturned

instance (state : State T) : Decidable (Quiet state) :=
  inferInstanceAs (Decidable (∀ id ∈ state.known, _))

theorem Quiet.pending_eq_zero {state : State T} (quiet : Quiet state) (side : Side) :
    state.pending side = 0 := by
  apply Population.total_eq_zero_iff.2
  intro id member
  have still := quiet id member
  unfold State.waits at still
  cases found : state.calls id with
  | none => rfl
  | some call =>
      rw [found, Option.elim_some] at still
      exact Side.pending_eq_zero still

/-- No pop sleeps at elements, and no push at free slots. -/
def NobodyMisses (state : State T) : Prop :=
  (∀ id, Asleep state .pop id → state.queue.mQueue.empty = true) ∧
    ∀ id, Asleep state .push id → state.queue.mQueue.full = true

/-- Any number of calls in any order of the events: when everything has come to rest,
nobody has missed a notification, unless a try_push or try_pop gave none and should
have. -/
theorem nobody_misses_when_noticed [Inhabited T] (movedFrom : T → T) (size : Nat)
    (actions : List (Action T)) (runs : (machine movedFrom size).Runs (.initial size) actions)
    (noWrap : (machine movedFrom size).Along NoWrap (.initial size) actions)
    (noticed : (machine movedFrom size).Along Noticed (.initial size) actions)
    (quiet : Quiet ((machine movedFrom size).after (.initial size) actions)) :
    NobodyMisses ((machine movedFrom size).after (.initial size) actions) := by
  have keeps : ∀ (state : State T) action, Inv state → Enabled movedFrom state action →
      NoWrap state action ∧ Noticed state action → Inv (next movedFrom state action) := by
    intro state action inv enabled conditions
    exact inv.step enabled conditions.1 conditions.2
  have inv := Machine.invariant_along Inv keeps (Inv.initial size) runs (noWrap.and noticed)
  have consistent := inv.core.consistent
  constructor
  · intro id asleep
    have enough := inv.enough .pop id asleep
    rw [quiet.pending_eq_zero] at enough
    exact consistent.empty_iff.2 (Nat.le_zero.1 enough)
  · intro id asleep
    have enough := inv.enough .push id asleep
    rw [quiet.pending_eq_zero] at enough
    have bounded := consistent.stored_le
    rw [consistent.full_iff]
    change _ - _ ≤ 0 at enough
    omega

/-- Two pops sleep; the element of a try_push wakes one of them, and the other stays
asleep at the empty queue. -/
theorem nobody_misses_when_noticed_woken :
    NobodyMisses ((machine (id : Nat → Nat) 2).after (.initial 2)
      [.start 0 .pop none, .compare 0, .start 1 .pop none, .compare 1, .tryPush 7 (some 0),
        .resume 0 none]) :=
  nobody_misses_when_noticed id 2 _ (by decide +kernel) (by decide +kernel) (by decide +kernel)
    (by decide +kernel)

/-- Two pops sleep; the second of two try_push finds the queue non-empty and notifies
nobody, so one pop stays asleep at its element. -/
theorem second_try_push_wakes_nobody :
    ¬∀ (size : Nat) (actions : List (Action Nat)),
      (machine id size).Runs (.initial size) actions →
      (machine id size).Along NoWrap (.initial size) actions →
      Quiet ((machine id size).after (.initial size) actions) →
      NobodyMisses ((machine id size).after (.initial size) actions) := by
  intro claimed
  have missed := claimed 2 [.start 0 .pop none, .compare 0, .start 1 .pop none, .compare 1,
    .tryPush 7 (some 0), .tryPush 8 none, .resume 0 none] (by decide +kernel)
    (by decide +kernel) (by decide +kernel)
  have asleep := missed.1 1 ⟨_, rfl, by decide, by decide⟩
  exact absurd asleep (by decide +kernel)

end MCoro.Queue
