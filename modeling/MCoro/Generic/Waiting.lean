/-
The calls that wait on a queue or on a semaphore of one event loop: Queue::push and
Queue::pop of co_async/generic/queue.hpp, Semaphore::acquire and Semaphore::release of
co_async/generic/semaphore.hpp.

Each of the four tries to do its work, and waits on a futex word when it cannot. The code
between two suspensions is atomic, and no compare_exchange_weak fails spuriously.
-/

import MCoro.Generic.Queue
import MCoro.Generic.Semaphore

namespace MCoro

/-- A call; both the queue and the semaphore of one event loop are in the store. -/
inductive Request (T : Type) where
  | pop
  | push (value : T)
  | acquire
  | release
  deriving DecidableEq, Repr

inductive Returned (T : Type) where
  | popped (value : T)
  | done
  deriving DecidableEq, Repr

structure Store (T : Type) where
  queue : Queue T
  semaphore : Semaphore

inductive FutexWord where
  | ready
  | counter
  deriving DecidableEq, Repr

variable {T : Type}

/-! ### Permits -/

namespace Semaphore

/-- The `do while` loop of acquire and release from its first exchange on: it goes
round while the exchange succeeds. -/
def exchangeLoop (direction : Direction) : Nat → UInt32 → UInt32 → Option UInt32
  | 0, _, _ => none
  | fuel + 1, stored, count =>
      match compareExchangeWeak false stored count (direction.desired count) with
      | (true, stored, count) => exchangeLoop direction fuel stored count
      | (false, stored, _) => some stored

theorem Direction.desired_ne (direction : Direction) (count : UInt32) :
    direction.desired count ≠ count := by
  intro same
  cases direction with
  | acquire =>
      change count - 1 = count at same
      simp at same
  | release =>
      change count + 1 = count at same
      simp at same

/-- The first exchange succeeds and the second fails, so one change is made. -/
theorem exchangeLoop_eq (direction : Direction) (count : UInt32) (fuel : Nat) :
    exchangeLoop direction (fuel + 2) count count = some (direction.desired count) := by
  unfold exchangeLoop compareExchangeWeak compareExchange
  rw [if_neg Bool.false_ne_true, if_pos rfl]
  change exchangeLoop direction (fuel + 1) (direction.desired count) count = _
  unfold exchangeLoop compareExchangeWeak compareExchange
  rw [if_neg Bool.false_ne_true, if_neg (direction.desired_ne count)]

/-- acquire or release up to its notification, unless it has to wait. -/
def attempt (semaphore : Semaphore) (direction : Direction) : Option Semaphore :=
  if semaphore.mCounter = direction.limit semaphore then none
  else
    (exchangeLoop direction 2 semaphore.mCounter semaphore.mCounter).map fun counter =>
      { semaphore with mCounter := counter }

theorem attempt_blocked {semaphore : Semaphore} {direction : Direction}
    (blocked : semaphore.mCounter = direction.limit semaphore) :
    semaphore.attempt direction = none :=
  if_pos blocked

theorem attempt_free {semaphore : Semaphore} {direction : Direction}
    (free : semaphore.mCounter ≠ direction.limit semaphore) :
    semaphore.attempt direction =
      some { semaphore with mCounter := direction.desired semaphore.mCounter } := by
  unfold attempt
  rw [if_neg free, exchangeLoop_eq direction semaphore.mCounter 0]
  rfl

end Semaphore

/-! ### The calls -/

namespace Request

def word : Request T → FutexWord
  | pop | push _ => .ready
  | acquire | release => .counter

def waitMask : Request T → UInt32
  | pop => Queue.kNonEmptyMask
  | push _ => Queue.kNonFullMask
  | acquire => Semaphore.kAcquireMask
  | release => Semaphore.kReleaseMask

/-- The mask with which the call notifies one sleeper when it has done its work. -/
def notifyMask : Request T → UInt32
  | pop => Queue.kNonFullMask
  | push _ => Queue.kNonEmptyMask
  | acquire => Semaphore.kReleaseMask
  | release => Semaphore.kAcquireMask

variable (movedFrom : T → T)

/-- The work of the call, when it can be done now; the addition of notify_one is part of it. -/
def attempt (store : Store T) : Request T → Option (Store T × Returned T)
  | pop => (store.queue.attempt movedFrom .pop).map fun outcome =>
      ({ store with queue := outcome.queue }, outcome.reply.elim .done .popped)
  | push value => (store.queue.attempt movedFrom (.push value)).map fun outcome =>
      ({ store with queue := outcome.queue }, outcome.reply.elim .done .popped)
  | acquire => (store.semaphore.attempt .acquire).map fun semaphore =>
      ({ store with semaphore }, .done)
  | release => (store.semaphore.attempt .release).map fun semaphore =>
      ({ store with semaphore }, .done)

end Request

def Store.load (store : Store T) : FutexWord → UInt32
  | .ready => store.queue.mReady.mFutex
  | .counter => store.semaphore.mCounter

/-! ### What an attempt does -/

theorem Request.attempt_cases {movedFrom : T → T} {store next : Store T} {request : Request T}
    {reply : Returned T} (done : request.attempt movedFrom store = some (next, reply)) :
    (∃ value, request = .pop ∧ (store.queue.mQueue.pop movedFrom).2 = some value ∧
        reply = .popped value ∧ next.queue.mQueue = (store.queue.mQueue.pop movedFrom).1 ∧
        next.semaphore = store.semaphore) ∨
      (∃ value, request = .push value ∧ (store.queue.mQueue.push movedFrom value).2.1 = true ∧
        reply = .done ∧ next.queue.mQueue = (store.queue.mQueue.push movedFrom value).1 ∧
        next.semaphore = store.semaphore) ∨
      (request = .acquire ∧ store.semaphore.mCounter ≠ 0 ∧ reply = .done ∧
        next.queue = store.queue ∧ next.semaphore =
          { store.semaphore with mCounter := store.semaphore.mCounter - 1 }) ∨
      (request = .release ∧ store.semaphore.mCounter ≠ store.semaphore.mMaxCount ∧
        reply = .done ∧ next.queue = store.queue ∧ next.semaphore =
          { store.semaphore with mCounter := store.semaphore.mCounter + 1 }) := by
  cases request with
  | pop =>
      unfold attempt Queue.attempt at done
      simp only at done
      cases got : (store.queue.mQueue.pop movedFrom).2 with
      | none =>
          rw [got] at done
          cases done
      | some value =>
          rw [got] at done
          cases done
          exact .inl ⟨value, rfl, rfl, rfl, rfl, rfl⟩
  | push value =>
      unfold attempt Queue.attempt at done
      simp only at done
      by_cases ok : (store.queue.mQueue.push movedFrom value).2.1 = true
      · rw [if_pos ok] at done
        cases done
        exact .inr (.inl ⟨value, rfl, ok, rfl, rfl, rfl⟩)
      · rw [if_neg ok] at done
        cases done
  | acquire =>
      unfold attempt at done
      by_cases blocked : store.semaphore.mCounter =
          Semaphore.Direction.acquire.limit store.semaphore
      · rw [Semaphore.attempt_blocked blocked] at done
        cases done
      · rw [Semaphore.attempt_free blocked] at done
        cases done
        exact .inr (.inr (.inl ⟨rfl, blocked, rfl, rfl, rfl⟩))
  | release =>
      unfold attempt at done
      by_cases blocked : store.semaphore.mCounter =
          Semaphore.Direction.release.limit store.semaphore
      · rw [Semaphore.attempt_blocked blocked] at done
        cases done
      · rw [Semaphore.attempt_free blocked] at done
        cases done
        exact .inr (.inr (.inr ⟨rfl, blocked, rfl, rfl, rfl⟩))

end MCoro
