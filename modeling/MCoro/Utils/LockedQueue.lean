/-
SpinMutex of co_async/utils/spin_mutex.hpp, and ConcurrentRingQueue<T, 0> of
co_async/utils/concurrent_queue.hpp, whose calls run under one.

A party is a thread. test_and_set, clear and each access to the deque are steps of
their own, and any thread may take the next one.
-/

import MCoro.Library.CriticalSections

namespace MCoro

structure SpinMutex where
  flag : Bool
  deriving DecidableEq, Repr

namespace SpinMutex

/-- The flag is set; what it was before. -/
def testAndSet (mutex : SpinMutex) : SpinMutex × Bool :=
  ({ flag := true }, mutex.flag)

/-- Also one round of the loop of lock. -/
def tryLock (mutex : SpinMutex) : SpinMutex × Bool :=
  (mutex.testAndSet.1, !mutex.testAndSet.2)

def unlock (_ : SpinMutex) : SpinMutex :=
  { flag := false }

variable {Party Operation Data Result : Type}

/-- An object beside its mutex. -/
structure State (Party Operation Data Result : Type) where
  mutex : SpinMutex
  sections : Guarded.Sections Party Operation Data Result

inductive Action (Party Operation : Type) where
  | call (party : Party) (operation : Operation)
  /-- One round of the loop of lock. -/
  | tryLock (party : Party)
  | touch (party : Party)
  /-- The destructor of the std::lock_guard. -/
  | unlock (party : Party)
  | giveBack (party : Party)
  deriving DecidableEq, Repr

def State.initial (data : Data) : State Party Operation Data Result :=
  { mutex := { flag := false }, sections := .initial data }

def shown (state : State Party Operation Data Result) :
    Action Party Operation → Option (Guarded.Event Party Operation Result)
  | .call party operation => state.sections.shown (.call party operation)
  | .giveBack party => state.sections.shown (.giveBack party)
  | _ => none

variable [DecidableEq Party]

section

variable (object : Guarded Operation Data Result) (data : Data)

def State.move (state : State Party Operation Data Result)
    (move : Guarded.Move Party Operation Result) : State Party Operation Data Result :=
  { state with sections := (object.inSections data).next state.sections move }

/-- A thread that is through its section is in unlock. -/
def Enabled (state : State Party Operation Data Result) : Action Party Operation → Prop
  | .call party _ => state.sections.place party = .outside
  | .tryLock party => ∃ operation, state.sections.place party = .called operation
  | .touch party => ∃ code, state.sections.place party = .inside code ∧ code.isTouch = true
  | .unlock party => ∃ result, state.sections.place party = .inside (.leave result)
  | .giveBack party => ∃ result, state.sections.place party = .done result

def next (state : State Party Operation Data Result) :
    Action Party Operation → State Party Operation Data Result
  | .call party operation => state.move object data (.call party operation)
  | .tryLock party =>
      let tried := { state with mutex := state.mutex.tryLock.1 }
      if state.mutex.tryLock.2 then tried.move object data (.enter party) else tried
  | .touch party => state.move object data (.touch party)
  | .unlock party => { state with mutex := state.mutex.unlock }.move object data (.leave party)
  | .giveBack party => state.move object data (.giveBack party)

def machine : Machine (State Party Operation Data Result) (Action Party Operation) where
  initial := .initial data
  Enabled := Enabled
  next := next object data

end

section

variable {object : Guarded Operation Data Result} {data : Data}
  {state : State Party Operation Data Result}
  {instant : Guarded.Instant Party Operation Data Result}

/-- The flag is set while a thread is inside. -/
structure Agree (object : Guarded Operation Data Result)
    (state : State Party Operation Data Result)
    (instant : Guarded.Instant Party Operation Data Result) : Prop where
  sections : Guarded.Agree object state.sections instant
  flag : state.mutex.flag = true ↔ state.sections.Busy

omit [DecidableEq Party] in
theorem Agree.initial :
    Agree object (.initial data : State Party Operation Data Result) (.initial data) where
  sections := .initial
  flag := by simp [State.initial, Guarded.Sections.initial, Guarded.Sections.Busy,
    Guarded.Place.IsInside]

theorem Agree.move (agree : Agree object state instant) {move : Guarded.Move Party Operation Result}
    (enabled : (object.inSections data).Enabled state.sections move) {mutex : SpinMutex}
    (flag : mutex.flag = true ↔ ((object.inSections data).next state.sections move).Busy) :
    Machine.Answers (object.instantly data) Guarded.Instant.shown
      (Agree object ({ state with mutex }.move object data move)) instant
      (state.sections.shown move) := by
  obtain ⟨acts, goes, shows, agree'⟩ := agree.sections.next enabled
  exact ⟨acts, goes, shows, agree', flag⟩

theorem Agree.next (agree : Agree object state instant) {action : Action Party Operation}
    (enabled : Enabled state action) :
    Machine.Answers (object.instantly data) Guarded.Instant.shown
      (Agree object (next object data state action)) instant (shown state action) := by
  cases action with
  | call party operation =>
      have away : state.sections.place party = .outside := enabled
      have now : (object.inSections data).Enabled state.sections (.call party operation) := away
      refine agree.move now (agree.flag.trans (Guarded.busy_put ?_).symm)
      simp [away, Guarded.Place.IsInside]
  | giveBack party =>
      obtain ⟨result, done⟩ := enabled
      have now : (object.inSections data).Enabled state.sections (.giveBack party) :=
        ⟨result, done⟩
      refine agree.move now (agree.flag.trans (Guarded.busy_put ?_).symm)
      simp [done, Guarded.Place.IsInside]
  | touch party =>
      have now : (object.inSections data).Enabled state.sections (.touch party) := enabled
      exact agree.move now (agree.flag.trans (Guarded.busy_touch now).symm)
  | unlock party =>
      have now : (object.inSections data).Enabled state.sections (.leave party) := enabled
      refine agree.move now ?_
      simp [SpinMutex.unlock, Guarded.not_busy_leave agree.sections now]
  | tryLock party =>
      obtain ⟨operation, called⟩ := enabled
      unfold SpinMutex.next
      cases taken : state.mutex.flag with
      | true =>
          have same : state.mutex.tryLock = (state.mutex, false) := by
            simp [SpinMutex.tryLock, testAndSet, ← taken]
          rw [same]
          exact .stays agree
      | false =>
          have nobody : ∀ other, ¬(state.sections.place other).IsInside := by
            intro other inside
            rw [agree.flag.mpr ⟨other, inside⟩] at taken
            cases taken
          have got : state.mutex.tryLock = ({ flag := true }, true) := by
            simp [SpinMutex.tryLock, testAndSet, taken]
          rw [got]
          have enters : (object.inSections data).Enabled state.sections (.enter party) :=
            ⟨⟨operation, called⟩, nobody⟩
          exact agree.move enters (by simp [Guarded.busy_enter enters])

end

/-- Threads under a spin mutex see an object whose operations take effect at once. -/
theorem exists_instantly (object : Guarded Operation Data Result) (data : Data)
    {actions : List (Action Party Operation)}
    (runs : (machine object data).Runs (.initial data) actions) :
    ∃ acts, (object.instantly data).Runs (.initial data) acts ∧
      (object.instantly data).history Guarded.Instant.shown (.initial data) acts =
        (machine object data).history shown (.initial data) actions ∧
      Agree object ((machine object data).after (.initial data) actions)
        ((object.instantly data).after (.initial data) acts) :=
  Machine.exists_answer (fun _ _ _ agree enabled => agree.next enabled) Agree.initial runs

end SpinMutex

namespace ConcurrentRingQueue.Unbounded

variable {T : Type}

inductive Call (T : Type) where
  | push (value : T)
  | pop
  deriving DecidableEq, Repr

inductive Reply (T : Type) where
  | pushed
  | popped (value : Option T)
  /-- `front()` of an empty deque. -/
  | undefined
  deriving DecidableEq, Repr

def push (value : T) : Critical (List T) (Reply T) :=
  .touch (· ++ [value]) fun _ => .leave .pushed

/-- `empty()`, the move out of `front()`, and `pop_front()`. -/
def pop (movedFrom : T → T) : Critical (List T) (Reply T) :=
  .touch id fun mQueue =>
    if mQueue.isEmpty then .leave (.popped none)
    else .touch (List.modifyHead movedFrom) fun mQueue =>
      match mQueue with
      | [] => .leave .undefined
      | p :: _ => .touch List.tail fun _ => .leave (.popped (some p))

/-- ConcurrentRingQueue<T, 0> without its mutex. -/
def queue (movedFrom : T → T) : Guarded (Call T) (List T) (Reply T) where
  code
    | .push value => push value
    | .pop => pop movedFrom
  Quits _ _ := False

/-- These calls, one after the other, on a queue; what they return and what they leave. -/
inductive Fifo : List T → List (Call T × Reply T) → List T → Prop
  | nil {mQueue : List T} : Fifo mQueue [] mQueue
  | push {mQueue left : List T} {value : T} {rest : List (Call T × Reply T)} :
      Fifo (mQueue ++ [value]) rest left → Fifo mQueue ((.push value, .pushed) :: rest) left
  | pop {mQueue left : List T} {value : T} {rest : List (Call T × Reply T)} :
      Fifo mQueue rest left → Fifo (value :: mQueue) ((.pop, .popped (some value)) :: rest) left
  | popEmpty {left : List T} {rest : List (Call T × Reply T)} :
      Fifo [] rest left → Fifo [] ((.pop, .popped none) :: rest) left

def pushes (calls : List (Call T × Reply T)) : List T :=
  calls.filterMap fun
    | (.push value, _) => some value
    | _ => none

def pops (calls : List (Call T × Reply T)) : List T :=
  calls.filterMap fun
    | (_, .popped value) => value
    | _ => none

/-- Nothing is lost, given twice or out of order. -/
theorem Fifo.balance {mQueue left : List T} {calls : List (Call T × Reply T)}
    (fifo : Fifo mQueue calls left) : mQueue ++ pushes calls = pops calls ++ left := by
  induction fifo with
  | nil => simp [pushes, pops]
  | push _ ih => simpa [pushes, pops] using ih
  | pop _ ih => simpa [pushes, pops] using ih
  | popEmpty _ ih => simpa [pushes, pops] using ih

theorem apply_fifo {movedFrom : T → T} (call : Call T) (mQueue left : List T) (rest : List (Call T × Reply T))
    (later : Fifo ((queue movedFrom).apply call mQueue).1 rest left) :
    Fifo mQueue ((call, ((queue movedFrom).apply call mQueue).2) :: rest) left := by
  cases call with
  | push value => exact .push later
  | pop =>
      cases mQueue with
      | nil => exact .popEmpty later
      | cons value mQueue => exact .pop later

/-- What the threads see of a run, with the instants at which their calls take effect. -/
structure Serial {Party : Type} [DecidableEq Party] (movedFrom : T → T)
    (actions : List (SpinMutex.Action Party (Call T)))
    (acts : List (Guarded.Act Party (Call T) (Reply T))) : Prop where
  runs : ((queue movedFrom).instantly []).Runs (.initial []) acts
  /-- Each call and each return is where it was. -/
  same : ((queue movedFrom).instantly []).history Guarded.Instant.shown (.initial []) acts =
    (SpinMutex.machine (queue movedFrom) []).history SpinMutex.shown (.initial []) actions
  fifo : Fifo []
    (((queue movedFrom).instantly []).history (Guarded.Instant.effect (queue movedFrom))
      (.initial []) acts)
    (((queue movedFrom).instantly []).after (.initial []) acts).data
  content : ((SpinMutex.machine (queue movedFrom) []).after (.initial []) actions).mutex.flag =
      false →
    ((SpinMutex.machine (queue movedFrom) []).after (.initial []) actions).sections.data =
      (((queue movedFrom).instantly []).after (.initial []) acts).data
  /-- One thread is in the deque at most. -/
  one : ∀ party other,
    let place :=
      ((SpinMutex.machine (queue movedFrom) []).after (.initial []) actions).sections.place
    (place party).IsInside → (place other).IsInside → party = other

/-- Any number of threads, in any order of their steps: each call comes to its reply as if
it had been made at some instant between its call and its return, on a queue that gives
first what it got first. -/
theorem threads_share_a_fifo (Party : Type) [DecidableEq Party] (movedFrom : T → T)
    (actions : List (SpinMutex.Action Party (Call T)))
    (runs : (SpinMutex.machine (queue movedFrom) []).Runs (.initial []) actions) :
    ∃ acts, Serial movedFrom actions acts ∧
      let calls := ((queue movedFrom).instantly []).history
        (Guarded.Instant.effect (queue movedFrom)) (.initial [] : Guarded.Instant Party _ _ _) acts
      pushes calls = pops calls ++ (((queue movedFrom).instantly []).after (.initial []) acts).data := by
  obtain ⟨acts, goes, shows, agree⟩ := SpinMutex.exists_instantly (queue movedFrom) [] runs
  have serial : Serial movedFrom actions acts := by
    constructor
    case runs => exact goes
    case same => exact shows
    case fifo =>
      exact Guarded.effects_serve (queue movedFrom) [] (fun _ => .nil)
        (fun call mQueue rest left => apply_fifo call mQueue left rest) acts (.initial [])
    case content =>
      intro free
      apply agree.sections.free
      intro party inside
      rw [agree.flag.mpr ⟨party, inside⟩] at free
      cases free
    case one => exact agree.sections.one
  exact ⟨acts, serial, serial.fifo.balance⟩

/-- A thread finds the mutex taken; once it is free, it pops what the other has pushed. -/
theorem threads_share_a_fifo_spinning :
    ∃ acts, Serial (fun _ => 0)
      ([.call 0 (.push 7), .call 1 .pop, .tryLock 0, .tryLock 1, .touch 0, .unlock 0, .tryLock 1,
        .touch 1, .touch 1, .giveBack 0, .touch 1, .unlock 1, .giveBack 1] :
        List (SpinMutex.Action (Fin 2) (Call Nat))) acts ∧
      let calls := ((queue fun _ => 0).instantly []).history
        (Guarded.Instant.effect (queue fun _ => 0)) (.initial [] : Guarded.Instant (Fin 2) _ _ _) acts
      pushes calls = pops calls ++
        (((queue fun _ => 0).instantly []).after (.initial []) acts).data :=
  threads_share_a_fifo (Fin 2) (fun _ => 0) _
    ⟨rfl, rfl, ⟨_, rfl⟩, ⟨_, rfl⟩, ⟨_, rfl, rfl⟩, ⟨_, rfl⟩, ⟨_, rfl⟩, ⟨_, rfl, rfl⟩, ⟨_, rfl, rfl⟩,
      ⟨_, rfl⟩, ⟨_, rfl, rfl⟩, ⟨_, rfl⟩, ⟨_, rfl⟩, trivial⟩

end ConcurrentRingQueue.Unbounded

end MCoro
