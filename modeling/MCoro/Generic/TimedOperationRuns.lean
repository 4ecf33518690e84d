/-
Runs of timed calls: who takes elements and permits, and who is told so.

`view` is what a caller knows of its call. Most steps change no view; a step that
does the work of a call logs it and reports it, except when the timer of the
call has won before. Those steps are the ones `NoLateTransfer` excludes.
-/

import MCoro.Generic.TimedOperations
import MCoro.Library.Words
import MCoro.Utils.RingQueueRuns

namespace MCoro.TimedOperations

variable {T : Type}

/-! ### What the log amounts to -/

/-- The elements the logged calls put into the queue. -/
def pushed (transfers : List (Transfer T)) : List T :=
  transfers.filterMap fun transfer =>
    match transfer.request with
    | .push value => some value
    | _ => none

def popped (transfers : List (Transfer T)) : List T :=
  transfers.filterMap fun transfer =>
    match transfer.reply with
    | .popped value => some value
    | .done => none

def acquired (transfers : List (Transfer T)) : Nat :=
  transfers.countP fun transfer =>
    match transfer.request with
    | .acquire => true
    | _ => false

def released (transfers : List (Transfer T)) : Nat :=
  transfers.countP fun transfer =>
    match transfer.request with
    | .release => true
    | _ => false

/-- Elements and permits are conserved. The counter is a 32-bit number, which cannot
wrap around when the semaphore starts within its maximum. -/
structure Balance (initialCount maxCount : UInt32) (transfers : List (Transfer T))
    (store : Store T) : Prop where
  elements : ∃ fifo, store.queue.mQueue.Represents fifo ∧
    pushed transfers = popped transfers ++ fifo.items
  permits : store.semaphore.mCounter + UInt32.ofNat (acquired transfers) =
    initialCount + UInt32.ofNat (released transfers)
  maximum : store.semaphore.mMaxCount = maxCount
  bounded : initialCount ≤ maxCount → store.semaphore.mCounter ≤ maxCount ∧
    store.semaphore.mCounter.toNat + acquired transfers =
      initialCount.toNat + released transfers

theorem take_permit {counter acquired total : UInt32} (balance : counter + acquired = total) :
    counter - 1 + (acquired + 1) = total := by
  rw [← balance]
  grind

theorem put_permit {counter acquired initial released : UInt32}
    (balance : counter + acquired = initial + released) :
    counter + 1 + acquired = initial + (released + 1) := by
  grind

theorem popped_represents [Inhabited T] {movedFrom : T → T} {queue : RingQueue T}
    {fifo : BoundedFifo T} (represents : queue.Represents fifo) {value : T}
    (got : (queue.pop movedFrom).2 = some value) :
    ∃ shorter, (queue.pop movedFrom).1.Represents shorter ∧
      fifo.items = value :: shorter.items := by
  obtain ⟨after, answers⟩ := represents.perform movedFrom .pop
  refine ⟨fifo.dropOldest, after, ?_⟩
  have head : some value = fifo.items.head? :=
    got.symm.trans (RingQueue.Answer.popped.inj answers)
  change _ = value :: fifo.items.tail
  cases items : fifo.items with
  | nil =>
      rw [items] at head
      cases head
  | cons first rest =>
      rw [items] at head
      cases head
      rfl

theorem pushed_represents [Inhabited T] {movedFrom : T → T} {queue : RingQueue T}
    {fifo : BoundedFifo T} (represents : queue.Represents fifo) {value : T}
    (ok : (queue.push movedFrom value).2.1 = true) :
    ∃ longer, (queue.push movedFrom value).1.Represents longer ∧
      longer.items = fifo.items ++ [value] := by
  obtain ⟨after, answers⟩ := represents.perform movedFrom (.push value)
  cases accepted : fifo.push value with
  | none =>
      simp only [BoundedFifo.perform, accepted, Option.elim_none] at answers
      have refused := (RingQueue.Answer.pushed.inj answers).1
      rw [ok] at refused
      cases refused
  | some longer =>
      simp only [BoundedFifo.perform, accepted, Option.elim_some] at after
      exact ⟨longer, after, (BoundedFifo.push_accepted accepted).2.2⟩

theorem Balance.attempt [Inhabited T] {movedFrom : T → T} {initialCount maxCount : UInt32}
    {transfers : List (Transfer T)} {store next : Store T}
    (balance : Balance initialCount maxCount transfers store) {request : Request T}
    {reply : Returned T} (done : request.attempt movedFrom store = some (next, reply)) (id : Nat) :
    Balance initialCount maxCount
      (transfers ++
        [{ id := id
           request := request
           reply := reply }]) next := by
  rcases balance with ⟨⟨fifo, represents, elements⟩, permits, maximum, bounded⟩
  rcases Request.attempt_cases done with ⟨value, rfl, got, rfl, queue, semaphore⟩ |
    ⟨value, rfl, ok, rfl, queue, semaphore⟩ | ⟨rfl, positive, rfl, queue, semaphore⟩ |
    ⟨rfl, below, rfl, queue, semaphore⟩
  · obtain ⟨shorter, after, items⟩ := popped_represents represents got
    rw [← queue] at after
    rw [items] at elements
    constructor
    · refine ⟨shorter, after, ?_⟩
      simpa [pushed, popped] using elements
    · rw [semaphore]
      simpa [acquired, released] using permits
    · rw [semaphore]
      exact maximum
    · rw [semaphore]
      simpa [acquired, released] using bounded
  · obtain ⟨longer, after, items⟩ := pushed_represents represents ok
    rw [← queue] at after
    constructor
    · refine ⟨longer, after, ?_⟩
      rw [items]
      unfold pushed popped at elements ⊢
      simp only [List.filterMap_append, elements]
      simp
    · rw [semaphore]
      simpa [acquired, released] using permits
    · rw [semaphore]
      exact maximum
    · rw [semaphore]
      simpa [acquired, released] using bounded
  · rw [← queue] at represents
    constructor
    · refine ⟨fifo, represents, ?_⟩
      simpa [pushed, popped] using elements
    · rw [semaphore]
      simpa [acquired, released] using take_permit permits
    · rw [semaphore]
      exact maximum
    · rw [semaphore]
      intro within
      rcases bounded within with ⟨low, exactly⟩
      have less := toNat_sub_one positive
      rw [UInt32.le_iff_toNat_le] at low ⊢
      simp only [acquired, released, List.countP_append, List.countP_singleton] at exactly ⊢
      constructor
      · omega
      · simp
        omega
  · rw [← queue] at represents
    constructor
    · refine ⟨fifo, represents, ?_⟩
      simpa [pushed, popped] using elements
    · rw [semaphore]
      simpa [acquired, released] using put_permit permits
    · rw [semaphore]
      exact maximum
    · rw [semaphore]
      intro within
      rcases bounded within with ⟨low, exactly⟩
      rw [maximum] at below
      rcases toNat_add_one low below with ⟨bound, more⟩
      constructor
      · exact bound
      · simp only [acquired, released, List.countP_append, List.countP_singleton] at exactly ⊢
        rw [more]
        simp
        omega

/-! ### What the callers know -/

@[simp]
theorem State.set_same (state : State T) (id : Nat) (operation : Operation T) :
    (state.set id operation).operations id = some operation :=
  Function.update_self ..

theorem State.set_other (state : State T) {id other : Nat} (different : other ≠ id)
    (operation : Operation T) :
    (state.set id operation).operations other = state.operations other :=
  Function.update_of_ne different ..

/-- A call that is found after an assignment is the assigned one or was there before. -/
theorem State.set_cases {state : State T} {id other : Nat} {operation probe : Operation T}
    (at_ : (state.set id operation).operations other = some probe) :
    other = id ∧ probe = operation ∨ other ≠ id ∧ state.operations other = some probe := by
  by_cases same : other = id
  · rw [same, set_same] at at_
    exact .inl ⟨same, (Option.some.inj at_).symm⟩
  · rw [set_other _ same] at at_
    exact .inr ⟨same, at_⟩

/-- What the caller has asked for and what it has been told. -/
def State.view (state : State T) (id : Nat) : Option (Request T × Option (Report T)) :=
  (state.operations id).map fun operation => (operation.request, operation.report)

theorem State.view_of_found {state : State T} {id : Nat} {operation : Operation T}
    (found : state.operations id = some operation) :
    state.view id = some (operation.request, operation.report) := by
  unfold view
  rw [found]
  rfl

theorem State.set_view_same (state : State T) (id : Nat) (operation : Operation T) :
    (state.set id operation).view id = some (operation.request, operation.report) := by
  unfold view
  rw [set_same]
  rfl

theorem State.set_view_other (state : State T) {id other : Nat} (different : other ≠ id)
    (operation : Operation T) : (state.set id operation).view other = state.view other := by
  unfold view
  rw [set_other state different]

theorem Operation.wake_request (operation : Operation T) :
    operation.wake.request = operation.request := by
  unfold wake
  split <;> rfl

theorem Operation.wake_report (operation : Operation T) :
    operation.wake.report = operation.report := by
  unfold wake
  split <;> rfl

theorem State.wake_view (state : State T) (woken : List Nat) :
    (state.wake woken).view = state.view := by
  funext id
  unfold view wake
  by_cases chosen : id ∈ woken
  · simp only [if_pos chosen, Option.map_map]
    congr 1
    funext operation
    exact Prod.ext operation.wake_request operation.wake_report
  · simp only [if_neg chosen]

/-- The callers are told of exactly the calls in the log, and the books balance. -/
structure Inv (initialCount maxCount : UInt32) (state : State T) : Prop where
  known : ∀ id, state.view id ≠ none → id ∈ state.known
  unreported : ∀ id operation, state.operations id = some operation →
    operation.phase ≠ .finished → operation.report = none
  logged : ∀ transfer ∈ state.transfers,
    state.view transfer.id = some (transfer.request, some (.value transfer.reply))
  reported : ∀ id request reply, state.view id = some (request, some (.value reply)) →
    { id := id
      request := request
      reply := reply } ∈ state.transfers
  once : (state.transfers.map fun transfer => transfer.id).Nodup
  balance : Balance initialCount maxCount state.transfers state.store

theorem Inv.initial [Inhabited T] (maxSize : Nat) (initialCount maxCount : UInt32) :
    Inv initialCount maxCount (State.initial maxSize initialCount maxCount : State T) :=
  { known := by
      intro id exists_
      exact absurd rfl exists_
    unreported := by
      intro id operation found
      cases found
    logged := by
      intro transfer member
      cases member
    reported := by
      intro id request reply seen
      cases seen
    once := List.nodup_nil
    balance :=
      { elements := ⟨.ofCapacity maxSize, RingQueue.Represents.setMaxSize maxSize, rfl⟩
        permits := rfl
        maximum := rfl
        bounded := by
          intro within
          exact ⟨within, rfl⟩ } }

/-! ### Steps that do no work -/

theorem Inv.change {initialCount maxCount : UInt32} {state : State T}
    (inv : Inv initialCount maxCount state) {id : Nat} {moved : Operation T}
    (member : id ∈ state.known)
    (untold : ∀ request reply, state.view id ≠ some (request, some (.value reply)))
    (unfinished : moved.phase ≠ .finished → moved.report = none)
    (untelling : ∀ reply, moved.report ≠ some (.value reply)) :
    Inv initialCount maxCount (state.set id moved) := by
  constructor
  case known =>
    intro other exists_
    by_cases same : other = id
    · rw [same]
      exact member
    · rw [State.set_view_other state same] at exists_
      exact inv.known other exists_
  case unreported =>
    intro other probe at_ running
    rcases State.set_cases at_ with ⟨rfl, rfl⟩ | ⟨_, before⟩
    · exact unfinished running
    · exact inv.unreported other probe before running
  case logged =>
    intro transfer logged
    have told := inv.logged transfer logged
    have different : transfer.id ≠ id := by
      intro same
      rw [same] at told
      exact untold _ _ told
    rw [State.set_view_other state different]
    exact told
  case reported =>
    intro other request reply at_
    by_cases same : other = id
    · subst same
      rw [State.set_view_same] at at_
      have told := congrArg Prod.snd (Option.some.inj at_)
      exact absurd told (untelling reply)
    · rw [State.set_view_other state same] at at_
      exact inv.reported other request reply at_
  case once => exact inv.once
  case balance => exact inv.balance

theorem Inv.known_of_found {initialCount maxCount : UInt32} {state : State T}
    (inv : Inv initialCount maxCount state) {id : Nat} {operation : Operation T}
    (found : state.operations id = some operation) : id ∈ state.known := by
  apply inv.known
  rw [State.view_of_found found]
  nofun

theorem State.untold {state : State T} {id : Nat} {operation : Operation T}
    (found : state.operations id = some operation) (silent : operation.report = none)
    (request : Request T) (reply : Returned T) :
    state.view id ≠ some (request, some (.value reply)) := by
  rw [view_of_found found, silent]
  simp

theorem Inv.move {initialCount maxCount : UInt32} {state : State T}
    (inv : Inv initialCount maxCount state) {id : Nat} {operation moved : Operation T}
    (found : state.operations id = some operation) (silent : operation.report = none)
    (still : moved.report = operation.report) :
    Inv initialCount maxCount (state.set id moved) := by
  rw [silent] at still
  apply inv.change (inv.known_of_found found) (State.untold found silent)
  · intro unfinished
    exact still
  · intro reply
    rw [still]
    nofun

theorem Inv.wake {initialCount maxCount : UInt32} {state : State T}
    (inv : Inv initialCount maxCount state) (woken : List Nat) :
    Inv initialCount maxCount (state.wake woken) := by
  constructor
  case known =>
    rw [State.wake_view]
    exact inv.known
  case unreported =>
    intro id operation found unfinished
    change (if id ∈ woken then (state.operations id).map Operation.wake
      else state.operations id) = some operation at found
    by_cases chosen : id ∈ woken
    · rw [if_pos chosen] at found
      obtain ⟨before, there, rfl⟩ := Option.map_eq_some_iff.1 found
      rw [Operation.wake_report]
      apply inv.unreported id before there
      intro finished
      unfold Operation.wake at unfinished
      simp [finished] at unfinished
    · rw [if_neg chosen] at found
      exact inv.unreported id operation found unfinished
  case logged =>
    rw [State.wake_view]
    exact inv.logged
  case reported =>
    rw [State.wake_view]
    exact inv.reported
  case once => exact inv.once
  case balance => exact inv.balance

/-! ### The work of a call -/

theorem Inv.finish [Inhabited T] {movedFrom : T → T} {initialCount maxCount : UInt32}
    {state : State T} (inv : Inv initialCount maxCount state) {id : Nat} {operation : Operation T}
    (seen : state.view id = some (operation.request, none)) {next : Store T} {reply : Returned T}
    (done : operation.request.attempt movedFrom state.store = some (next, reply)) :
    Inv initialCount maxCount
      ((state.record next
          { id := id
            request := operation.request
            reply := reply }).set id
        { operation with
          phase := .finished
          report := some (.value reply) }) := by
  have fresh : ∀ transfer ∈ state.transfers, transfer.id ≠ id := by
    intro transfer member same
    have known := inv.logged transfer member
    rw [same, seen] at known
    simp at known
  constructor
  case known =>
    intro other exists_
    by_cases same : other = id
    · subst same
      exact inv.known other (by rw [seen]; nofun)
    · rw [State.set_view_other _ same] at exists_
      exact inv.known other exists_
  case unreported =>
    intro other probe at_ unfinished
    rcases State.set_cases at_ with ⟨rfl, rfl⟩ | ⟨_, before⟩
    · exact absurd rfl unfinished
    · exact inv.unreported other probe before unfinished
  case logged =>
    intro transfer member
    rcases List.mem_append.1 member with old | new
    · rw [State.set_view_other _ (fresh transfer old)]
      exact inv.logged transfer old
    · rw [List.mem_singleton] at new
      subst new
      exact State.set_view_same ..
  case reported =>
    intro other request given at_
    by_cases same : other = id
    · subst same
      rw [State.set_view_same] at at_
      cases at_
      exact List.mem_append_right _ (List.mem_singleton_self _)
    · rw [State.set_view_other _ same] at at_
      exact List.mem_append_left _ (inv.reported other request given at_)
  case once =>
    change ((state.transfers ++ [_]).map _).Nodup
    rw [List.map_append, List.map_singleton, ← List.concat_eq_append, List.nodup_concat]
    constructor
    · intro member
      rcases List.mem_map.1 member with ⟨transfer, old, same⟩
      exact fresh transfer old same
    · exact inv.once
  case balance => exact inv.balance.attempt done id

theorem Inv.attempt [Inhabited T] {movedFrom : T → T} {initialCount maxCount : UInt32}
    {state : State T} (inv : Inv initialCount maxCount state) {id : Nat} {operation : Operation T}
    (found : state.operations id = some operation) (silent : operation.report = none)
    (inTime : operation.timedOut = true →
      operation.request.attempt movedFrom state.store = none)
    (woken : List Nat) :
    Inv initialCount maxCount (state.attempt movedFrom id operation woken) := by
  unfold State.attempt
  cases done : operation.request.attempt movedFrom state.store with
  | none => exact inv.move found silent rfl
  | some result =>
      rcases result with ⟨next, reply⟩
      have waiting : operation.timedOut = false := by
        by_contra late
        rw [inTime (by simpa using late)] at done
        cases done
      have seen : (state.wake woken).view id = some (operation.request, none) := by
        rw [State.wake_view, State.view_of_found found, silent]
      have told : State.outcome operation (.value reply) = .value reply := by
        unfold State.outcome
        rw [waiting]
        rfl
      simp only [told]
      exact (inv.wake woken).finish seen done

theorem Inv.enter {initialCount maxCount : UInt32} {state : State T}
    (inv : Inv initialCount maxCount state) {id : Nat} (fresh : id ∉ state.known)
    {operation : Operation T} (silent : operation.report = none) :
    Inv initialCount maxCount ({ state with known := id :: state.known }.set id operation) := by
  have unseen : state.view id = none := by
    by_contra seen
    exact fresh (inv.known id seen)
  have remembered : Inv initialCount maxCount { state with known := id :: state.known } :=
    { inv with
      known := by
        intro other exists_
        exact List.mem_cons_of_mem _ (inv.known other exists_) }
  apply remembered.change List.mem_cons_self
  · intro request reply seen
    change state.view id = _ at seen
    rw [unseen] at seen
    cases seen
  · intro unfinished
    exact silent
  · intro reply
    rw [silent]
    nofun

/-! ### The steps of a call -/

theorem Inv.resume [Inhabited T] {movedFrom : T → T} {initialCount maxCount : UInt32}
    {state : State T} (inv : Inv initialCount maxCount state) {id : Nat} {operation : Operation T}
    (found : state.operations id = some operation) (inTime : ¬TooLate movedFrom state operation)
    (woken : List Nat) :
    Inv initialCount maxCount (state.resume movedFrom id operation woken) := by
  unfold State.resume
  cases phase : operation.phase with
  | running | waiting _ _ _ | finished => exact inv
  | posted old completion =>
      have silent := inv.unreported id operation found (by simp [phase])
      cases completion with
      | canceled =>
          simp only
          apply inv.change (inv.known_of_found found) (State.untold found silent)
          · intro unfinished
            exact absurd rfl unfinished
          · intro reply
            unfold State.outcome
            split <;> simp
      | woken =>
          simp only
          by_cases spurious : state.Spurious operation.request old
          · rw [if_pos spurious]
            exact inv.move found silent rfl
          · rw [if_neg spurious]
            apply inv.attempt found silent
            intro late
            by_contra possible
            apply inTime
            refine ⟨late, ?_⟩
            unfold Works
            rw [phase]
            exact ⟨spurious, by simpa [Option.isSome_iff_ne_none] using possible⟩

theorem Inv.start [Inhabited T] {movedFrom : T → T} {initialCount maxCount : UInt32}
    {state : State T} (inv : Inv initialCount maxCount state) {id : Nat} (fresh : id ∉ state.known)
    (request : Request T) (timed : Bool) (woken : List Nat) :
    Inv initialCount maxCount (state.start movedFrom id request timed woken) := by
  unfold State.start
  apply (inv.enter fresh rfl).attempt (State.set_same ..) rfl
  intro late
  cases late

theorem Inv.arrive {initialCount maxCount : UInt32} {state : State T}
    (inv : Inv initialCount maxCount state) {id : Nat} {operation : Operation T}
    (found : state.operations id = some operation) :
    Inv initialCount maxCount (state.arrive id operation) := by
  unfold State.arrive
  cases phase : operation.phase with
  | running | posted _ _ | finished => exact inv
  | waiting old arrived guarded =>
      have silent := inv.unreported id operation found (by simp [phase])
      simp only
      split
      · exact inv.move found silent rfl
      · exact inv.move found silent rfl

theorem Inv.cancelArrive {initialCount maxCount : UInt32} {state : State T}
    (inv : Inv initialCount maxCount state) {id : Nat} {operation : Operation T}
    (found : state.operations id = some operation) :
    Inv initialCount maxCount (state.cancelArrive id operation) := by
  unfold State.cancelArrive
  cases phase : operation.phase with
  | running | posted _ _ | finished => exact inv
  | waiting old arrived guarded =>
      have silent := inv.unreported id operation found (by simp [phase])
      cases guarded with
      | false => exact inv
      | true => exact inv.move found silent rfl

/-! ### Steps and runs -/

theorem Inv.step [Inhabited T] {movedFrom : T → T} {initialCount maxCount : UInt32}
    {state : State T} {action : Action T} (inv : Inv initialCount maxCount state)
    (enabled : Enabled state action) (inTime : NoLateTransfer movedFrom state action) :
    Inv initialCount maxCount (next movedFrom state action) := by
  cases action with
  | start id request timed woken => exact inv.start enabled.1 request timed woken
  | arrive id =>
      rcases found_of_enabled enabled nofun with ⟨operation, found, ready⟩
      change state.operations id = _ at found
      simp only [next, found, Option.elim_some]
      exact inv.arrive found
  | resume id woken =>
      rcases found_of_enabled enabled nofun with ⟨operation, found, ready⟩
      change state.operations id = _ at found
      simp only [next, found, Option.elim_some]
      exact inv.resume found (inTime operation found) woken
  | expire id =>
      rcases found_of_enabled enabled nofun with ⟨operation, found, isTimed, isWaiting, unfinished⟩
      change state.operations id = _ at found
      simp only [next, found, Option.elim_some]
      exact inv.move found (inv.unreported id operation found unfinished) rfl
  | cancelArrive id =>
      rcases found_of_enabled enabled nofun with ⟨operation, found, ready⟩
      change state.operations id = _ at found
      simp only [next, found, Option.elim_some]
      exact inv.cancelArrive found

/-- What co_timeout is for: who is told of a timeout has taken and left nothing, every
other call is told what it did, and elements and permits are conserved. -/
structure Honest (initialCount maxCount : UInt32) (state : State T) : Prop where
  timeouts : ∀ id operation, state.operations id = some operation →
    operation.report = some .streamTimeout →
    ∀ transfer ∈ state.transfers, transfer.id ≠ id
  replies : ∀ id operation reply, state.operations id = some operation →
    (operation.report = some (.value reply) ↔
      { id := id
        request := operation.request
        reply := reply } ∈ state.transfers)
  once : (state.transfers.map fun transfer => transfer.id).Nodup
  conserved : Balance initialCount maxCount state.transfers state.store

theorem Inv.honest {initialCount maxCount : UInt32} {state : State T}
    (inv : Inv initialCount maxCount state) : Honest initialCount maxCount state := by
  constructor
  case timeouts =>
    intro id operation found timeout transfer member same
    have told := inv.logged transfer member
    rw [same, State.view_of_found found, timeout] at told
    simp at told
  case replies =>
    intro id operation reply found
    constructor
    · intro told
      exact inv.reported id operation.request reply (by rw [State.view_of_found found, told])
    · intro member
      have told := inv.logged _ member
      rw [State.view_of_found found] at told
      exact congrArg Prod.snd (Option.some.inj told)
  case once => exact inv.once
  case conserved => exact inv.balance

/-- Timed and untimed calls of any number, in any order of the events. -/
theorem timeouts_take_nothing [Inhabited T] (movedFrom : T → T) (maxSize : Nat)
    (initialCount maxCount : UInt32) (actions : List (Action T))
    (runs : (machine movedFrom maxSize initialCount maxCount).Runs
      (.initial maxSize initialCount maxCount) actions)
    (inTime : (machine movedFrom maxSize initialCount maxCount).Along (NoLateTransfer movedFrom)
      (.initial maxSize initialCount maxCount) actions) :
    Honest initialCount maxCount
      ((machine movedFrom maxSize initialCount maxCount).after
        (.initial maxSize initialCount maxCount) actions) := by
  have start : Inv initialCount maxCount (State.initial maxSize initialCount maxCount : State T) :=
    Inv.initial maxSize initialCount maxCount
  have keeps : ∀ (state : State T) action, Inv initialCount maxCount state →
      Enabled state action → NoLateTransfer movedFrom state action →
      Inv initialCount maxCount (next movedFrom state action) := by
    intro state action inv enabled inTime
    exact inv.step enabled inTime
  exact (Machine.invariant_along (Inv initialCount maxCount) keeps start runs inTime).honest

/-- A pop whose timer wins is cancelled while it waits; the element pushed later stays. -/
theorem timeouts_take_nothing_cancelled :
    Honest 1 1
      ((machine id 4 1 1).after (.initial 4 1 1)
        ([.start 0 .pop true [], .arrive 0, .expire 0, .cancelArrive 0, .resume 0 [],
          .start 1 (.push 7) true [], .start 2 .acquire true []] : List (Action Nat))) :=
  timeouts_take_nothing id 4 1 1 _ (by decide) (by decide)

/-- The push wakes the pop, the timer is handled before the pop is resumed: the pop takes
the element and its caller is told of a timeout. -/
theorem late_pop_takes_element :
    ¬∀ actions : List (Action Nat), (machine id 4 0 0).Runs (.initial 4 0 0) actions →
      ∀ name operation, ((machine id 4 0 0).after (.initial 4 0 0) actions).operations name =
          some operation →
        operation.report = some .streamTimeout →
        ∀ transfer ∈ ((machine id 4 0 0).after (.initial 4 0 0) actions).transfers,
          transfer.id ≠ name := by
  intro claimed
  have reached := claimed
    [.start 0 .pop true [], .arrive 0, .start 1 (.push 7) false [0], .expire 0,
      .resume 0 []] (by decide) 0 _ rfl rfl
    { id := 0
      request := .pop
      reply := .popped 7 } (by decide)
  exact reached rfl

end MCoro.TimedOperations
