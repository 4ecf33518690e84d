/-
The calls of rawRun and run come to their end.

As long as a call has not returned, some step of a call or of the pool can be taken; and
each such step takes from a potential that only a new call raises. So in runs on a kernel
with the futex calls nothing but new calls keeps the others from their returns, provided
that their functions end.
-/

import MCoro.Generic.ThreadPoolCallRuns
import MCoro.Library.Population

namespace MCoro.RawRun

open FutexNotify (FutexKernel)

variable {Job Token Value Exception : Type} [DecidableEq Job] {setting : Setting Job Token}
  {state : State Job Token Value Exception}

/-! ### Some step can be taken -/

/-- A step of a call or of the pool can be taken. -/
def Moves (state : State Job Token Value Exception) : Prop :=
  ∃ action : Action Job Token Value Exception, ¬action.External ∧ Enabled state action

theorem Inv.moves_submitting (inv : Inv setting state) {job : Job}
    (submitting : (state.call job).place = .submitting) : Moves state := by
  cases submission : state.pool.call job with
  | outside => exact ⟨.pool (.submit job), id, submitting, submission⟩
  | emplacing => exact ⟨.pool (.emplace job), id, submitting, submission⟩
  | assigning thread =>
      obtain ⟨⟨_, waiting | freed⟩, _⟩ := inv.pool.assigned job thread submission
      · have unlocked : ¬(state.pool.thread thread).Locked := by
          unfold ThreadPool.Thread.Locked
          rw [waiting]
          exact id
        exact ⟨.pool (.workOn job thread), id, submitting, submission, unlocked⟩
      · exact ⟨.pool (.unlock thread), id, trivial, freed⟩
  | registering thread => exact ⟨.pool (.register job thread), id, submitting, submission⟩
  | returned thread =>
      refine ⟨.submitted job, id, submitting, ?_⟩
      rw [submission]
      trivial

theorem Inv.moves_running (inv : Inv setting state) {job : Job}
    (running : state.running = some job) : Moves state := by
  have runs := (inv.running job).1 running
  cases place : (state.call job).place with
  | submitting => exact inv.moves_submitting place
  | checking => exact ⟨.check job, id, place⟩
  | outside | waiting _ | returned _ =>
      rw [place] at runs
      cases runs

theorem Inv.moves_lambda [Inhabited Value] (inv : Inv setting state) {job : Job}
    (submitted : Submitted (state.pool.call job)) (unended : (state.call job).lambda ≠ .ended) :
    Moves state := by
  cases lambda : (state.call job).lambda with
  | uncalled =>
      have fresh := (inv.lambda job).uncalled_iff.1 lambda
      have handed : (state.pool.call job).Handed := by
        cases submission : state.pool.call job with
        | returned thread => trivial
        | outside | emplacing | assigning _ | registering _ =>
            rw [submission] at submitted
            cases submitted
      obtain ⟨thread, held⟩ := ((inv.pool.placed job).1 handed).resolve_left fresh
      have waits := inv.pool.waits thread job held
      exact ⟨.pool (.take thread job), id, trivial, waits, held⟩
  | calling => exact ⟨.funcReturns job default, id, lambda⟩
  | caught exception => exact ⟨.handle job exception, id, lambda⟩
  | storing => exact ⟨.store job, id, lambda⟩
  | notifying => exact ⟨.notify job, id, lambda⟩
  | ended => exact absurd lambda unended

theorem Inv.moves [Inhabited Value] (inv : Inv setting state)
    (documented : setting.kernel.Documented) {job : Job}
    (started : (state.call job).place ≠ .outside)
    (inside : ∀ outcome, (state.call job).place ≠ .returned outcome) : Moves state := by
  cases place : (state.call job).place with
  | outside => exact absurd place started
  | returned outcome => exact absurd place (inside outcome)
  | submitting => exact inv.moves_submitting place
  | checking => exact ⟨.check job, id, place⟩
  | waiting wait =>
      obtain ⟨submitted, fits⟩ := inv.waiting place
      cases wait with
      | idle => cases fits
      | queued expected mask =>
          refine ⟨.compare job, id, ?_⟩
          change (state.call job).place.IsQueued
          rw [place]
          trivial
      | asleep mask => exact inv.moves_lambda submitted (fits.2.2 documented)
      | returned result =>
          cases running : state.running with
          | some other => exact inv.moves_running running
          | none =>
              refine ⟨.resume job, id, running, ?_⟩
              rw [place]
              trivial

/-! ### The potential -/

/-- The wait of a coroutine weighs less the nearer its end is, and a cancelled one more than
the check that comes after it. -/
def Place.weight (ready : UInt32) : Place Value Exception → Nat
  | .outside | .returned _ | .waiting .idle => 0
  | .submitting => 8
  | .checking => if ready = 0 then 6 else 2
  | .waiting (.queued _ _) => 5
  | .waiting (.asleep _) => 4
  | .waiting (.returned .canceled) => 7
  | .waiting (.returned _) => 3

def Lambda.weight : Lambda Exception → Nat
  | .uncalled => 10
  | .calling => 4
  | .caught _ => 3
  | .storing => 2
  | .notifying => 1
  | .ended => 0

def submissionWeight : ThreadPool.Call → Nat
  | .outside => 4
  | .emplacing => 3
  | .assigning _ => 2
  | .registering _ => 1
  | .returned _ => 0

def threadWeight (thread : ThreadPool.Thread Job) : Nat :=
  match thread.place with
  | .waiting => 0
  | .running _ => 5
  | .ended _ => 4
  | .reset _ => 3
  | .removed => 2
  | .freed => 1

namespace Call

/-- What is left to do for a call, where `spare` weighs the cancellation that its wait has
still to expect. -/
def burden (submission : ThreadPool.Call) (spare : Nat) (call : Call Value Exception) : Nat :=
  match call.place with
  | .outside => 0
  | place =>
      place.weight call.ready + submissionWeight submission + call.lambda.weight +
        (if call.canceling then 5 else 0) + spare

variable {call : Call Value Exception} {submission : ThreadPool.Call} {spare : Nat}

theorem burden_eq (started : call.place ≠ .outside) :
    call.burden submission spare =
      call.place.weight call.ready + submissionWeight submission + call.lambda.weight +
        (if call.canceling then 5 else 0) + spare := by
  unfold burden
  cases place : call.place with
  | outside => exact absurd place started
  | submitting | checking | waiting _ | returned _ => rfl

theorem burden_outside (outside : call.place = .outside) : call.burden submission spare = 0 := by
  unfold burden
  rw [outside]

end Call

/-- The cancellation of the token that the futex_wait of a call looks at. -/
def spare (setting : Setting Job Token) (mCanceled : Token → Bool) (job : Job) : Nat :=
  match setting.coCancel job with
  | none => 0
  | some token => if mCanceled token then 0 else 5

def State.burden (setting : Setting Job Token) (state : State Job Token Value Exception)
    (job : Job) : Nat :=
  (state.call job).burden (state.pool.call job) (spare setting state.mCanceled job)

def State.potential (setting : Setting Job Token) (state : State Job Token Value Exception) :
    Nat :=
  Population.total id state.calls (state.burden setting) +
    Population.total threadWeight (List.range state.pool.mThreads) state.pool.thread

/-! ### The steps of one call -/

theorem Inv.potential_set (inv : Inv setting state) {job : Job} (call : Call Value Exception)
    (running : Option Job)
    (less : call.burden (state.pool.call job) (spare setting state.mCanceled job) <
      state.burden setting job) :
    State.potential setting { state.set job call with running } < state.potential setting := by
  have started : job ∈ state.calls := by
    rw [inv.listed job]
    intro outside
    unfold State.burden at less
    rw [Call.burden_outside outside] at less
    exact Nat.not_lt_zero _ less
  have own : State.burden setting { state.set job call with running } job =
      call.burden (state.pool.call job) (spare setting state.mCanceled job) := by
    unfold State.burden
    change (Function.update state.call job call job).burden (state.pool.call job)
      (spare setting state.mCanceled job) = _
    rw [Function.update_self]
  have others : ∀ other, other ≠ job →
      State.burden setting { state.set job call with running } other =
        state.burden setting other := by
    intro other different
    unfold State.burden
    change (Function.update state.call job call other).burden (state.pool.call other)
      (spare setting state.mCanceled other) = _
    rw [Function.update_of_ne different]
  apply Nat.add_lt_add_right
  refine Population.total_lt ?_ started ?_
  · intro other _
    by_cases same : other = job
    · rw [same, own]
      exact Nat.le_of_lt less
    · exact Nat.le_of_eq (others other same)
  · rw [own]
    exact less

theorem Inv.potential_call (inv : Inv setting state) {job : Job} (call : Call Value Exception)
    (running : Option Job) (before : (state.call job).place ≠ .outside)
    (after : call.place ≠ .outside)
    (less : call.place.weight call.ready + call.lambda.weight +
        (if call.canceling then 5 else 0) <
      (state.call job).place.weight (state.call job).ready + (state.call job).lambda.weight +
        (if (state.call job).canceling then 5 else 0)) :
    State.potential setting { state.set job call with running } < state.potential setting := by
  apply inv.potential_set
  unfold State.burden
  rw [Call.burden_eq before, Call.burden_eq after]
  omega

theorem weight_ready (place : Place Value Exception) (ready : UInt32) :
    place.weight 1 ≤ place.weight ready := by
  cases place with
  | checking =>
      change 2 ≤ if ready = 0 then 6 else 2
      split <;> omega
  | waiting wait =>
      cases wait with
      | returned result => cases result <;> exact Nat.le_refl _
      | idle | queued _ _ | asleep _ => exact Nat.le_refl _
  | outside | submitting | returned _ => exact Nat.le_refl _

theorem Place.weight_checking (ready : UInt32) :
    (Place.checking : Place Value Exception).weight ready ≤ 6 := by
  change (if ready = 0 then 6 else 2) ≤ 6
  split <;> omega

theorem Inv.potential_place (inv : Inv setting state) {job : Job}
    (place : Place Value Exception) (running : Option Job) (inside : place ≠ .outside)
    (less : place.weight (state.call job).ready <
      (state.call job).place.weight (state.call job).ready) :
    State.potential setting { state.set job { state.call job with place } with running } <
      state.potential setting := by
  have before : (state.call job).place ≠ .outside := by
    intro outside
    rw [outside] at less
    exact Nat.not_lt_zero _ less
  exact inv.potential_call { state.call job with place } running before inside
    (Nat.add_lt_add_right (Nat.add_lt_add_right less _) _)

theorem Inv.potential_submitted (inv : Inv setting state) {job : Job}
    (submitting : (state.call job).place = .submitting) :
    (state.set job { state.call job with place := .checking }).potential setting <
      state.potential setting := by
  refine inv.potential_place .checking state.running nofun ?_
  rw [submitting]
  have light : (Place.checking : Place Value Exception).weight (state.call job).ready ≤ 6 :=
    Place.weight_checking _
  change _ < 8
  omega

theorem Inv.potential_check (inv : Inv setting state) {job : Job}
    (checking : (state.call job).place = .checking) :
    (state.check (setting.form job) job).potential setting < state.potential setting := by
  unfold State.check Call.check
  by_cases zero : (state.call job).ready = 0
  · rw [if_pos zero]
    refine inv.potential_place (.waiting (.queued 0 Futex.matchAny)) none nofun ?_
    rw [checking, zero]
    change 5 < 6
    decide
  · rw [if_neg zero]
    refine inv.potential_place (.returned ((state.call job).outcome (setting.form job))) none
      nofun ?_
    rw [checking]
    change 0 < if (state.call job).ready = 0 then 6 else 2
    rw [if_neg zero]
    decide

theorem Inv.potential_compare (inv : Inv setting state) {job : Job}
    (queued : (state.call job).place.IsQueued) :
    (state.compare setting.supported job).potential setting < state.potential setting := by
  unfold State.compare
  cases waits : (state.call job).place with
  | outside | submitting | checking | returned _ =>
      rw [waits] at queued
      cases queued
  | waiting wait =>
      rw [waits] at queued
      cases wait with
      | idle | asleep _ | returned _ => cases queued
      | queued expected mask =>
          refine inv.potential_place (.waiting _) state.running nofun ?_
          rw [waits]
          change _ < 5
          cases setting.supported with
          | false => exact (by decide : 3 < 5)
          | true =>
              rw [if_pos rfl]
              rcases Futex.Wait.compare_cases (state.call job).ready expected mask with
                invalid | ⟨_, asleep⟩ | ⟨_, again⟩
              · rw [invalid]
                exact (by decide : 3 < 5)
              · rw [asleep]
                exact (by decide : 4 < 5)
              · rw [again]
                exact (by decide : 3 < 5)

theorem Inv.potential_cancelWait (inv : Inv setting state) {job : Job}
    (canceling : (state.call job).canceling = true) :
    (state.set job (state.call job).cancelWait).potential setting < state.potential setting := by
  have before := (inv.listed job).1 (inv.canceling job canceling).1
  rcases (state.call job).cancelWait_cases with ⟨wait, waits, unfinished, ended⟩ | missed
  · rw [ended]
    refine inv.potential_call
      { state.call job with place := .waiting (.returned .canceled), canceling := false }
      state.running before nofun ?_
    have heavy : 4 ≤ (Place.waiting wait : Place Value Exception).weight
        (state.call job).ready := by
      cases wait with
      | queued _ _ => exact (by decide : 4 ≤ 5)
      | asleep _ => exact Nat.le_refl 4
      | idle | returned _ => rcases unfinished with queued | asleep <;> contradiction
    rw [waits, canceling]
    change 7 + (state.call job).lambda.weight + 0 < _ + (state.call job).lambda.weight + 5
    omega
  · rw [missed]
    refine inv.potential_call { state.call job with canceling := false } state.running before
      before ?_
    rw [canceling]
    exact Nat.add_lt_add_left (by decide : 0 < 5) _

/-- On a kernel with the futex calls a wait has ended because `ready` is set, or else it was
cancelled. -/
theorem Inv.potential_resume (inv : Inv setting state) (supported : setting.supported = true)
    {job : Job} (posted : (state.call job).place.IsPosted) :
    (state.resume job).potential setting < state.potential setting := by
  refine inv.potential_place .checking (some job) nofun ?_
  cases waits : (state.call job).place with
  | outside | submitting | checking | returned _ =>
      rw [waits] at posted
      cases posted
  | waiting wait =>
      rw [waits] at posted
      have fits := (inv.waiting waits).2
      cases wait with
      | idle | asleep _ | queued _ _ => cases posted
      | returned result =>
          have light : (Place.checking : Place Value Exception).weight (state.call job).ready ≤ 6 :=
            Place.weight_checking _
          rcases fits with rfl | unsupported | stored
          · change _ < 7
            omega
          · rw [supported] at unsupported
            cases unsupported
          · have set_ : (state.call job).ready ≠ 0 := by
              intro zero
              exact (inv.lambda job).ready_eq_zero.1 zero stored
            have two : (Place.checking : Place Value Exception).weight (state.call job).ready = 2 :=
              if_neg set_
            rw [two]
            cases result with
            | canceled => exact (by decide : 2 < 7)
            | woken | again | invalid => exact (by decide : 2 < 3)

/-! ### The steps of the lambda -/

theorem Inv.potential_lambda (inv : Inv setting state) {job : Job} (call : Call Value Exception)
    (called : (state.call job).lambda ≠ .uncalled)
    (place : call.place = (state.call job).place)
    (light : call.place.weight call.ready ≤ (state.call job).place.weight (state.call job).ready)
    (canceling : call.canceling = (state.call job).canceling)
    (less : call.lambda.weight < (state.call job).lambda.weight) :
    (state.set job call).potential setting < state.potential setting := by
  have before := inv.started_of_lambda called
  have after : call.place ≠ .outside := by
    rw [place]
    exact before
  refine inv.potential_call call state.running before after ?_
  rw [canceling]
  omega

theorem Inv.potential_funcReturns (inv : Inv setting state) {job : Job}
    (calling : (state.call job).lambda = .calling) (value : Value) :
    (state.set job ((state.call job).funcReturns (setting.form job) value)).potential setting <
      state.potential setting := by
  refine inv.potential_lambda _ ?_ rfl (Nat.le_refl _) rfl ?_
  · rw [calling]
    nofun
  · rw [calling]
    exact (by decide : 2 < 4)

theorem Inv.potential_funcThrows (inv : Inv setting state) {job : Job}
    (calling : (state.call job).lambda = .calling) (exception : Exception) :
    (state.set job { state.call job with lambda := .caught exception }).potential setting <
      state.potential setting := by
  refine inv.potential_lambda { state.call job with lambda := .caught exception } ?_ rfl
    (Nat.le_refl _) rfl ?_
  · rw [calling]
    nofun
  · rw [calling]
    exact (by decide : 3 < 4)

theorem Inv.potential_handle (inv : Inv setting state) {job : Job} {exception : Exception}
    (caught : (state.call job).lambda = .caught exception) :
    (state.set job ((state.call job).handle exception)).potential setting <
      state.potential setting := by
  refine inv.potential_lambda _ ?_ rfl (Nat.le_refl _) rfl ?_
  · rw [caught]
    nofun
  · rw [caught]
    exact (by decide : 2 < 3)

theorem Inv.potential_store (inv : Inv setting state) {job : Job}
    (storing : (state.call job).lambda = .storing) :
    (state.set job (state.call job).store).potential setting < state.potential setting := by
  refine inv.potential_lambda _ ?_ rfl (weight_ready _ _) rfl ?_
  · rw [storing]
    nofun
  · rw [storing]
    exact (by decide : 1 < 2)

theorem Inv.potential_notify (inv : Inv setting state) {job : Job}
    (notifying : (state.call job).lambda = .notifying) :
    (state.set job ((state.call job).notify setting.kernel setting.supported job)).potential
      setting < state.potential setting := by
  have called : (state.call job).lambda ≠ .uncalled := by
    rw [notifying]
    nofun
  have before := inv.started_of_lambda called
  rcases (state.call job).notify_cases setting.kernel setting.supported job with
    ⟨⟨mask, asleep⟩, woken⟩ | ⟨kept, _⟩
  · rw [woken]
    refine inv.potential_call
      { state.call job with lambda := .ended, place := .waiting (.returned .woken) }
      state.running before nofun ?_
    rw [asleep, notifying]
    exact Nat.add_lt_add_right (by decide : 3 + 0 < 4 + 1) _
  · rw [kept]
    refine inv.potential_lambda { state.call job with lambda := .ended } called rfl
      (Nat.le_refl _) rfl ?_
    rw [notifying]
    exact Nat.zero_lt_one

/-! ### The steps of the pool -/

def threadsBurden (pool : ThreadPool.State Job) : Nat :=
  Population.total threadWeight (List.range pool.mThreads) pool.thread

omit [DecidableEq Job] in
theorem threadsBurden_set {pool : ThreadPool.State Job} {thread : Nat}
    (born : thread < pool.mThreads) (value : ThreadPool.Thread Job) :
    threadsBurden (pool.setThread thread value) + threadWeight (pool.thread thread) =
      threadsBurden pool + threadWeight value :=
  Population.total_update threadWeight pool.thread List.nodup_range (List.mem_range.2 born) value

theorem Inv.potential_submit (inv : Inv setting state) {job : Job}
    (submitting : (state.call job).place = .submitting) {pool : ThreadPool.State Job}
    (less : submissionWeight (pool.call job) < submissionWeight (state.pool.call job))
    (others : ∀ other, other ≠ job → pool.call other = state.pool.call other)
    (threads : threadsBurden pool ≤ threadsBurden state.pool) :
    State.potential setting { state with pool } < state.potential setting := by
  have started : (state.call job).place ≠ .outside := by
    rw [submitting]
    nofun
  have own : State.burden setting { state with pool } job < state.burden setting job := by
    unfold State.burden
    rw [Call.burden_eq started, Call.burden_eq started]
    change _ + submissionWeight (pool.call job) + _ + _ + spare setting state.mCanceled job <
      _ + submissionWeight (state.pool.call job) + _ + _ + _
    omega
  refine Nat.add_lt_add_of_lt_of_le (Population.total_lt ?_ ((inv.listed job).2 started) own)
    threads
  intro other _
  by_cases same : other = job
  · rw [same]
    exact Nat.le_of_lt own
  · unfold State.burden
    change (state.call other).burden (pool.call other) _ ≤ _
    rw [others other same]
    exact Nat.le_refl _

omit [DecidableEq Job] in
theorem potential_thread {thread : Nat} (born : thread < state.pool.mThreads)
    {value : ThreadPool.Thread Job} {pool : ThreadPool.State Job}
    (calls : pool.call = state.pool.call) (threads : pool.mThreads = state.pool.mThreads)
    (moved : pool.thread = Function.update state.pool.thread thread value)
    (less : threadWeight value < threadWeight (state.pool.thread thread)) :
    State.potential setting { state with pool } < state.potential setting := by
  have change_ : threadsBurden pool = threadsBurden (state.pool.setThread thread value) := by
    unfold threadsBurden
    rw [threads, moved]
    rfl
  have total := threadsBurden_set born value
  have same : State.burden setting { state with pool } = state.burden setting := by
    funext job
    unfold State.burden
    rw [calls]
  change Population.total id state.calls (State.burden setting { state with pool }) +
    threadsBurden pool < Population.total id state.calls (state.burden setting) +
      threadsBurden state.pool
  rw [same, change_]
  omega

/-- A thread takes the lambda of a call: the call loses more than the thread gains. -/
theorem Inv.potential_take (inv : Inv setting state) {thread : Nat} {task : Job}
    (enabled : ThreadPool.Enabled state.pool (.take thread task)) :
    (state.poolStep (.take thread task)).potential setting < state.potential setting := by
  let called : Call Value Exception := { state.call task with lambda := .calling }
  let burden := called.burden (state.pool.call task) (spare setting state.mCanceled task)
  have fresh := inv.pool.pending thread task enabled.2
  have uncalled := (inv.lambda task).uncalled_iff.2 fresh
  have started : (state.call task).place ≠ .outside := by
    intro outside
    have place := inv.place task
    unfold Call.PlaceFits at place
    rw [outside] at place
    have handed := (inv.pool.placed task).2 (.inr ⟨thread, enabled.2⟩)
    rw [show state.pool.call task = .outside from place] at handed
    exact handed
  have lighter : burden + 6 = state.burden setting task := by
    have after : burden = called.place.weight called.ready +
        submissionWeight (state.pool.call task) + 4 + (if called.canceling then 5 else 0) +
        spare setting state.mCanceled task := Call.burden_eq started
    have before : state.burden setting task = called.place.weight called.ready +
        submissionWeight (state.pool.call task) + (state.call task).lambda.weight +
        (if called.canceling then 5 else 0) + spare setting state.mCanceled task :=
      Call.burden_eq started
    rw [after, before, uncalled]
    change _ + 4 + _ + _ + 6 = _ + 10 + _ + _
    omega
  have burdens : (state.poolStep (.take thread task)).burden setting =
      Function.update (state.burden setting) task burden := by
    funext job
    unfold State.burden
    change (Function.update state.call task called job).burden (state.pool.call job)
      (spare setting state.mCanceled job) = _
    by_cases same : job = task
    · subst same
      rw [Function.update_self, Function.update_self]
    · rw [Function.update_of_ne same, Function.update_of_ne same]
  have born : thread < state.pool.mThreads := by
    apply inv.pool.born
    intro fresh
    have held := enabled.2
    rw [fresh] at held
    cases held
  have calls := Population.total_update id (state.burden setting) inv.distinct
    ((inv.listed task).2 started) burden
  have threads := threadsBurden_set born { mTask := none, place := .running task }
  have waits : threadWeight (state.pool.thread thread) = 0 := by
    unfold threadWeight
    rw [enabled.1]
  change Population.total id state.calls ((state.poolStep (.take thread task)).burden setting) +
    threadsBurden (state.pool.setThread thread { mTask := none, place := .running task }) <
      Population.total id state.calls (state.burden setting) + threadsBurden state.pool
  rw [burdens]
  change _ + state.burden setting task = _ + burden at calls
  change _ + _ = _ + 5 at threads
  omega

theorem Inv.potential_poolStep (inv : Inv setting state) {action : ThreadPool.Action Job}
    (may : PoolStep state action) (enabled : ThreadPool.Enabled state.pool action) :
    (state.poolStep action).potential setting < state.potential setting := by
  have born : ∀ thread, (state.pool.thread thread).place ≠ .waiting →
      thread < state.pool.mThreads := by
    intro thread busy
    apply inv.pool.born
    intro fresh
    rw [fresh] at busy
    exact busy rfl
  have others : ∀ (pool : ThreadPool.State Job) (job other : Job) (call : ThreadPool.Call),
      other ≠ job → (pool.setCall job call).call other = pool.call other :=
    fun _ _ _ _ different => Function.update_of_ne different ..
  have lighter : ∀ (pool : ThreadPool.State Job) (job : Job) (call : ThreadPool.Call),
      submissionWeight call < submissionWeight (state.pool.call job) →
      submissionWeight ((pool.setCall job call).call job) <
        submissionWeight (state.pool.call job) := by
    intro pool job call less
    have own : (pool.setCall job call).call job = call := Function.update_self ..
    rw [own]
    exact less
  cases action with
  | submit job =>
      have submission : state.pool.call job = .outside := enabled
      change State.potential setting { state with pool := state.pool.submit job } < _
      unfold ThreadPool.State.submit
      cases state.pool.mFreeThreads with
      | nil =>
          refine inv.potential_submit may (lighter state.pool job .emplacing ?_)
            (others state.pool job · .emplacing) (Nat.le_refl _)
          rw [submission]
          exact (by decide : 3 < 4)
      | cons thread rest =>
          let pool := { state.pool with mFreeThreads := rest }
          refine inv.potential_submit may (lighter pool job (.assigning thread) ?_)
            (others pool job · (.assigning thread)) (Nat.le_refl _)
          rw [submission]
          exact (by decide : 2 < 4)
  | emplace job =>
      have submission : state.pool.call job = .emplacing := enabled
      let pool := { state.pool with mThreads := state.pool.mThreads + 1 }.setThread
        state.pool.mThreads .fresh
      have threads : threadsBurden pool = threadsBurden state.pool := by
        change Population.total threadWeight (List.range (state.pool.mThreads + 1))
          (Function.update state.pool.thread state.pool.mThreads .fresh) = _
        rw [List.range_succ, Population.total_append, Population.total_cons, Function.update_self,
          Population.total_update_absent List.not_mem_range_self]
        rfl
      refine inv.potential_submit may (lighter pool job (.assigning state.pool.mThreads) ?_)
        (others pool job · (.assigning state.pool.mThreads)) (Nat.le_of_eq threads)
      rw [submission]
      exact (by decide : 2 < 3)
  | workOn job thread =>
      have submission : state.pool.call job = .assigning thread := enabled.1
      have inside : thread < state.pool.mThreads := by
        by_contra late
        exact (inv.pool.unborn thread (Nat.le_of_not_lt late)).2.2 job submission
      let pool := state.pool.setThread thread { state.pool.thread thread with mTask := some job }
      have moved := threadsBurden_set inside { state.pool.thread thread with mTask := some job }
      have threads : threadsBurden pool = threadsBurden state.pool := Nat.add_right_cancel moved
      refine inv.potential_submit may (lighter pool job (.registering thread) ?_)
        (others pool job · (.registering thread)) (Nat.le_of_eq threads)
      rw [submission]
      exact (by decide : 1 < 2)
  | register job thread =>
      have submission : state.pool.call job = .registering thread := enabled
      let pool := { state.pool with mWorkingThreads := state.pool.mWorkingThreads ++ [thread] }
      refine inv.potential_submit may (lighter pool job (.returned thread) ?_)
        (others pool job · (.returned thread)) (Nat.le_refl _)
      rw [submission]
      exact Nat.zero_lt_one
  | take thread task => exact inv.potential_take enabled
  | finish thread task =>
      have running : (state.pool.thread thread).place = .running task := enabled
      refine potential_thread (born thread (by rw [running]; nofun)) rfl rfl rfl ?_
      unfold threadWeight
      rw [running]
      exact (by decide : 4 < 5)
  | reset thread task =>
      have ended : (state.pool.thread thread).place = .ended task := enabled
      refine potential_thread (born thread (by rw [ended]; nofun)) rfl rfl rfl ?_
      unfold threadWeight
      rw [ended]
      exact (by decide : 3 < 4)
  | remove thread task =>
      have reset : (state.pool.thread thread).place = .reset task := enabled
      refine potential_thread (born thread (by rw [reset]; nofun)) rfl rfl rfl ?_
      unfold threadWeight
      rw [reset]
      exact (by decide : 2 < 3)
  | free thread =>
      have removed : (state.pool.thread thread).place = .removed := enabled
      refine potential_thread (born thread (by rw [removed]; nofun)) rfl rfl rfl ?_
      unfold threadWeight
      rw [removed]
      exact (by decide : 1 < 2)
  | unlock thread =>
      have freed : (state.pool.thread thread).place = .freed := enabled
      refine potential_thread (born thread (by rw [freed]; nofun)) rfl rfl rfl ?_
      unfold threadWeight
      rw [freed]
      exact Nat.zero_lt_one

/-! ### What comes from outside -/

omit [DecidableEq Job] in
theorem spare_le (setting : Setting Job Token) (mCanceled : Token → Bool) (job : Job) :
    spare setting mCanceled job ≤ 5 := by
  unfold spare
  cases setting.coCancel job with
  | none => exact Nat.zero_le _
  | some token =>
      change (if mCanceled token then 0 else 5) ≤ 5
      split <;> omega

theorem Inv.potential_start (inv : Inv setting state) {job : Job}
    (outside : (state.call job).place = .outside) :
    (state.start job).potential setting ≤ state.potential setting + 32 := by
  let call : Call Value Exception := { state.call job with place := .submitting }
  let burden := call.burden (state.pool.call job) (spare setting state.mCanceled job)
  have fresh : job ∉ state.calls := fun listed => (inv.listed job).1 listed outside
  have bounded : burden ≤ 32 := by
    have sum : burden = 8 + submissionWeight (state.pool.call job) + call.lambda.weight +
        (if call.canceling then 5 else 0) + spare setting state.mCanceled job :=
      Call.burden_eq nofun
    have submission : submissionWeight (state.pool.call job) ≤ 4 := by
      unfold submissionWeight
      split <;> omega
    have lambda : call.lambda.weight ≤ 10 := by
      unfold Lambda.weight
      split <;> omega
    have alarm : (if call.canceling then 5 else 0) ≤ 5 := by
      split <;> omega
    have most := spare_le setting state.mCanceled job
    omega
  have burdens : (state.start job).burden setting =
      Function.update (state.burden setting) job burden := by
    funext other
    unfold State.burden
    change (Function.update state.call job call other).burden (state.pool.call other)
      (spare setting state.mCanceled other) = _
    by_cases same : other = job
    · subst same
      rw [Function.update_self, Function.update_self]
    · rw [Function.update_of_ne same, Function.update_of_ne same]
  have entered := Population.total_enter id (state.burden setting) fresh burden
  change Population.total id (job :: state.calls) ((state.start job).burden setting) +
    threadsBurden state.pool ≤
      Population.total id state.calls (state.burden setting) + threadsBurden state.pool + 32
  rw [burdens, entered]
  change _ + burden + _ ≤ _
  omega

omit [DecidableEq Job] in
theorem spare_update [DecidableEq Token] (setting : Setting Job Token)
    (mCanceled : Token → Bool) {token : Token}
    (before : mCanceled token = false) (job : Job) :
    spare setting (Function.update mCanceled token true) job +
        (if setting.coCancel job = some token then 5 else 0) = spare setting mCanceled job := by
  unfold spare
  cases guard : setting.coCancel job with
  | none => rfl
  | some own =>
      change (if Function.update mCanceled token true own = true then 0 else 5) + _ =
        if mCanceled own = true then 0 else 5
      by_cases same : own = token
      · subst same
        rw [Function.update_self, if_pos rfl, if_pos rfl, before]
        rfl
      · have other : some own ≠ some token := fun equal => same (Option.some.inj equal)
        rw [Function.update_of_ne same, if_neg other]
        exact Nat.add_zero _

theorem Inv.potential_cancel [DecidableEq Token] (inv : Inv setting state) (token : Token) :
    (state.cancel setting token).potential setting ≤ state.potential setting := by
  unfold State.cancel
  by_cases before : state.mCanceled token = true
  · rw [if_pos before]
  · rw [if_neg before]
    refine Nat.add_le_add_right (Population.total_le ?_) _
    intro job listed
    let call := (state.call job).canceled (setting.form job) (setting.coCancel job) token
    have started := (inv.listed job).1 listed
    have used := spare_update setting state.mCanceled (Bool.eq_false_iff.2 before) job
    have alarm : (if call.canceling then 5 else 0) ≤
        (if (state.call job).canceling then 5 else 0) +
          (if setting.coCancel job = some token then 5 else 0) := by
      rcases (state.call job).canceled_cases (setting.form job) (setting.coCancel job) token with
        ⟨_, _, _, canceling, _, flagged, told, _⟩ | ⟨_, same⟩
      · have now : call.canceling = canceling := congrArg Call.canceling flagged
        rw [now]
        by_cases canceled : canceling = true
        · rw [if_pos canceled]
          rcases told.1 canceled with earlier | guarded
          · rw [if_pos earlier]
            exact Nat.le_add_right _ _
          · rw [if_pos guarded]
            exact Nat.le_add_left _ _
        · rw [if_neg canceled]
          exact Nat.zero_le _
      · have now : call = state.call job := same
        rw [now]
        exact Nat.le_add_right _ _
    obtain ⟨place, lambda, ready⟩ :=
      (state.call job).canceled_kept (setting.form job) (setting.coCancel job) token
    have after : call.place ≠ .outside := by
      rw [show call.place = (state.call job).place from place]
      exact started
    change call.burden (state.pool.call job)
        (spare setting (Function.update state.mCanceled token true) job) ≤
      (state.call job).burden (state.pool.call job) (spare setting state.mCanceled job)
    rw [Call.burden_eq started, Call.burden_eq after]
    rw [show call.place = (state.call job).place from place,
      show call.lambda = (state.call job).lambda from lambda,
      show call.ready = (state.call job).ready from ready]
    omega

/-! ### How far a run goes -/

def Action.Starts : Action Job Token Value Exception → Prop
  | .start _ => True
  | _ => False

instance (action : Action Job Token Value Exception) : Decidable action.Starts :=
  match action with
  | .start _ => isTrue trivial
  | .pool _ | .submitted _ | .check _ | .compare _ | .cancelWait _ | .resume _
  | .funcReturns _ _ | .funcThrows _ _ | .handle _ _ | .store _ | .notify _ | .cancel _ =>
      isFalse id

theorem Inv.pays [DecidableEq Token] (inv : Inv setting state)
    (supported : setting.supported = true) {action : Action Job Token Value Exception}
    (enabled : Enabled state action) :
    (RawRun.next setting state action).potential setting + (if ¬action.External then 1 else 0) ≤
      state.potential setting + (if action.Starts then 32 else 0) := by
  have internal : ∀ {after : State Job Token Value Exception},
      after.potential setting < state.potential setting →
      after.potential setting + (if ¬False then 1 else 0) ≤
        state.potential setting + (if False then 32 else 0) := by
    intro after less
    simpa using less
  cases action with
  | start job => exact inv.potential_start enabled.1
  | pool action => exact internal (inv.potential_poolStep enabled.1 enabled.2)
  | submitted job => exact internal (inv.potential_submitted enabled.1)
  | check job => exact internal (inv.potential_check enabled)
  | compare job => exact internal (inv.potential_compare enabled)
  | cancelWait job => exact internal (inv.potential_cancelWait enabled)
  | resume job => exact internal (inv.potential_resume supported enabled.2)
  | funcReturns job value => exact internal (inv.potential_funcReturns enabled value)
  | funcThrows job exception => exact internal (inv.potential_funcThrows enabled exception)
  | handle job exception => exact internal (inv.potential_handle enabled)
  | store job => exact internal (inv.potential_store enabled)
  | notify job => exact internal (inv.potential_notify enabled)
  | cancel token => exact inv.potential_cancel token

/-- On a kernel with the futex calls a run has at most 32 steps for each call, and it ends in
nothing but calls that have returned. -/
theorem calls_come_to_their_end [DecidableEq Token] [Inhabited Value]
    (supported : setting.supported = true) (documented : setting.kernel.Documented)
    (actions : List (Action Job Token Value Exception))
    (runs : (machine Value Exception setting).Runs .initial actions) :
    let state := (machine Value Exception setting).after .initial actions
    actions.countP (¬Action.External ·) ≤ 32 * actions.countP (Action.Starts ·) ∧
      ((∀ action, Enabled state action → action.External) → ∀ job,
        (state.call job).place ≠ .outside →
          ∃ outcome, (state.call job).place = .returned outcome) := by
  intro state
  constructor
  · have bound := Machine.countP_le (fun action => ¬Action.External action) Action.Starts
      (State.potential setting) 32 (Inv setting) (fun _ _ inv enabled => inv.next enabled)
      (fun _ _ inv enabled => inv.pays supported enabled) .initial runs
    have empty : (State.initial : State Job Token Value Exception).potential setting = 0 := rfl
    rw [empty, Nat.zero_add] at bound
    exact Nat.le_trans (Nat.le_add_left _ _) bound
  · intro stuck job started
    by_contra inside
    obtain ⟨action, internal, enabled⟩ := (inv_run runs).moves documented started
      fun outcome returned => inside ⟨outcome, returned⟩
    exact internal (stuck action enabled)

/-- The call that was cancelled while it waited. -/
theorem canceledCall_comes_to_its_end :
    let state := (machine Nat Unit oneCall).after .initial canceledCall
    canceledCall.countP (¬Action.External ·) ≤ 32 * canceledCall.countP (Action.Starts ·) ∧
      ((∀ action, Enabled state action → action.External) → ∀ job,
        (state.call job).place ≠ .outside →
          ∃ outcome, (state.call job).place = .returned outcome) :=
  calls_come_to_their_end rfl FutexNotify.inOrder_documented canceledCall (by decide)

end MCoro.RawRun
