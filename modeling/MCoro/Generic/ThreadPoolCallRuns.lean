/-
Runs of the calls of rawRun and run: what a call returns, and that it does not return
while its lambda can still reach the locals of the coroutine.

The lambda ends in the store to `ready`, and the coroutine returns once it has seen that
store. Everything else is tied to these two places.
-/

import MCoro.Generic.ThreadPoolCalls
import MCoro.Generic.ThreadPoolRuns
import MCoro.Library.Potential

namespace MCoro.RawRun

open FutexNotify (FutexKernel Waiter futexNotifySync futexNotifyAll Wakes)

variable {Job Token Value Exception : Type}

/-! ### The pool under the calls -/

section Pool

variable [DecidableEq Job]

/-- The call of submitJob that a step of the pool belongs to. -/
def submitter : ThreadPool.Action Job → Option Job
  | .submit job | .emplace job | .workOn job _ | .register job _ => some job
  | .take _ _ | .finish _ _ | .reset _ _ | .remove _ _ | .free _ | .unlock _ => none

theorem next_call {pool : ThreadPool.State Job} {action : ThreadPool.Action Job} {job : Job}
    (other : submitter action ≠ some job) :
    (ThreadPool.next pool action).call job = pool.call job := by
  cases action with
  | submit submitted =>
      have different : job ≠ submitted := fun same => other (same ▸ rfl)
      change (pool.submit submitted).call job = _
      unfold ThreadPool.State.submit
      cases pool.mFreeThreads with
      | nil => exact Function.update_of_ne different ..
      | cons thread rest => exact Function.update_of_ne different ..
  | emplace submitted | workOn submitted _ | register submitted _ =>
      have different : job ≠ submitted := fun same => other (same ▸ rfl)
      exact Function.update_of_ne different ..
  | take _ _ | finish _ _ | reset _ _ | remove _ _ | free _ | unlock _ => rfl

theorem next_executions {pool : ThreadPool.State Job} {action : ThreadPool.Action Job}
    (other : ∀ thread task, action ≠ .take thread task) :
    (ThreadPool.next pool action).executions = pool.executions := by
  cases action with
  | submit job =>
      change (pool.submit job).executions = _
      unfold ThreadPool.State.submit
      cases pool.mFreeThreads with
      | nil => rfl
      | cons thread rest => rfl
  | take thread task => exact absurd rfl (other thread task)
  | emplace _ | workOn _ _ | register _ _ | finish _ _ | reset _ _ | remove _ _ | free _
  | unlock _ => rfl

theorem next_running {pool : ThreadPool.State Job} {action : ThreadPool.Action Job} {thread : Nat}
    {task : Job} (running : ((ThreadPool.next pool action).thread thread).place = .running task) :
    (pool.thread thread).place = .running task ∨ action = .take thread task := by
  -- One thread changes: it is this one, or this one has not moved.
  have moved : ∀ (other : Nat) (value : ThreadPool.Thread Job),
      (Function.update pool.thread other value thread).place = .running task →
      (thread = other → value.place = .running task →
        (pool.thread thread).place = .running task ∨ action = .take thread task) →
      (pool.thread thread).place = .running task ∨ action = .take thread task := by
    intro other value now own
    by_cases same : thread = other
    · have taken := own same
      subst same
      rw [Function.update_self] at now
      exact taken now
    · rw [Function.update_of_ne same] at now
      exact .inl now
  cases action with
  | submit job =>
      change ((pool.submit job).thread thread).place = _ at running
      unfold ThreadPool.State.submit at running
      cases free : pool.mFreeThreads with
      | nil =>
          rw [free] at running
          exact .inl running
      | cons first rest =>
          rw [free] at running
          exact .inl running
  | register job other => exact .inl running
  | emplace job => exact moved _ _ running fun _ => nofun
  | workOn job other =>
      refine moved _ _ running fun same now => .inl ?_
      subst same
      exact now
  | take other taken =>
      refine moved _ _ running fun same now => .inr ?_
      subst same
      cases now
      rfl
  | finish other _ | reset other _ | remove other _ | free other | unlock other =>
      exact moved _ _ running fun _ => nofun

end Pool

/-! ### One call -/

/-- The store to `ready` is done. -/
def Lambda.Stored : Lambda Exception → Prop
  | .notifying | .ended => True
  | .uncalled | .calling | .caught _ | .storing => False

/-- Func has ended, and what it threw is in `ep`. -/
def Lambda.Handled : Lambda Exception → Prop
  | .storing | .notifying | .ended => True
  | .uncalled | .calling | .caught _ => False

/-- The lambda still reads what the coroutine owns, or writes to it. -/
def Lambda.Borrows : Lambda Exception → Prop
  | .calling | .caught _ => True
  | .uncalled | .storing | .notifying | .ended => False

/-- The event loop is in the coroutine. -/
def Place.Runs : Place Value Exception → Prop
  | .submitting | .checking => True
  | .outside | .waiting _ | .returned _ => False

namespace Call

variable (call : Call Value Exception)

def LambdaFits (executed : Prop) : Prop :=
  match call.lambda with
  | .uncalled => ¬executed ∧ call.ready = 0 ∧ call.ep = none
  | .calling | .caught _ => executed ∧ call.ready = 0 ∧ call.ep = none
  | .storing => executed ∧ call.ready = 0
  | .notifying | .ended => executed ∧ call.ready = 1

def WaitFits (setting : Setting Job Token) : Futex.Wait → Prop
  | .idle => False
  | .queued expected mask => expected = 0 ∧ mask = Futex.matchAny
  | .asleep mask =>
      mask = Futex.matchAny ∧ setting.supported = true ∧
        (setting.kernel.Documented → call.lambda ≠ .ended)
  | .returned result => result = .canceled ∨ setting.supported = false ∨ call.lambda.Stored

def PlaceFits (setting : Setting Job Token) (job : Job) (submission : ThreadPool.Call) : Prop :=
  match call.place with
  | .outside => submission = .outside
  | .submitting => True
  | .checking => Submitted submission
  | .waiting wait => Submitted submission ∧ call.WaitFits setting wait
  | .returned outcome =>
      Submitted submission ∧ call.lambda.Stored ∧ outcome = call.outcome (setting.form job)

variable {call} {executed : Prop} {setting : Setting Job Token} {job : Job}
  {submission : ThreadPool.Call}

theorem LambdaFits.ready_eq_zero (fits : call.LambdaFits executed) :
    call.ready = 0 ↔ ¬call.lambda.Stored := by
  unfold LambdaFits at fits
  cases lambda : call.lambda with
  | uncalled =>
      simp only [lambda] at fits
      exact ⟨fun _ => id, fun _ => fits.2.1⟩
  | calling | caught _ =>
      simp only [lambda] at fits
      exact ⟨fun _ => id, fun _ => fits.2.1⟩
  | storing =>
      simp only [lambda] at fits
      exact ⟨fun _ => id, fun _ => fits.2⟩
  | notifying | ended =>
      simp only [lambda] at fits
      constructor
      · intro zero
        rw [fits.2] at zero
        cases zero
      · intro unstored
        exact absurd trivial unstored

theorem LambdaFits.uncalled_iff (fits : call.LambdaFits executed) :
    call.lambda = .uncalled ↔ ¬executed := by
  unfold LambdaFits at fits
  cases lambda : call.lambda with
  | uncalled =>
      simp only [lambda] at fits
      exact ⟨fun _ => fits.1, fun _ => rfl⟩
  | calling | caught _ | storing | notifying | ended =>
      simp only [lambda] at fits
      exact ⟨nofun, fun never => absurd fits.1 never⟩

/-- The submission has an effect on where the coroutine can be, and the lambda one on its
waits and its return. -/
theorem PlaceFits.of_same (fits : call.PlaceFits setting job submission)
    {other : Call Value Exception} (place : other.place = call.place)
    (stored : call.lambda.Stored → other.lambda.Stored)
    (ended : other.lambda = .ended → call.lambda = .ended)
    (outcome : call.lambda.Stored → other.outcome (setting.form job) =
      call.outcome (setting.form job)) :
    other.PlaceFits setting job submission := by
  unfold PlaceFits at fits ⊢
  rw [place]
  cases where_ : call.place with
  | outside | submitting | checking =>
      rw [where_] at fits
      exact fits
  | returned result =>
      rw [where_] at fits
      exact ⟨fits.1, stored fits.2.1, fits.2.2.trans (outcome fits.2.1).symm⟩
  | waiting wait =>
      rw [where_] at fits
      refine ⟨fits.1, ?_⟩
      have waits := fits.2
      cases wait with
      | idle | queued _ _ => exact waits
      | asleep mask =>
          exact ⟨waits.1, waits.2.1, fun documented last => waits.2.2 documented (ended last)⟩
      | returned result => exact waits.imp_right (Or.imp_right stored)

variable (call) in
theorem canceled_cases [DecidableEq Token] (form : Form Token) (coCancel : Option Token)
    (token : Token) :
    (∃ wait stopped stop canceling, call.place = .waiting wait ∧
        call.canceled form coCancel token = { call with stopped, stop, canceling } ∧
        (canceling = true ↔ call.canceling = true ∨ coCancel = some token) ∧
        (stopped = true ↔ call.stopped = true ∨ form = .rawRunCancel (some token))) ∨
      (∀ wait, call.place ≠ .waiting wait) ∧ call.canceled form coCancel token = call := by
  unfold canceled
  cases place : call.place with
  | outside | submitting | checking | returned _ => exact .inr ⟨nofun, rfl⟩
  | waiting wait => exact .inl ⟨wait, _, _, _, rfl, rfl, by simp, by simp⟩

theorem canceled_kept [DecidableEq Token] (form : Form Token) (coCancel : Option Token)
    (token : Token) :
    (call.canceled form coCancel token).place = call.place ∧
      (call.canceled form coCancel token).lambda = call.lambda ∧
      (call.canceled form coCancel token).ready = call.ready := by
  rcases call.canceled_cases form coCancel token with ⟨_, _, _, _, _, flagged, _, _⟩ | ⟨_, same⟩
  · rw [flagged]
    exact ⟨rfl, rfl, rfl⟩
  · rw [same]
    exact ⟨rfl, rfl, rfl⟩

theorem cancelWait_cases :
    (∃ wait, call.place = .waiting wait ∧ (wait.IsQueued ∨ wait.IsAsleep) ∧
        call.cancelWait =
          { call with place := .waiting (.returned .canceled), canceling := false }) ∨
      call.cancelWait = { call with canceling := false } := by
  obtain ⟨place, lambda, ready, ep, stopped, stop, res, canceling⟩ := call
  cases place with
  | outside | submitting | checking | returned _ => exact .inr rfl
  | waiting wait =>
      cases wait with
      | idle | returned _ => exact .inr rfl
      | queued _ _ => exact .inl ⟨_, rfl, .inl trivial, rfl⟩
      | asleep _ => exact .inl ⟨_, rfl, .inr trivial, rfl⟩

end Call

/-! ### The invariant -/

structure Inv [DecidableEq Job] (setting : Setting Job Token)
    (state : State Job Token Value Exception) : Prop where
  pool : ThreadPool.Inv state.pool
  lambda : ∀ job, (state.call job).LambdaFits (job ∈ state.pool.executions)
  place : ∀ job, (state.call job).PlaceFits setting job (state.pool.call job)
  running : ∀ job, state.running = some job ↔ (state.call job).place.Runs
  listed : ∀ job, job ∈ state.calls ↔ (state.call job).place ≠ .outside
  distinct : state.calls.Nodup
  canceling : ∀ job, (state.call job).canceling = true → job ∈ state.calls ∧
    ∃ token, setting.coCancel job = some token ∧ state.mCanceled token = true
  executing : ∀ thread task, (state.pool.thread thread).place = .running task →
    (state.call task).lambda ≠ .uncalled

namespace Inv

variable [DecidableEq Job] {setting : Setting Job Token}
  {state : State Job Token Value Exception} {job : Job}

theorem initial : Inv setting (State.initial : State Job Token Value Exception) := by
  constructor
  case pool => exact .initial
  case lambda => exact fun _ => ⟨List.not_mem_nil, rfl, rfl⟩
  case place => exact fun _ => rfl
  case running => exact fun _ => ⟨nofun, nofun⟩
  case listed => exact fun _ => ⟨nofun, fun started => absurd rfl started⟩
  case distinct => exact List.nodup_nil
  case canceling => nofun
  case executing => nofun

theorem set (inv : Inv setting state) (call : Call Value Exception) {running : Option Job}
    (lambda : call.LambdaFits (job ∈ state.pool.executions))
    (place : call.PlaceFits setting job (state.pool.call job))
    (runs : ∀ other, running = some other ↔
      (Function.update state.call job call other).place.Runs)
    {calls : List Job}
    (listed : ∀ other, other ∈ calls ↔
      (Function.update state.call job call other).place ≠ .outside)
    (distinct : calls.Nodup) (grown : state.calls ⊆ calls)
    (canceling : call.canceling = true → (state.call job).canceling = true)
    (called : call.lambda = .uncalled → (state.call job).lambda = .uncalled) :
    Inv setting { state.set job call with running, calls } := by
  constructor
  case pool => exact inv.pool
  case lambda =>
    intro other
    change (Function.update state.call job call other).LambdaFits _
    by_cases same : other = job
    · subst same
      rw [Function.update_self]
      exact lambda
    · rw [Function.update_of_ne same]
      exact inv.lambda other
  case place =>
    intro other
    change (Function.update state.call job call other).PlaceFits _ _ _
    by_cases same : other = job
    · subst same
      rw [Function.update_self]
      exact place
    · rw [Function.update_of_ne same]
      exact inv.place other
  case running => exact runs
  case listed => exact listed
  case distinct => exact distinct
  case canceling =>
    intro other
    change (Function.update state.call job call other).canceling = true → _
    by_cases same : other = job
    · subst same
      rw [Function.update_self]
      exact fun now => (inv.canceling other (canceling now)).imp_left fun listed => grown listed
    · rw [Function.update_of_ne same]
      exact fun now => (inv.canceling other now).imp_left fun listed => grown listed
  case executing =>
    intro thread task runs
    change (Function.update state.call job call task).lambda ≠ _
    by_cases same : task = job
    · subst same
      rw [Function.update_self]
      exact fun uncalled => inv.executing thread task runs (called uncalled)
    · rw [Function.update_of_ne same]
      exact inv.executing thread task runs

theorem runs_same (inv : Inv setting state) {call : Call Value Exception}
    (same : call.place.Runs ↔ (state.call job).place.Runs) (other : Job) :
    state.running = some other ↔ (Function.update state.call job call other).place.Runs := by
  rw [inv.running other]
  by_cases own : other = job
  · subst own
    rw [Function.update_self, same]
  · rw [Function.update_of_ne own]

theorem listed_same (inv : Inv setting state) {call : Call Value Exception}
    (started : call.place = .outside ↔ (state.call job).place = .outside) (other : Job) :
    other ∈ state.calls ↔ (Function.update state.call job call other).place ≠ .outside := by
  rw [inv.listed other]
  by_cases same : other = job
  · subst same
    rw [Function.update_self]
    exact not_congr started.symm
  · rw [Function.update_of_ne same]

theorem runs_none (inv : Inv setting state) (own : (state.call job).place.Runs)
    {call : Call Value Exception} (rests : ¬call.place.Runs) (other : Job) :
    none = some other ↔ (Function.update state.call job call other).place.Runs := by
  constructor
  · nofun
  · intro runs
    by_cases same : other = job
    · subst same
      rw [Function.update_self] at runs
      exact absurd runs rests
    · rw [Function.update_of_ne same] at runs
      have first := (inv.running job).2 own
      have second := (inv.running other).2 runs
      rw [first] at second
      exact absurd (Option.some.inj second).symm same

theorem runs_some (inv : Inv setting state) (idle : state.running = none)
    {call : Call Value Exception} (runs : call.place.Runs) (other : Job) :
    some job = some other ↔ (Function.update state.call job call other).place.Runs := by
  by_cases same : other = job
  · subst same
    rw [Function.update_self]
    exact ⟨fun _ => runs, fun _ => rfl⟩
  · rw [Function.update_of_ne same, ← inv.running other, idle]
    constructor
    · intro equal
      exact absurd (Option.some.inj equal).symm same
    · nofun

theorem started_of_lambda (inv : Inv setting state)
    (called : (state.call job).lambda ≠ .uncalled) : (state.call job).place ≠ .outside := by
  intro outside
  have executed : job ∈ state.pool.executions := by
    by_contra never
    exact called ((inv.lambda job).uncalled_iff.2 never)
  have handed := (inv.pool.placed job).2 (.inl executed)
  have place := inv.place job
  unfold Call.PlaceFits at place
  rw [outside] at place
  change state.pool.call job = .outside at place
  rw [place] at handed
  exact handed

/-! ### The steps of the coroutine -/

theorem start (inv : Inv setting state) (outside : (state.call job).place = .outside)
    (idle : state.running = none) : Inv setting (state.start job) := by
  refine inv.set { state.call job with place := .submitting } (inv.lambda job) trivial
    (inv.runs_some idle trivial) ?_ ?_ (List.subset_cons_self job state.calls) id id
  case refine_1 =>
    intro other
    rw [List.mem_cons, inv.listed other]
    by_cases same : other = job
    · subst same
      rw [Function.update_self]
      exact ⟨fun _ => nofun, fun _ => .inl rfl⟩
    · rw [Function.update_of_ne same]
      exact ⟨fun one => one.resolve_left same, .inr⟩
  case refine_2 =>
    rw [List.nodup_cons, inv.listed job]
    exact ⟨fun started => started outside, inv.distinct⟩

theorem submitted (inv : Inv setting state) (submitting : (state.call job).place = .submitting)
    (returned : Submitted (state.pool.call job)) :
    Inv setting (state.set job { state.call job with place := .checking }) := by
  refine inv.set { state.call job with place := .checking } (inv.lambda job) returned
    (inv.runs_same ?_) (inv.listed_same (iff_of_false nofun ?_)) inv.distinct (List.Subset.refl _) id id
  · rw [submitting]
    exact Iff.rfl
  · rw [submitting]
    nofun

theorem checking_submitted (inv : Inv setting state)
    (checking : (state.call job).place = .checking) : Submitted (state.pool.call job) := by
  have place := inv.place job
  unfold Call.PlaceFits at place
  rw [checking] at place
  exact place

theorem leave (inv : Inv setting state) (checking : (state.call job).place = .checking)
    {place : Place Value Exception} (rests : ¬place.Runs) (inside : place ≠ .outside)
    (fits : { state.call job with place }.PlaceFits setting job (state.pool.call job)) :
    Inv setting { state.set job { state.call job with place } with running := none } := by
  have runs : (state.call job).place.Runs := by
    rw [checking]
    trivial
  refine inv.set { state.call job with place } (inv.lambda job) fits (inv.runs_none runs rests)
    (inv.listed_same (iff_of_false inside ?_)) inv.distinct (List.Subset.refl _) id id
  rw [checking]
  nofun

theorem check (inv : Inv setting state) (checking : (state.call job).place = .checking) :
    Inv setting (state.check (setting.form job) job) := by
  have ready := (inv.lambda job).ready_eq_zero
  have submission := inv.checking_submitted checking
  unfold State.check Call.check
  by_cases zero : (state.call job).ready = 0
  · rw [if_pos zero]
    exact inv.leave checking id nofun ⟨submission, rfl, rfl⟩
  · rw [if_neg zero]
    have stored : (state.call job).lambda.Stored := by
      by_contra unstored
      exact zero (ready.2 unstored)
    exact inv.leave checking id nofun ⟨submission, stored, rfl⟩

theorem waiting (inv : Inv setting state) {wait : Futex.Wait}
    (waits : (state.call job).place = .waiting wait) :
    Submitted (state.pool.call job) ∧ (state.call job).WaitFits setting wait := by
  have place := inv.place job
  unfold Call.PlaceFits at place
  rw [waits] at place
  exact place

theorem set_wait (inv : Inv setting state) {wait : Futex.Wait}
    (waits : (state.call job).place = .waiting wait) (after : Futex.Wait)
    (fits : (state.call job).WaitFits setting after) (canceling : Bool)
    (told : canceling = true → (state.call job).canceling = true) :
    Inv setting
      (state.set job { state.call job with place := .waiting after, canceling }) := by
  refine inv.set { state.call job with place := .waiting after, canceling } (inv.lambda job)
    ⟨(inv.waiting waits).1, fits⟩ (inv.runs_same ?_)
    (inv.listed_same (iff_of_false nofun ?_)) inv.distinct (List.Subset.refl _) told id
  · rw [waits]
    exact Iff.rfl
  · rw [waits]
    nofun

theorem compare (inv : Inv setting state) (queued : (state.call job).place.IsQueued) :
    Inv setting (state.compare setting.supported job) := by
  unfold State.compare
  cases waits : (state.call job).place with
  | outside | submitting | checking | returned _ =>
      rw [waits] at queued
      cases queued
  | waiting wait =>
      rw [waits] at queued
      cases wait with
      | idle | asleep _ | returned _ => cases queued
      | queued expected mask =>
          refine inv.set_wait waits _ ?_ _ id
          obtain ⟨rfl, rfl⟩ := (inv.waiting waits).2
          have ready := (inv.lambda job).ready_eq_zero
          cases supported : setting.supported with
          | false => exact .inr (.inl supported)
          | true =>
              have valid : Futex.matchAny ≠ 0 := by decide
              rw [if_pos rfl, Futex.Wait.compare_queued valid]
              by_cases zero : (state.call job).ready = 0
              · rw [if_pos zero]
                refine ⟨rfl, supported, ?_⟩
                intro _ ended
                have unstored := ready.1 zero
                rw [ended] at unstored
                exact unstored trivial
              · rw [if_neg zero]
                refine .inr (.inr ?_)
                by_contra unstored
                exact zero (ready.2 unstored)

theorem cancelWait (inv : Inv setting state) :
    Inv setting (state.set job (state.call job).cancelWait) := by
  rcases (state.call job).cancelWait_cases with ⟨wait, waits, _, ended⟩ | missed
  · rw [ended]
    exact inv.set_wait waits (.returned .canceled) (.inl rfl) _ nofun
  · rw [missed]
    exact inv.set { state.call job with canceling := false } (inv.lambda job) (inv.place job)
      (inv.runs_same Iff.rfl) (inv.listed_same Iff.rfl) inv.distinct (List.Subset.refl _) nofun id

theorem resume (inv : Inv setting state) (idle : state.running = none)
    (posted : (state.call job).place.IsPosted) : Inv setting (state.resume job) := by
  cases waits : (state.call job).place with
  | outside | submitting | checking | returned _ =>
      rw [waits] at posted
      cases posted
  | waiting wait =>
      refine inv.set { state.call job with place := .checking } (inv.lambda job)
        (inv.waiting waits).1 (inv.runs_some idle trivial)
        (inv.listed_same (iff_of_false nofun ?_)) inv.distinct (List.Subset.refl _) id id
      rw [waits]
      nofun

/-! ### The steps of the lambda -/

theorem set_lambda (inv : Inv setting state) (called : (state.call job).lambda ≠ .uncalled)
    (unstored : ¬(state.call job).lambda.Stored) (call : Call Value Exception)
    (fits : call.LambdaFits True) (still : call.lambda ≠ .uncalled)
    (last : call.lambda ≠ .ended) (place : call.place = (state.call job).place)
    (canceling : call.canceling = (state.call job).canceling) :
    Inv setting (state.set job call) := by
  have executed : job ∈ state.pool.executions := by
    by_contra never
    exact called ((inv.lambda job).uncalled_iff.2 never)
  have stays : call.PlaceFits setting job (state.pool.call job) :=
    (inv.place job).of_same place (fun stored => absurd stored unstored)
      (fun ended => absurd ended last) (fun stored => absurd stored unstored)
  refine inv.set call ?_ stays (inv.runs_same ?_) (inv.listed_same ?_) inv.distinct (List.Subset.refl _) ?_ ?_
  · rw [eq_true executed]
    exact fits
  · rw [place]
  · rw [place]
  · rw [canceling]
    exact id
  · exact fun uncalled => absurd uncalled still

theorem calling (inv : Inv setting state) (calling : (state.call job).lambda = .calling) :
    (state.call job).ready = 0 ∧ (state.call job).ep = none := by
  have fits := inv.lambda job
  unfold Call.LambdaFits at fits
  rw [calling] at fits
  exact fits.2

theorem caught (inv : Inv setting state) {exception : Exception}
    (caught : (state.call job).lambda = .caught exception) :
    (state.call job).ready = 0 ∧ (state.call job).ep = none := by
  have fits := inv.lambda job
  unfold Call.LambdaFits at fits
  rw [caught] at fits
  exact fits.2

theorem funcReturns (inv : Inv setting state) (calls : (state.call job).lambda = .calling)
    (form : Form Token) (value : Value) :
    Inv setting (state.set job ((state.call job).funcReturns form value)) := by
  have called : (state.call job).lambda ≠ .uncalled := by
    rw [calls]
    nofun
  have unstored : ¬(state.call job).lambda.Stored := by
    rw [calls]
    exact id
  exact inv.set_lambda called unstored _ ⟨trivial, (inv.calling calls).1⟩ nofun nofun rfl rfl

theorem funcThrows (inv : Inv setting state) (calls : (state.call job).lambda = .calling)
    (exception : Exception) :
    Inv setting (state.set job { state.call job with lambda := .caught exception }) := by
  have called : (state.call job).lambda ≠ .uncalled := by
    rw [calls]
    nofun
  have unstored : ¬(state.call job).lambda.Stored := by
    rw [calls]
    exact id
  exact inv.set_lambda called unstored { state.call job with lambda := .caught exception }
    ⟨trivial, inv.calling calls⟩ nofun nofun rfl rfl

theorem handle (inv : Inv setting state) {exception : Exception}
    (caught : (state.call job).lambda = .caught exception) :
    Inv setting (state.set job ((state.call job).handle exception)) := by
  have called : (state.call job).lambda ≠ .uncalled := by
    rw [caught]
    nofun
  have unstored : ¬(state.call job).lambda.Stored := by
    rw [caught]
    exact id
  exact inv.set_lambda called unstored _ ⟨trivial, (inv.caught caught).1⟩ nofun nofun rfl rfl

theorem store (inv : Inv setting state) (storing : (state.call job).lambda = .storing) :
    Inv setting (state.set job (state.call job).store) := by
  have called : (state.call job).lambda ≠ .uncalled := by
    rw [storing]
    nofun
  have unstored : ¬(state.call job).lambda.Stored := by
    rw [storing]
    exact id
  exact inv.set_lambda called unstored _ ⟨trivial, rfl⟩ nofun nofun rfl rfl

end Inv

theorem futexNotifySync_one {kernel : FutexKernel Job} (documented : kernel.Documented)
    (job : Job) :
    (futexNotifySync kernel true [⟨job, Futex.matchAny⟩] futexNotifyAll Futex.matchAny).2 ≠ [] := by
  intro nobody
  rw [FutexNotify.available_nobody_iff documented] at nobody
  rcases nobody with none_ | large | none_ | apart
  · exact absurd none_ (by decide)
  · exact absurd large (by decide)
  · exact absurd none_ (by decide)
  · have member : (⟨job, Futex.matchAny⟩ : Waiter Job) ∈
        FutexNotify.overlapping futexNotifyAll.toUInt32 [⟨job, Futex.matchAny⟩] := by
      unfold FutexNotify.overlapping
      rw [List.mem_filter]
      refine ⟨List.mem_singleton.2 rfl, ?_⟩
      change decide (Futex.matchAny &&& futexNotifyAll.toUInt32 ≠ 0) = true
      decide
    rw [apart] at member
    cases member

theorem Call.notify_cases (call : Call Value Exception) (kernel : FutexKernel Job)
    (supported : Bool) (job : Job) :
    (∃ mask, call.place = .waiting (.asleep mask)) ∧
        call.notify kernel supported job =
          { call with lambda := .ended, place := .waiting (.returned .woken) } ∨
      call.notify kernel supported job = { call with lambda := .ended } ∧
        (supported = true → kernel.Documented →
          call.place ≠ .waiting (.asleep Futex.matchAny)) := by
  unfold notify
  cases place : call.place with
  | outside | submitting | checking | returned _ => exact .inr ⟨rfl, fun _ _ => nofun⟩
  | waiting wait =>
      cases wait with
      | idle | queued _ _ | returned _ => exact .inr ⟨rfl, fun _ _ => nofun⟩
      | asleep mask =>
          cases woken : (futexNotifySync kernel supported [⟨job, mask⟩] futexNotifyAll
              Futex.matchAny).2 with
          | nil =>
              refine .inr ⟨by simp only [woken], ?_⟩
              intro here documented asleep
              cases asleep
              rw [here] at woken
              exact futexNotifySync_one documented job woken
          | cons first rest => exact .inl ⟨⟨mask, rfl⟩, by simp only [woken]⟩

namespace Inv

variable [DecidableEq Job] {setting : Setting Job Token}
  {state : State Job Token Value Exception} {job : Job}

theorem notify (inv : Inv setting state) (notifying : (state.call job).lambda = .notifying) :
    Inv setting
      (state.set job ((state.call job).notify setting.kernel setting.supported job)) := by
  have fits := inv.lambda job
  unfold Call.LambdaFits at fits
  simp only [notifying] at fits
  rcases (state.call job).notify_cases setting.kernel setting.supported job with
    ⟨⟨mask, asleep⟩, woken⟩ | ⟨kept, awake⟩
  · rw [woken]
    refine inv.set
      { state.call job with lambda := .ended, place := .waiting (.returned .woken) } fits
      ⟨(inv.waiting asleep).1, .inr (.inr trivial)⟩ (inv.runs_same ?_)
      (inv.listed_same (iff_of_false nofun ?_)) inv.distinct (List.Subset.refl _) id nofun
    · rw [asleep]
      exact Iff.rfl
    · rw [asleep]
      nofun
  · rw [kept]
    have stays : { state.call job with lambda := .ended }.PlaceFits setting job
        (state.pool.call job) := by
      have place := inv.place job
      unfold Call.PlaceFits at place ⊢
      cases where_ : (state.call job).place with
      | outside | submitting | checking =>
          rw [where_] at place
          exact place
      | returned outcome =>
          rw [where_] at place
          exact ⟨place.1, trivial, place.2.2⟩
      | waiting wait =>
          rw [where_] at place awake
          refine ⟨place.1, ?_⟩
          have waits := place.2
          cases wait with
          | idle | queued _ _ => exact waits
          | returned result => exact waits.imp_right (Or.imp_right fun _ => trivial)
          | asleep mask =>
              obtain ⟨rfl, supported, _⟩ := waits
              exact ⟨rfl, supported, fun documented _ => awake supported documented rfl⟩
    exact inv.set { state.call job with lambda := .ended } fits stays (inv.runs_same Iff.rfl)
      (inv.listed_same Iff.rfl) inv.distinct (List.Subset.refl _) id nofun

/-! ### The steps of the pool, and the cancellations -/

theorem take (inv : Inv setting state) {thread : Nat} {task : Job}
    (enabled : ThreadPool.Enabled state.pool (.take thread task)) :
    Inv setting (state.poolStep (.take thread task)) := by
  have fresh : task ∉ state.pool.executions := inv.pool.pending thread task enabled.2
  have uncalled := (inv.lambda task).uncalled_iff.2 fresh
  have before := inv.lambda task
  unfold Call.LambdaFits at before
  simp only [uncalled] at before
  have unstored : ¬(state.call task).lambda.Stored := by
    rw [uncalled]
    exact id
  let called : Call Value Exception := { state.call task with lambda := .calling }
  let pool := ThreadPool.next state.pool (.take thread task)
  have place : called.PlaceFits setting task (pool.call task) :=
    (inv.place task).of_same rfl (fun stored => absurd stored unstored) nofun
      (fun stored => absurd stored unstored)
  have others : ∀ job, job ≠ task → Function.update state.call task called job = state.call job :=
    fun job different => Function.update_of_ne different ..
  have same : ∀ job, (Function.update state.call task called job).place =
      (state.call job).place := by
    intro job
    by_cases own : job = task
    · rw [own, Function.update_self]
    · rw [others job own]
  constructor
  case pool => exact inv.pool.next enabled
  case lambda =>
    intro job
    change (Function.update state.call task called job).LambdaFits
      (job ∈ state.pool.executions ++ [task])
    by_cases own : job = task
    · subst own
      rw [Function.update_self]
      exact ⟨List.mem_append_right _ (List.mem_singleton.2 rfl), before.2⟩
    · have stays : (job ∈ state.pool.executions ++ [task]) = (job ∈ state.pool.executions) := by
        simp [own]
      rw [others job own, stays]
      exact inv.lambda job
  case place =>
    intro job
    change (Function.update state.call task called job).PlaceFits _ _ (pool.call job)
    by_cases own : job = task
    · subst own
      rw [Function.update_self]
      exact place
    · rw [others job own]
      exact inv.place job
  case running =>
    intro job
    change state.running = some job ↔ (Function.update state.call task called job).place.Runs
    rw [same job]
    exact inv.running job
  case listed =>
    intro job
    change job ∈ state.calls ↔ (Function.update state.call task called job).place ≠ .outside
    rw [same job]
    exact inv.listed job
  case distinct => exact inv.distinct
  case canceling =>
    intro job
    change (Function.update state.call task called job).canceling = true → _
    by_cases own : job = task
    · subst own
      rw [Function.update_self]
      exact inv.canceling job
    · rw [others job own]
      exact inv.canceling job
  case executing =>
    intro other job runs
    change (Function.update state.call task called job).lambda ≠ _
    by_cases own : job = task
    · rw [own, Function.update_self]
      nofun
    · rw [others job own]
      have moved : (pool.thread other).place = .running job := runs
      rcases next_running moved with earlier | now
      · exact inv.executing other job earlier
      · cases now
        exact absurd rfl own

theorem poolStep (inv : Inv setting state) {action : ThreadPool.Action Job}
    (may : PoolStep state action) (enabled : ThreadPool.Enabled state.pool action) :
    Inv setting (state.poolStep action) := by
  by_cases taken : ∃ thread task, action = .take thread task
  · obtain ⟨thread, task, rfl⟩ := taken
    exact inv.take enabled
  · have other : ∀ thread task, action ≠ .take thread task :=
      fun thread task same => taken ⟨thread, task, same⟩
    have stepped : state.poolStep action =
        { state with pool := ThreadPool.next state.pool action } := by
      cases action with
      | take thread task => exact absurd rfl (other thread task)
      | submit _ | emplace _ | workOn _ _ | register _ _ | finish _ _ | reset _ _ | remove _ _
      | free _ | unlock _ => rfl
    rw [stepped]
    constructor
    case pool => exact inv.pool.next enabled
    case lambda =>
      intro job
      change (state.call job).LambdaFits (job ∈ (ThreadPool.next state.pool action).executions)
      rw [next_executions other]
      exact inv.lambda job
    case place =>
      intro job
      change (state.call job).PlaceFits setting job ((ThreadPool.next state.pool action).call job)
      by_cases own : submitter action = some job
      · have submitting : (state.call job).place = .submitting := by
          cases action with
          | submit _ | emplace _ | workOn _ _ | register _ _ =>
              cases own
              exact may
          | take _ _ | finish _ _ | reset _ _ | remove _ _ | free _ | unlock _ => cases own
        unfold Call.PlaceFits
        rw [submitting]
        trivial
      · rw [next_call own]
        exact inv.place job
    case running => exact inv.running
    case listed => exact inv.listed
    case distinct => exact inv.distinct
    case canceling => exact inv.canceling
    case executing =>
      intro thread task runs
      rcases next_running runs with before | now
      · exact inv.executing thread task before
      · exact absurd now (other thread task)

theorem cancel [DecidableEq Token] (inv : Inv setting state) (token : Token) :
    Inv setting (state.cancel setting token) := by
  unfold State.cancel
  by_cases before : state.mCanceled token = true
  · rw [if_pos before]
    exact inv
  · rw [if_neg before]
    have kept : ∀ other,
        ((state.call other).canceled (setting.form other) (setting.coCancel other) token).place =
            (state.call other).place ∧
          ((state.call other).canceled (setting.form other) (setting.coCancel other)
            token).lambda = (state.call other).lambda :=
      fun other => ((state.call other).canceled_kept _ _ token).imp_right And.left
    constructor
    case pool => exact inv.pool
    case lambda =>
      intro other
      have fits := inv.lambda other
      change ((state.call other).canceled _ _ token).LambdaFits _
      rcases (state.call other).canceled_cases (setting.form other) (setting.coCancel other) token
        with ⟨_, _, _, _, _, flagged, _, _⟩ | ⟨_, same⟩
      · rw [flagged]
        exact fits
      · rw [same]
        exact fits
    case place =>
      intro other
      have fits := inv.place other
      change ((state.call other).canceled _ _ token).PlaceFits _ _ _
      rcases (state.call other).canceled_cases (setting.form other) (setting.coCancel other) token
        with ⟨wait, _, _, _, waits, flagged, _, _⟩ | ⟨_, same⟩
      · rw [flagged]
        unfold Call.PlaceFits at fits ⊢
        rw [waits] at fits ⊢
        exact fits
      · rw [same]
        exact fits
    case running =>
      intro other
      rw [(kept other).1]
      exact inv.running other
    case listed =>
      intro other
      rw [(kept other).1]
      exact inv.listed other
    case distinct => exact inv.distinct
    case canceling =>
      intro other
      change ((state.call other).canceled _ _ token).canceling = true → other ∈ state.calls ∧
        ∃ own, setting.coCancel other = some own ∧
          Function.update state.mCanceled token true own = true
      intro told
      have grown : ∀ own, state.mCanceled own = true →
          Function.update state.mCanceled token true own = true := by
        intro own canceled
        by_cases same : own = token
        · rw [same, Function.update_self]
        · rw [Function.update_of_ne same]
          exact canceled
      have old : (state.call other).canceling = true → other ∈ state.calls ∧
          ∃ own, setting.coCancel other = some own ∧
            Function.update state.mCanceled token true own = true := by
        intro before
        obtain ⟨listed, own, guarded, canceled⟩ := inv.canceling other before
        exact ⟨listed, own, guarded, grown own canceled⟩
      rcases (state.call other).canceled_cases (setting.form other) (setting.coCancel other) token
        with ⟨wait, _, _, _, waits, flagged, canceling, _⟩ | ⟨_, same⟩
      · rw [flagged] at told
        rcases canceling.1 told with before | guarded
        · exact old before
        · refine ⟨(inv.listed other).2 ?_, token, guarded, Function.update_self ..⟩
          rw [waits]
          nofun
      · rw [same] at told
        exact old told
    case executing =>
      intro thread task runs
      rw [(kept task).2]
      exact inv.executing thread task runs

theorem next [DecidableEq Token] (inv : Inv setting state)
    {action : Action Job Token Value Exception} (enabled : Enabled state action) :
    Inv setting (next setting state action) := by
  cases action with
  | start job => exact inv.start enabled.1 enabled.2
  | pool action => exact inv.poolStep enabled.1 enabled.2
  | submitted job => exact inv.submitted enabled.1 enabled.2
  | check job => exact inv.check enabled
  | compare job => exact inv.compare enabled
  | cancelWait job => exact inv.cancelWait
  | resume job => exact inv.resume enabled.1 enabled.2
  | funcReturns job value => exact inv.funcReturns enabled _ value
  | funcThrows job exception => exact inv.funcThrows enabled exception
  | handle job exception => exact inv.handle enabled
  | store job => exact inv.store enabled
  | notify job => exact inv.notify enabled
  | cancel token => exact inv.cancel token

end Inv

section Runs

variable [DecidableEq Job] [DecidableEq Token] {setting : Setting Job Token}

theorem inv_run {actions : List (Action Job Token Value Exception)}
    (runs : (machine Value Exception setting).Runs .initial actions) :
    Inv setting ((machine Value Exception setting).after .initial actions) :=
  Machine.invariant (Inv setting) (fun _ _ inv enabled => inv.next enabled) .initial runs

end Runs

/-- One call with a token, which is that of its coroutine too. -/
def oneCall : Setting (Fin 1) Unit :=
  { form := fun _ => .rawRunCancel (some ())
    coCancel := fun _ => some ()
    kernel := FutexNotify.inOrder
    supported := true }

/-- It is cancelled while it waits, and waits again until func has ended. -/
def canceledCall : List (Action (Fin 1) Unit Nat Unit) :=
  [.start 0, .pool (.submit 0), .pool (.emplace 0), .pool (.workOn 0 0), .pool (.register 0 0),
    .submitted 0, .check 0, .compare 0, .cancel (), .cancelWait 0, .resume 0, .check 0,
    .pool (.take 0 0), .compare 0, .funcReturns 0 7, .store 0, .notify 0, .resume 0, .check 0]

end MCoro.RawRun
