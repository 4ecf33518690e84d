/-
What a call of rawRun or run returns.

How the lambda of a call got where it is, step by step: func has ended in one step of the
run, and the token of the call was cancelled in another or in none. These two are what the
call returns.
-/

import MCoro.Generic.ThreadPoolCallRuns

namespace MCoro.RawRun

variable {Job Token Value Exception : Type} [DecidableEq Job] [DecidableEq Token]
  {setting : Setting Job Token}

/-! ### How the lambda of one call goes on -/

def Call.result (call : Call Value Exception) : Lambda Exception × Option Exception × Option Value :=
  (call.lambda, call.ep, call.res)

def Action.Ends (job : Job) : Action Job Token Value Exception → Prop
  | .funcReturns other _ | .funcThrows other _ => other = job
  | _ => False

instance (job : Job) (action : Action Job Token Value Exception) : Decidable (action.Ends job) :=
  match action with
  | .funcReturns other _ | .funcThrows other _ => inferInstanceAs (Decidable (other = job))
  | .start _ | .pool _ | .submitted _ | .check _ | .compare _ | .cancelWait _ | .resume _
  | .handle _ _ | .store _ | .notify _ | .cancel _ => isFalse id

inductive LambdaStep (form : Form Token) (job : Job) :
    Action Job Token Value Exception → Call Value Exception → Call Value Exception → Prop where
  | none {action : Action Job Token Value Exception} {before after : Call Value Exception}
      (same : after.result = before.result) (idle : ¬action.Ends job) :
      LambdaStep form job action before after
  | take {before after : Call Value Exception} (thread : Nat)
      (uncalled : before.lambda = .uncalled)
      (same : after.result = (.calling, before.ep, before.res)) :
      LambdaStep form job (.pool (.take thread job)) before after
  | funcReturns {before after : Call Value Exception} (value : Value)
      (calling : before.lambda = .calling)
      (same : after.result = (before.funcReturns form value).result) :
      LambdaStep form job (.funcReturns job value) before after
  | funcThrows {before after : Call Value Exception} (exception : Exception)
      (calling : before.lambda = .calling)
      (same : after.result = (.caught exception, before.ep, before.res)) :
      LambdaStep form job (.funcThrows job exception) before after
  | handle {before after : Call Value Exception} (exception : Exception)
      (caught : before.lambda = .caught exception)
      (same : after.result = (.storing, some exception, before.res)) :
      LambdaStep form job (.handle job exception) before after
  | store {before after : Call Value Exception} (storing : before.lambda = .storing)
      (same : after.result = (.notifying, before.ep, before.res)) :
      LambdaStep form job (.store job) before after
  | notify {before after : Call Value Exception} (notifying : before.lambda = .notifying)
      (same : after.result = (.ended, before.ep, before.res)) :
      LambdaStep form job (.notify job) before after

variable {state : State Job Token Value Exception}

omit [DecidableEq Token] in
theorem lambdaStep_set {job other : Job} {form : Form Token}
    {action : Action Job Token Value Exception} {call : Call Value Exception}
    (step : job = other → LambdaStep form job action (state.call job) call)
    (idle : job ≠ other → ¬action.Ends job) :
    LambdaStep form job action (state.call job) ((state.set other call).call job) := by
  change LambdaStep form job action _ (Function.update state.call other call job)
  by_cases same : job = other
  · have turned := step same
    subst same
    rw [Function.update_self]
    exact turned
  · rw [Function.update_of_ne same]
    exact .none rfl (idle same)

theorem next_lambdaStep (inv : Inv setting state) {action : Action Job Token Value Exception}
    (enabled : Enabled state action) (job : Job) :
    LambdaStep (setting.form job) job action (state.call job)
      ((next setting state action).call job) := by
  cases action with
  | start other => exact lambdaStep_set (fun same => .none (by rw [same]; rfl) id) fun _ => id
  | pool action =>
      cases action with
      | take thread task =>
          refine lambdaStep_set (fun same => ?_) fun _ => id
          subst same
          have fresh := inv.pool.pending thread job enabled.2.2
          exact .take thread ((inv.lambda job).uncalled_iff.2 fresh) rfl
      | submit _ | emplace _ | workOn _ _ | register _ _ | finish _ _ | reset _ _ | remove _ _
      | free _ | unlock _ => exact .none rfl id
  | submitted other => exact lambdaStep_set (fun same => .none (by rw [same]; rfl) id) fun _ => id
  | check other =>
      refine lambdaStep_set (fun same => .none ?_ id) fun _ => id
      rw [same]
      unfold Call.check
      by_cases zero : (state.call other).ready = 0
      · rw [if_pos zero]
        rfl
      · rw [if_neg zero]
        rfl
  | compare other =>
      change LambdaStep _ _ _ _ ((state.compare setting.supported other).call job)
      unfold State.compare
      cases (state.call other).place with
      | waiting wait => exact lambdaStep_set (fun same => .none (by rw [same]; rfl) id) fun _ => id
      | outside | submitting | checking | returned _ => exact .none rfl id
  | cancelWait other =>
      refine lambdaStep_set (fun same => .none ?_ id) fun _ => id
      rw [same]
      rcases (state.call other).cancelWait_cases with ⟨_, _, _, ended⟩ | missed
      · rw [ended]
        rfl
      · rw [missed]
        rfl
  | resume other => exact lambdaStep_set (fun same => .none (by rw [same]; rfl) id) fun _ => id
  | funcReturns other value =>
      refine lambdaStep_set (fun same => ?_) fun different same => different same.symm
      subst same
      exact .funcReturns value enabled rfl
  | funcThrows other exception =>
      refine lambdaStep_set (fun same => ?_) fun different same => different same.symm
      subst same
      exact .funcThrows exception enabled rfl
  | handle other exception =>
      refine lambdaStep_set (fun same => ?_) fun _ => id
      subst same
      exact .handle exception enabled rfl
  | store other =>
      refine lambdaStep_set (fun same => ?_) fun _ => id
      subst same
      exact .store enabled rfl
  | notify other =>
      refine lambdaStep_set (fun same => ?_) fun _ => id
      subst same
      refine .notify enabled ?_
      rcases (state.call job).notify_cases setting.kernel setting.supported job with
        ⟨_, woken⟩ | ⟨kept, _⟩
      · rw [woken]
        rfl
      · rw [kept]
        rfl
  | cancel token =>
      refine .none ?_ id
      change ((state.cancel setting token).call job).result = _
      unfold State.cancel
      by_cases before : state.mCanceled token = true
      · rw [if_pos before]
      · rw [if_neg before]
        change ((state.call job).canceled _ _ token).result = _
        rcases (state.call job).canceled_cases (setting.form job) (setting.coCancel job) token
          with ⟨_, _, _, _, _, flagged, _, _⟩ | ⟨_, same⟩
        · rw [flagged]
          rfl
        · rw [same]

/-! ### How func ends -/

/-- Func can still end. -/
def Lambda.chances : Lambda Exception → Nat
  | .uncalled | .calling => 1
  | .caught _ | .storing | .notifying | .ended => 0

variable {actions : List (Action Job Token Value Exception)} {job : Job}

omit [DecidableEq Token] in
theorem LambdaStep.chances {form : Form Token} {action : Action Job Token Value Exception}
    {before after : Call Value Exception} (step : LambdaStep form job action before after) :
    after.lambda.chances + (if action.Ends job then 1 else 0) ≤ before.lambda.chances := by
  cases step with
  | none same idle =>
      have lambda : after.lambda = before.lambda := congrArg Prod.fst same
      rw [if_neg idle, lambda]
      exact Nat.le_refl _
  | take thread uncalled same =>
      have lambda : after.lambda = .calling := congrArg Prod.fst same
      rw [lambda, uncalled]
      exact Nat.le_refl _
  | funcReturns value calling same =>
      have lambda : after.lambda = .storing := congrArg Prod.fst same
      have ends : (Action.funcReturns job value : Action Job Token Value Exception).Ends job := rfl
      rw [if_pos ends, lambda, calling]
      exact Nat.le_refl _
  | funcThrows exception calling same =>
      have lambda : after.lambda = .caught exception := congrArg Prod.fst same
      have ends : (Action.funcThrows job exception :
        Action Job Token Value Exception).Ends job := rfl
      rw [if_pos ends, lambda, calling]
      exact Nat.le_refl _
  | handle exception caught same =>
      have lambda : after.lambda = .storing := congrArg Prod.fst same
      rw [lambda]
      exact Nat.zero_le _
  | store storing same =>
      have lambda : after.lambda = .notifying := congrArg Prod.fst same
      rw [lambda]
      exact Nat.zero_le _
  | notify notifying same =>
      have lambda : after.lambda = .ended := congrArg Prod.fst same
      rw [lambda]
      exact Nat.zero_le _

variable (job) in
theorem ends_once (runs : (machine Value Exception setting).Runs .initial actions) :
    (((machine Value Exception setting).after .initial actions).call job).lambda.chances +
      actions.countP (Action.Ends job ·) ≤ 1 := by
  have bound := Machine.countP_le (Action.Ends job) (fun _ => False)
    (fun state : State Job Token Value Exception => (state.call job).lambda.chances) 0
    (Inv setting) (fun _ _ inv enabled => inv.next enabled)
    (fun state action inv enabled => (next_lambdaStep inv enabled job).chances) .initial runs
  rw [Nat.zero_mul] at bound
  exact bound

theorem exists_funcThrows (runs : (machine Value Exception setting).Runs .initial actions)
    {exception : Exception}
    (caught : (((machine Value Exception setting).after .initial actions).call job).lambda =
      .caught exception) :
    ∃ front back, actions = front ++ .funcThrows job exception :: back := by
  obtain ⟨front, action, back, split, ran, enabled, still, turned⟩ := Machine.exists_turn
    (fun state : State Job Token Value Exception => (state.call job).lambda = .caught exception)
    runs nofun caught
  have step := next_lambdaStep (inv_run ran) enabled job
  change ((next setting _ action).call job).lambda = _ at turned
  cases step with
  | none same _ => exact absurd ((congrArg Prod.fst same).symm.trans turned) still
  | take thread _ same => cases (congrArg Prod.fst same).symm.trans turned
  | funcReturns value _ same => cases (congrArg Prod.fst same).symm.trans turned
  | funcThrows thrown _ same =>
      cases (congrArg Prod.fst same).symm.trans turned
      exact ⟨front, back, split⟩
  | handle _ _ same => cases (congrArg Prod.fst same).symm.trans turned
  | store _ same => cases (congrArg Prod.fst same).symm.trans turned
  | notify _ same => cases (congrArg Prod.fst same).symm.trans turned

/-- What a call has of func once the lambda has dealt with its end. -/
def Ended (form : Form Token) (job : Job) (call : Call Value Exception) :
    Action Job Token Value Exception → Prop
  | .funcReturns other value =>
      other = job ∧ call.ep = none ∧ (form = .run → call.res = some value)
  | .funcThrows other exception => other = job ∧ call.ep = some exception
  | _ => False

omit [DecidableEq Job] [DecidableEq Token] in
theorem Ended.ends {form : Form Token} {call : Call Value Exception}
    {ending : Action Job Token Value Exception} (ended : Ended form job call ending) :
    ending.Ends job := by
  cases ending with
  | funcReturns other value => exact ended.1
  | funcThrows other exception => exact ended.1
  | start _ | pool _ | submitted _ | check _ | compare _ | cancelWait _ | resume _ | handle _ _
  | store _ | notify _ | cancel _ => cases ended

theorem exists_ending (runs : (machine Value Exception setting).Runs .initial actions)
    (handled : (((machine Value Exception setting).after .initial actions).call
      job).lambda.Handled) :
    ∃ front ending back, actions = front ++ ending :: back ∧
      Ended (setting.form job) job
        (((machine Value Exception setting).after .initial actions).call job) ending := by
  let call := ((machine Value Exception setting).after .initial actions).call job
  -- The step after which it has what it has at the end.
  obtain ⟨front, action, back, split, ran, enabled, still, turned⟩ := Machine.exists_turn
    (fun state : State Job Token Value Exception =>
      (state.call job).result.1.Handled ∧ (state.call job).result.2 = (call.ep, call.res))
    runs (fun one => one.1) ⟨handled, rfl⟩
  have inv := inv_run ran
  have step := next_lambdaStep inv enabled job
  change ((next setting _ action).call job).result.1.Handled ∧
    ((next setting _ action).call job).result.2 = _ at turned
  cases step with
  | none same _ =>
      rw [same] at turned
      exact absurd turned still
  | take thread _ same =>
      rw [same] at turned
      cases turned.1
  | funcReturns value calling same =>
      rw [same] at turned
      obtain ⟨ep, res⟩ := Prod.mk.inj turned.2
      refine ⟨front, .funcReturns job value, back, split, rfl, ep.symm.trans (inv.calling calling).2, ?_⟩
      intro run
      rw [run] at res
      exact res.symm
  | funcThrows thrown _ same =>
      rw [same] at turned
      cases turned.1
  | handle exception caught same =>
      rw [same] at turned
      obtain ⟨first, middle, earlier⟩ := exists_funcThrows ran caught
      refine ⟨first, .funcThrows job exception, middle ++ .handle job exception :: back, ?_, rfl,
        (congrArg Prod.fst turned.2).symm⟩
      rw [split, earlier, List.append_assoc, List.cons_append]
  | store storing same =>
      rw [same] at turned
      refine absurd ⟨?_, turned.2⟩ still
      rw [Call.result, storing]
      trivial
  | notify notifying same =>
      rw [same] at turned
      refine absurd ⟨?_, turned.2⟩ still
      rw [Call.result, notifying]
      trivial

/-! ### The cancellation -/

/-- The step cancels the token that the call was given, while the call waits. -/
def Stops (setting : Setting Job Token) (job : Job) (state : State Job Token Value Exception) :
    Action Job Token Value Exception → Prop
  | .cancel token =>
      setting.form job = .rawRunCancel (some token) ∧ state.mCanceled token = false ∧
        ∃ wait, (state.call job).place = .waiting wait
  | _ => False

omit [DecidableEq Token] in
theorem set_stopped {other : Job} {call : Call Value Exception}
    (same : call.stopped = (state.call other).stopped) :
    ((state.set other call).call job).stopped = (state.call job).stopped := by
  change (Function.update state.call other call job).stopped = _
  by_cases own : job = other
  · rw [own, Function.update_self, same]
  · rw [Function.update_of_ne own]

theorem next_stopped (action : Action Job Token Value Exception) :
    ((next setting state action).call job).stopped = true ↔
      (state.call job).stopped = true ∨ Stops setting job state action := by
  have kept : (¬Stops setting job state action) →
      ((next setting state action).call job).stopped = (state.call job).stopped →
      (((next setting state action).call job).stopped = true ↔
        (state.call job).stopped = true ∨ Stops setting job state action) := by
    intro idle same
    rw [same, or_iff_left idle]
  cases action with
  | start other => exact kept id (set_stopped rfl)
  | pool action =>
      cases action with
      | take thread task => exact kept id (set_stopped rfl)
      | submit _ | emplace _ | workOn _ _ | register _ _ | finish _ _ | reset _ _ | remove _ _
      | free _ | unlock _ => exact kept id rfl
  | submitted other => exact kept id (set_stopped rfl)
  | check other =>
      refine kept id (set_stopped ?_)
      unfold Call.check
      by_cases zero : (state.call other).ready = 0
      · rw [if_pos zero]
      · rw [if_neg zero]
  | compare other =>
      refine kept id ?_
      change ((state.compare setting.supported other).call job).stopped = _
      unfold State.compare
      cases (state.call other).place with
      | waiting wait => exact set_stopped rfl
      | outside | submitting | checking | returned _ => rfl
  | cancelWait other =>
      refine kept id (set_stopped ?_)
      rcases (state.call other).cancelWait_cases with ⟨_, _, _, ended⟩ | missed
      · rw [ended]
      · rw [missed]
  | resume other => exact kept id (set_stopped rfl)
  | funcReturns other value => exact kept id (set_stopped rfl)
  | funcThrows other exception => exact kept id (set_stopped rfl)
  | handle other exception => exact kept id (set_stopped rfl)
  | store other => exact kept id (set_stopped rfl)
  | notify other =>
      refine kept id (set_stopped ?_)
      rcases (state.call other).notify_cases setting.kernel setting.supported other with
        ⟨_, woken⟩ | ⟨same, _⟩
      · rw [woken]
      · rw [same]
  | cancel token =>
      change ((state.cancel setting token).call job).stopped = true ↔ _
      unfold State.cancel
      by_cases before : state.mCanceled token = true
      · rw [if_pos before, or_iff_left]
        rintro ⟨_, fresh, _⟩
        rw [before] at fresh
        cases fresh
      · rw [if_neg before]
        change ((state.call job).canceled _ _ token).stopped = true ↔ _
        rcases (state.call job).canceled_cases (setting.form job) (setting.coCancel job) token
          with ⟨wait, _, _, _, waits, flagged, _, stopped⟩ | ⟨awake, same⟩
        · rw [flagged, stopped]
          apply or_congr_right
          constructor
          · intro own
            exact ⟨own, Bool.eq_false_iff.2 before, wait, waits⟩
          · exact And.left
        · rw [same, or_iff_left]
          rintro ⟨_, _, wait, waits⟩
          exact awake wait waits

/-- A call is stopped if its token was cancelled in a step of the run in which it waits. -/
theorem stopped_iff (runs : (machine Value Exception setting).Runs .initial actions) :
    (((machine Value Exception setting).after .initial actions).call job).stopped = true ↔
      ∃ front action back, actions = front ++ action :: back ∧
        Stops setting job ((machine Value Exception setting).after .initial front) action := by
  constructor
  · intro stopped
    obtain ⟨front, action, back, split, _, _, still, turned⟩ := Machine.exists_turn
      (fun state : State Job Token Value Exception => (state.call job).stopped = true)
      runs nofun stopped
    exact ⟨front, action, back, split, ((next_stopped action).1 turned).resolve_left still⟩
  · rintro ⟨front, action, back, rfl, stops⟩
    rw [Machine.after_append]
    have later := (Machine.along_append.1 runs).2
    exact Machine.invariant
      (fun state : State Job Token Value Exception => (state.call job).stopped = true)
      (fun _ action stopped _ => (next_stopped action).2 (.inl stopped))
      ((next_stopped action).2 (.inr stops)) later.2

/-! ### What a call returns -/

/-- What a call of this form returns when func has ended so. -/
def Gives (form : Form Token) (stopped : Bool) (job : Job) :
    Action Job Token Value Exception → Outcome Value Exception → Prop
  | .funcReturns other value, outcome =>
      other = job ∧
        match form with
        | .run => outcome = .value value
        | .rawRun => outcome = .done
        | .rawRunCancel _ => outcome = if stopped then .operationCanceled else .done
  | .funcThrows other exception, outcome => other = job ∧ outcome = .threw exception
  | _, _ => False

omit [DecidableEq Job] [DecidableEq Token] in
theorem Ended.gives {form : Form Token} {call : Call Value Exception}
    {ending : Action Job Token Value Exception} (ended : Ended form job call ending) :
    Gives form call.stopped job ending (call.outcome form) := by
  unfold Call.outcome
  cases ending with
  | funcReturns other value =>
      obtain ⟨same, ep, res⟩ := ended
      refine ⟨same, ?_⟩
      rw [ep]
      cases form with
      | run => simp only [res rfl]
      | rawRun => rfl
      | rawRunCancel cancel => rfl
  | funcThrows other exception =>
      obtain ⟨same, ep⟩ := ended
      refine ⟨same, ?_⟩
      rw [ep]
  | start _ | pool _ | submitted _ | check _ | compare _ | cancelWait _ | resume _ | handle _ _
  | store _ | notify _ | cancel _ => cases ended

/-- The coroutine is there as long as the lambda can get at its locals. When it has returned,
func was called once and has ended in one step, and the call returns what func did, unless
func came back without an exception to a call that had been cancelled in its wait. -/
theorem call_returns_what_func_gave (setting : Setting Job Token)
    (actions : List (Action Job Token Value Exception))
    (runs : (machine Value Exception setting).Runs .initial actions) (job : Job) :
    let state := (machine Value Exception setting).after .initial actions
    ((state.call job).lambda.Borrows → (state.call job).place ≠ .outside ∧
        ∀ outcome, (state.call job).place ≠ .returned outcome) ∧
      ∀ outcome, (state.call job).place = .returned outcome →
        state.pool.executions.count job = 1 ∧ actions.countP (Action.Ends job ·) = 1 ∧
          ∃ front ending back stopped, actions = front ++ ending :: back ∧
            Gives (setting.form job) stopped job ending outcome ∧
            (stopped = true ↔ ∃ before action after, actions = before ++ action :: after ∧
              Stops setting job ((machine Value Exception setting).after .initial before)
                action) := by
  intro state
  have inv : Inv setting state := inv_run runs
  have place := inv.place job
  unfold Call.PlaceFits at place
  constructor
  · intro borrows
    have called : (state.call job).lambda ≠ .uncalled := by
      intro uncalled
      rw [uncalled] at borrows
      exact borrows
    refine ⟨inv.started_of_lambda called, ?_⟩
    intro outcome returned
    rw [returned] at place
    have stored := place.2.1
    cases lambda : (state.call job).lambda with
    | calling | caught _ =>
        rw [lambda] at stored
        exact stored
    | uncalled | storing | notifying | ended =>
        rw [lambda] at borrows
        exact borrows
  · intro outcome returned
    rw [returned] at place
    obtain ⟨_, stored, gave⟩ := place
    have handled : (state.call job).lambda.Handled := by
      cases lambda : (state.call job).lambda with
      | notifying | ended => trivial
      | uncalled | calling | caught _ | storing =>
          rw [lambda] at stored
          cases stored
    obtain ⟨front, ending, back, split, ended⟩ := exists_ending runs handled
    have executed : job ∈ state.pool.executions := by
      by_contra never
      have uncalled := (inv.lambda job).uncalled_iff.2 never
      rw [uncalled] at stored
      exact stored
    refine ⟨List.count_eq_one_of_mem inv.pool.once executed, ?_, front, ending, back,
      (state.call job).stopped, split, ?_, stopped_iff runs⟩
    · have once := ends_once job runs
      have some_ : 0 < actions.countP (Action.Ends job ·) := by
        rw [List.countP_pos_iff]
        refine ⟨ending, ?_, decide_eq_true ended.ends⟩
        rw [split]
        exact List.mem_append_right _ List.mem_cons_self
      omega
    · rw [gave]
      exact ended.gives

/-- The call that was cancelled while it waited. -/
theorem canceledCall_returns :
    let state := (machine Nat Unit oneCall).after .initial canceledCall
    (state.call 0).place = .returned .operationCanceled ∧
      state.pool.executions.count 0 = 1 ∧ canceledCall.countP (Action.Ends 0 ·) = 1 ∧
        ∃ front ending back stopped, canceledCall = front ++ ending :: back ∧
          Gives (oneCall.form 0) stopped 0 ending .operationCanceled ∧
          (stopped = true ↔ ∃ before action after, canceledCall = before ++ action :: after ∧
            Stops oneCall 0 ((machine Nat Unit oneCall).after .initial before) action) :=
  have returned : (((machine Nat Unit oneCall).after .initial canceledCall).call 0).place =
      .returned .operationCanceled := by decide
  ⟨returned, (call_returns_what_func_gave oneCall canceledCall (by decide) 0).2 _ returned⟩

end MCoro.RawRun
