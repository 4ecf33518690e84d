/-
Small coroutines over other tasks: co_bind of co_async/awaiter/task.hpp, and_then of
and_then.hpp, just_void and just_value of just.hpp, co_catch of generic/io_context.hpp,
and the loop over a generator of examples/generator.cpp.

Each is compared with the computation that it stands for; by `coMain_refines` programs
with the same computation run alike.
-/

import MCoro.Awaiter.TaskDiscipline

namespace MCoro.Tasks

variable {Value Exception Operation Answer Memory : Type}

/-- `co_return` of what a co_await of a task gives. -/
def forward : Outcome Value Exception → Body Value Exception Operation Answer Memory
  | .returned result => .coReturn result
  | .threw exception => .throw exception
  | .yielded value => .coReturn (.ok value)

def coBind (callee : Body Value Exception Operation Answer Memory) :
    Body Value Exception Operation Answer Memory :=
  .coAwait false callee forward

def justValue (value : Value) : Body Value Exception Operation Answer Memory :=
  .coReturn (.ok value)

/-- and_then has both tasks as its parameters, and moves from each. -/
def andThen (a f : Body Value Exception Operation Answer Memory) :
    Body Value Exception Operation Answer Memory :=
  .bindTask a <| .bindTask f <| .coAwaitTask false 1 true fun
    | .threw exception => .throw exception
    | _ => .coAwaitTask false 0 true forward

/-- co_catch keeps the task as its parameter and prints its error. -/
def coCatch (unit : Value) (print : ErrorCode → Memory → Memory × Answer)
    (task : Body Value Exception Operation Answer Memory) :
    Body Value Exception Operation Answer Memory :=
  .bindTask task <| .coAwaitTask false 0 false fun
    | .threw exception => .throw exception
    | .returned (.error code) => .access (print code) fun _ => .coReturn (.ok unit)
    | _ => .coReturn (.ok unit)

/-- `while (auto r = co_await co_await g)` over the latest Task variable, for its first
rounds: `each` is what the loop does with a value, `last` what follows it. -/
def whileYields (each : Value → Memory → Memory × Answer)
    (last : Expected Value → Body Value Exception Operation Answer Memory) :
    Nat → Body Value Exception Operation Answer Memory
  | 0 => last (.error .eofError)
  | rounds + 1 => .coAwaitTask true 0 false fun
      | .yielded value => .access (each value) fun _ => whileYields each last rounds
      | .returned result => last result
      | .threw exception => .throw exception

/-! ### What they stand for -/

section

variable {task a b c : Body Value Exception Operation Answer Memory}

def Body.Plain (task : Body Value Exception Operation Answer Memory) : Prop :=
  (task.tree []).Direct ∧ Tree.Lasting (task.tree [])

theorem goOn_forward {outcome : Outcome Value Exception}
    {trees : List (Tree Value Exception Operation Answer Memory)} :
    goOn false (fun outcome => (forward outcome).tree trees) outcome =
      .finish outcome.ended := by
  cases outcome with
  | yielded value => rfl
  | threw exception => rfl
  | returned result => cases result <;> rfl

theorem ended_of_plain {tree : Tree Value Exception Operation Answer Memory}
    (direct : tree.Direct) (lasting : Tree.Lasting tree) :
    (tree.follow fun outcome _ => .finish outcome.ended) = tree := by
  induction lasting with
  | finish unmarked =>
      rename_i outcome
      cases outcome with
      | yielded value => exact absurd rfl unmarked
      | returned result => rfl
      | threw exception => rfl
  | pause => cases direct
  | operate _ ih =>
      cases direct with
      | operate later =>
          change Resumption.operate _ _ = _
          exact congrArg _ (funext fun answer => ih answer (later answer))
  | access _ ih =>
      cases direct with
      | access later =>
          change Resumption.access _ _ = _
          exact congrArg _ (funext fun answer => ih answer (later answer))
  | spawn _ _ _ ih =>
      cases direct with
      | spawn later =>
          change Resumption.spawn _ _ = _
          rw [ih later]
  | wake _ ih =>
      cases direct with
      | wake later =>
          change Resumption.wake _ _ = _
          rw [ih later]

theorem coBind_tree : (coBind task).tree [] = task.thread := by
  change (task.tree []).follow _ = (task.tree []).follow _
  congr 1
  funext outcome _
  exact goOn_forward

theorem andThen_tree :
    (andThen a b).tree [] = (a.tree []).follow fun outcome _ =>
      match outcome with
      | .threw exception => .finish (.threw exception)
      | _ => b.thread := by
  change (a.tree []).follow _ = _
  congr 1
  funext outcome rest
  have second : (Body.coAwaitTask false 0 true forward).tree [b.tree [], .undefined] =
      b.thread := by
    change (b.tree []).follow _ = (b.tree []).follow _
    congr 1
    funext outcome _
    exact goOn_forward
  cases outcome with
  | yielded value => exact second
  | threw exception => rfl
  | returned result => cases result <;> exact second

/-- co_bind adds nothing to a task. -/
theorem coBind_thread (plain : task.Plain) : (coBind task).tree [] = task.tree [] := by
  rw [coBind_tree]
  exact ended_of_plain plain.1 plain.2

theorem thread_ended :
    (c.thread.follow fun outcome _ => .finish outcome.ended) = c.thread := by
  change ((c.tree []).follow _).follow _ = (c.tree []).follow _
  rw [Resumption.follow_follow]
  congr 1
  funext outcome _
  cases outcome <;> rfl

theorem andThen_justValue {value : Value} : (andThen (justValue value) b).tree [] = b.thread := by
  rw [andThen_tree]
  rfl

/-- How and_then is nested does not matter. -/
theorem andThen_assoc :
    (andThen (andThen a b) c).tree [] = (andThen a (andThen b c)).tree [] := by
  have inner : (andThen b c).thread = (b.tree []).follow fun outcome _ =>
      match outcome with
      | .threw exception => .finish (.threw exception)
      | _ => c.thread := by
    change ((andThen b c).tree []).follow _ = _
    rw [andThen_tree, Resumption.follow_follow]
    congr 1
    funext outcome _
    cases outcome with
    | yielded value => exact thread_ended
    | returned result => exact thread_ended
    | threw exception => rfl
  have outer : ∀ outcome : Outcome Value Exception, ∀ after,
      (Resumption.finish outcome.ended : Tree Value Exception Operation Answer Memory).follow
        after = after outcome.ended .undefined := fun _ _ => rfl
  rw [andThen_tree, andThen_tree, andThen_tree, inner, Resumption.follow_follow]
  congr 1
  funext outcome _
  cases outcome with
  | threw exception => rfl
  | yielded value =>
      change ((b.tree []).follow _).follow _ = _
      rw [Resumption.follow_follow]
      congr 1
      funext outcome _
      cases outcome <;> rfl
  | returned result =>
      change ((b.tree []).follow _).follow _ = _
      rw [Resumption.follow_follow]
      congr 1
      funext outcome _
      cases outcome <;> rfl

theorem coCatch_tree {unit : Value} {print : ErrorCode → Memory → Memory × Answer} :
    (coCatch unit print task).tree [] = (task.tree []).follow fun outcome _ =>
      match outcome with
      | .threw exception => .finish (.threw exception)
      | .returned (.error code) => .access (print code) fun _ => .finish (.returned (.ok unit))
      | _ => .finish (.returned (.ok unit)) := by
  change (task.tree []).follow _ = _
  congr 1
  funext outcome _
  cases outcome with
  | yielded value => rfl
  | threw exception => rfl
  | returned result => cases result <;> rfl

/-- No error passes co_catch: one around another has nothing to print. -/
theorem coCatch_coCatch {unit : Value} {print again : ErrorCode → Memory → Memory × Answer} :
    (coCatch unit again (coCatch unit print task)).tree [] =
      (coCatch unit print task).tree [] := by
  rw [coCatch_tree, coCatch_tree, Resumption.follow_follow]
  congr 1
  funext outcome _
  cases outcome with
  | yielded value => rfl
  | threw exception => rfl
  | returned result => cases result <;> rfl

end

/-! ### The loop over a generator -/

/-- The computation of a generator with the body of the loop for each co_yield, and what
follows the loop for its co_return. -/
def drained (each : Value → Memory → Memory × Answer)
    (last : Expected Value → Body Value Exception Operation Answer Memory) :
    Tree Value Exception Operation Answer Memory → Tree Value Exception Operation Answer Memory :=
  Resumption.drain
    (fun outcome rest =>
      match outcome with
      | .yielded value => .access (each value) fun _ => rest
      | _ => .undefined)
    fun outcome =>
      match outcome with
      | .returned (.error code) => .finish (.returned (.error code))
      | .returned (.ok value) => (last (.ok value)).tree [.undefined]
      | .threw exception => .finish (.threw exception)
      | .yielded _ => .undefined

/-- The loop hands every value of a generator to its body once, in order and before the
generator goes on, and what follows it gets the result. -/
theorem whileYields_drains {each : Value → Memory → Memory × Answer}
    {last : Expected Value → Body Value Exception Operation Answer Memory} {rounds : Nat}
    {generator : Body Value Exception Operation Answer Memory}
    (within : (generator.tree []).EndsWithin (fun outcome => outcome.isYield = true) rounds) :
    (Body.bindTask generator (whileYields each last rounds)).tree [] =
      drained each last (generator.tree []) := by
  change (whileYields each last rounds).tree [generator.tree []] = _
  generalize generator.tree [] = tree at within
  induction rounds generalizing tree with
  | zero => cases within
  | succ rounds ih =>
      refine Resumption.follow_eq_drain within ?_ ?_
      · intro outcome unmarked
        cases outcome with
        | yielded value => exact absurd rfl unmarked
        | threw exception => rfl
        | returned result => cases result <;> rfl
      · intro outcome rest mark within'
        cases outcome with
        | threw exception => cases mark
        | returned result => cases mark
        | yielded value =>
            have goesOn := ih rest within'
            change Resumption.access (each value) (fun _ => (whileYields each last rounds).tree [rest]) = _
            rw [goesOn]
            rfl

/-- A generator of two values. -/
def count : Body Nat Unit Unit Unit (List Nat) :=
  .coYield 9 <| .coYield 10 <| .coReturn (.ok 0)

def note (value : Nat) (memory : List Nat) : List Nat × Unit :=
  (memory ++ [value], ())

theorem whileYields_drains_count :
    (Body.bindTask count (whileYields note Body.coReturn 3)).tree [] =
        drained note Body.coReturn (count.tree []) ∧
      drained note Body.coReturn (count.tree []) =
        .access (note 9) fun _ => .access (note 10) fun _ => .finish (.returned (.ok 0)) :=
  ⟨whileYields_drains (.pause rfl (.pause rfl (.finish Bool.false_ne_true))), rfl⟩

/-- The loop awaits its generator as long as it has a value to give. -/
theorem whileYields_disciplined {each : Value → Memory → Memory × Answer}
    {last : Expected Value → Body Value Exception Operation Answer Memory} {fresh : List Bool}
    (given : ∀ result, (last result).Disciplined (false :: fresh))
    (left : (last (.error .eofError)).Disciplined (true :: fresh)) (rounds : Nat) :
    (whileYields each last rounds).Disciplined (true :: fresh) := by
  induction rounds with
  | zero => exact left
  | succ rounds ih =>
      refine ⟨rfl, ?_⟩
      intro outcome
      cases outcome with
      | yielded value => exact fun _ => ih
      | returned result => exact given result
      | threw exception => trivial

end MCoro.Tasks
