/-
Programs of coroutines that never fault.

A task can be awaited until it has given its result, and a generator gives one only
after its values. A body that keeps to this, whatever its tasks come to, keeps a meaning
at every point, and the run time never meets a frame that it must not touch.
-/

import MCoro.Awaiter.TaskRuns

namespace MCoro.Tasks

variable {Value Exception Operation Answer Memory : Type}

/-- A generator can be awaited again behind a value. -/
def Outcome.isYield : Outcome Value Exception → Bool
  | .yielded _ => true
  | .returned _ => false
  | .threw _ => false

/-- Task variables are awaited while they can be; `fresh` tells which can, the latest
variable first. -/
def Body.Disciplined : Body Value Exception Operation Answer Memory → List Bool → Prop
  | .coReturn _, _ => True
  | .throw _, _ => True
  | .coYield _ next, fresh => next.Disciplined fresh
  | .coAwaitExpected _ next, fresh => ∀ value, (next value).Disciplined fresh
  | .coAwaitOperation _ next, fresh => ∀ answer, (next answer).Disciplined fresh
  | .access _ next, fresh => ∀ answer, (next answer).Disciplined fresh
  | .coSpawn task next, fresh => task.Disciplined [] ∧ next.Disciplined fresh
  | .resume _ next, fresh => next.Disciplined fresh
  | .coAwait _ callee next, fresh =>
      callee.Disciplined [] ∧ ∀ outcome, (next outcome).Disciplined fresh
  | .bindTask callee next, fresh => callee.Disciplined [] ∧ next.Disciplined (true :: fresh)
  | .coAwaitTask _ index moved next, fresh =>
      fresh[index]? = some true ∧
        ∀ outcome, (next outcome).Disciplined (fresh.set index (!moved && outcome.isYield))
  | .endScope next, fresh => next.Disciplined fresh.tail

/-- The computation of a task, with its values before its result. -/
abbrev Tree.Lasting (tree : Tree Value Exception Operation Answer Memory) : Prop :=
  Resumption.Lasting (fun outcome => outcome.isYield = true) tree

/-- The variables that can be awaited hold computations that last. -/
def Fresh (fresh : List Bool) (trees : List (Tree Value Exception Operation Answer Memory)) :
    Prop :=
  ∀ index : Nat, fresh[index]? = some true → Tree.Lasting (trees.getD index .undefined)

namespace Fresh

variable {fresh : List Bool} {trees : List (Tree Value Exception Operation Answer Memory)}
  {tree : Tree Value Exception Operation Answer Memory}

theorem nil : Fresh [] ([] : List (Tree Value Exception Operation Answer Memory)) := by
  intro index found
  cases found

theorem cons (all : Fresh fresh trees) (lasting : Tree.Lasting tree) :
    Fresh (true :: fresh) (tree :: trees) := by
  intro index found
  cases index with
  | zero => exact lasting
  | succ index => exact all index found

theorem tail (all : Fresh fresh trees) : Fresh fresh.tail trees.tail := by
  intro index found
  cases fresh with
  | nil => cases found
  | cons first fresh =>
      have lasting := all (index + 1) found
      cases trees with
      | nil => exact lasting
      | cons tree trees => exact lasting

theorem set (all : Fresh fresh trees) {index : Nat} {mark : Bool}
    (there : fresh[index]? = some true) (lasting : mark = true → Tree.Lasting tree) :
    Fresh (fresh.set index mark) (trees.set index tree) := by
  have inside : index < trees.length := by
    by_contra outside
    have missing := all index there
    rw [List.getD_eq_default _ _ (Nat.le_of_not_lt outside)] at missing
    cases missing
  intro other found
  by_cases same : index = other
  · subst other
    rw [List.getElem?_set_self (List.getElem?_eq_some_iff.mp there).1] at found
    rw [List.getD_eq_getElem?_getD, List.getElem?_set_self inside]
    exact lasting (Option.some.inj found)
  · rw [List.getElem?_set_ne same] at found
    have kept := all other found
    rw [List.getD_eq_getElem?_getD] at kept ⊢
    rwa [List.getElem?_set_ne same]

end Fresh

/-- Behind a co_await the body goes on; behind a checked one it may have returned. -/
theorem goOn_lasting {checked : Bool} {outcome : Outcome Value Exception}
    {next : Outcome Value Exception → Tree Value Exception Operation Answer Memory}
    (lasting : Tree.Lasting (next outcome)) : Tree.Lasting (goOn checked next outcome) := by
  cases outcome with
  | yielded value => exact lasting
  | threw exception => exact lasting
  | returned result =>
      cases result with
      | ok value => exact lasting
      | error code =>
          cases checked with
          | true => exact .finish Bool.false_ne_true
          | false => exact lasting

theorem ended_lasting {tree : Tree Value Exception Operation Answer Memory}
    (lasting : Tree.Lasting tree) :
    Tree.Lasting (tree.follow fun outcome _ => .finish outcome.ended) := by
  apply lasting.follow
  intro outcome rest _
  refine .finish ?_
  cases outcome <;> exact Bool.false_ne_true

theorem Body.Disciplined.lasting {body : Body Value Exception Operation Answer Memory}
    {fresh : List Bool} {trees : List (Tree Value Exception Operation Answer Memory)}
    (disciplined : body.Disciplined fresh) (all : Fresh fresh trees) :
    Tree.Lasting (body.tree trees) := by
  induction body generalizing fresh trees with
  | coReturn result => exact .finish Bool.false_ne_true
  | throw exception => exact .finish Bool.false_ne_true
  | coYield value next ih => exact .pause rfl (ih disciplined all)
  | coAwaitExpected expected next ih =>
      cases expected with
      | error code => exact .finish Bool.false_ne_true
      | ok value => exact ih value (disciplined value) all
  | coAwaitOperation operation next ih =>
      exact .operate fun answer => ih answer (disciplined answer) all
  | access change_ next ih => exact .access fun answer => ih answer (disciplined answer) all
  | coSpawn task next ihTask ihNext =>
      exact .spawn (ended_lasting (ihTask disciplined.1 .nil)) (ihNext disciplined.2 all)
  | resume pick next ih => exact .wake (ih disciplined all)
  | coAwait checked callee next ihCallee ihNext =>
      apply (ihCallee disciplined.1 .nil).follow
      intro outcome rest _
      exact goOn_lasting (ihNext outcome (disciplined.2 outcome) all)
  | bindTask callee next ihCallee ihNext =>
      exact ihNext disciplined.2 (all.cons (ihCallee disciplined.1 .nil))
  | coAwaitTask checked index moved next ih =>
      obtain ⟨there, later⟩ := disciplined
      apply (all index there).follow
      intro outcome rest again
      refine goOn_lasting (ih outcome (later outcome) (all.set there ?_))
      intro mark
      cases moved with
      | true => cases mark
      | false => exact again mark
  | endScope next ih => exact ih disciplined all.tail

theorem Body.Disciplined.safe {main : Body Value Exception Operation Answer Memory}
    (disciplined : main.Disciplined []) (memory : Memory) :
    (Resumptions.Pool.start memory main.thread).Safe :=
  Resumptions.Pool.Lasting.safe (.start (ended_lasting (disciplined.lasting .nil)))

/-- A disciplined program never resumes, reads or destroys a frame that it must not. -/
theorem disciplined_runs (memory : Memory)
    (main : Body Value Exception Operation Answer Memory) (disciplined : main.Disciplined [])
    (actions : List (Resumptions.Action Answer)) :
    ∃ runtime, (Runtime.coMain memory main).acts actions = .ok runtime := by
  obtain ⟨_, runtime, _, _, goes, _⟩ :=
    (shows_coMain memory main).acts (disciplined.safe memory) actions
  exact ⟨runtime, goes⟩

/-- A generator of one value, which is awaited for its result too. -/
def awaitTwice : Body Nat Unit Unit Unit Unit :=
  .bindTask (.coYield 1 (.coReturn (.ok 2))) <| .coAwaitTask true 0 false fun
    | .yielded _ => .coAwaitTask true 0 false fun
        | .returned result => .coReturn result
        | .yielded value => .coReturn (.ok value)
        | .threw exception => .throw exception
    | .returned result => .coReturn result
    | .threw exception => .throw exception

theorem awaitTwice_disciplined : awaitTwice.Disciplined [] := by
  refine ⟨trivial, rfl, ?_⟩
  intro outcome
  cases outcome with
  | returned result => trivial
  | threw exception => trivial
  | yielded value =>
      refine ⟨rfl, ?_⟩
      intro outcome
      cases outcome <;> trivial

theorem disciplined_runs_twice :
    ∃ runtime, (Runtime.coMain () awaitTwice).acts (List.replicate 11 .proceed) = .ok runtime ∧
      runtime.log = [.ended (.returned (.ok 2))] := by
  obtain ⟨runtime, goes⟩ :=
    disciplined_runs () awaitTwice awaitTwice_disciplined (List.replicate 11 .proceed)
  have logged : ((Runtime.coMain () awaitTwice).acts (List.replicate 11 .proceed)).map
      Runtime.log = .ok [.ended (.returned (.ok 2))] := by decide +kernel
  rw [goes] at logged
  exact ⟨runtime, goes, Except.ok.inj logged⟩

end MCoro.Tasks
