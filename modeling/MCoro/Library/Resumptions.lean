/-
Computations that can be left and gone on with, and a pool that runs them.

A resumption is a computation as what it does next. `follow` runs it up to its next
reply. A pool runs many of them one at a time: the active ones wait for each other,
the pending ones for the answers of their operations.
-/

import Mathlib.Logic.Function.Basic

namespace MCoro

inductive Resumption (Reply Operation Answer Memory : Type) where
  /-- A computation that is over: to go on with it has no meaning. -/
  | undefined
  | finish (reply : Reply)
  | pause (reply : Reply) (rest : Resumption Reply Operation Answer Memory)
  | operate (operation : Operation)
      (next : Answer → Resumption Reply Operation Answer Memory)
  | access (change : Memory → Memory × Answer)
      (next : Answer → Resumption Reply Operation Answer Memory)
  | spawn (thread next : Resumption Reply Operation Answer Memory)
  | wake (pick : Memory → List Operation → Option (Nat × Answer))
      (next : Resumption Reply Operation Answer Memory)

namespace Resumption

variable {Reply Operation Answer Memory : Type}

/-- Runs up to the next reply; what is left of the computation goes along with it. -/
def follow (after : Reply → Resumption Reply Operation Answer Memory →
      Resumption Reply Operation Answer Memory) :
    Resumption Reply Operation Answer Memory → Resumption Reply Operation Answer Memory
  | .undefined => .undefined
  | .finish reply => after reply .undefined
  | .pause reply rest => after reply rest
  | .operate operation next => .operate operation fun answer => (next answer).follow after
  | .access change next => .access change fun answer => (next answer).follow after
  | .spawn thread next => .spawn thread (next.follow after)
  | .wake pick next => .wake pick (next.follow after)

theorem follow_follow (resumption : Resumption Reply Operation Answer Memory)
    (inner outer : Reply → Resumption Reply Operation Answer Memory →
      Resumption Reply Operation Answer Memory) :
    (resumption.follow inner).follow outer =
      resumption.follow fun reply rest => (inner reply rest).follow outer := by
  induction resumption with
  | undefined => rfl
  | finish reply => rfl
  | pause reply rest _ => rfl
  | operate operation next ih =>
      change operate operation _ = operate operation _
      exact congrArg _ (funext ih)
  | access change_ next ih =>
      change access change_ _ = access change_ _
      exact congrArg _ (funext ih)
  | spawn thread next _ ih =>
      change spawn thread _ = spawn thread _
      rw [ih]
  | wake pick next ih =>
      change wake pick _ = wake pick _
      rw [ih]

inductive Direct : Resumption Reply Operation Answer Memory → Prop
  | undefined : Direct .undefined
  | finish (reply : Reply) : Direct (.finish reply)
  | operate {operation : Operation} {next : Answer → Resumption Reply Operation Answer Memory} :
      (∀ answer, Direct (next answer)) → Direct (.operate operation next)
  | access {change : Memory → Memory × Answer}
      {next : Answer → Resumption Reply Operation Answer Memory} :
      (∀ answer, Direct (next answer)) → Direct (.access change next)
  | spawn {thread next : Resumption Reply Operation Answer Memory} :
      Direct next → Direct (.spawn thread next)
  | wake {pick : Memory → List Operation → Option (Nat × Answer)}
      {next : Resumption Reply Operation Answer Memory} : Direct next → Direct (.wake pick next)

theorem Direct.follow {resumption : Resumption Reply Operation Answer Memory}
    {after : Reply → Resumption Reply Operation Answer Memory →
      Resumption Reply Operation Answer Memory}
    (later : ∀ reply rest, Direct (after reply rest)) : Direct (resumption.follow after) := by
  induction resumption with
  | undefined => exact .undefined
  | finish reply => exact later reply .undefined
  | pause reply rest _ => exact later reply rest
  | operate operation next ih => exact .operate ih
  | access change_ next ih => exact .access ih
  | spawn thread next _ ih => exact .spawn ih
  | wake pick next ih => exact .wake ih

/-- Runs to the end: what it hands back on the way goes to `each`, with what comes of the
rest, and its last reply to `last`. -/
def drain (each : Reply → Resumption Reply Operation Answer Memory →
      Resumption Reply Operation Answer Memory)
    (last : Reply → Resumption Reply Operation Answer Memory) :
    Resumption Reply Operation Answer Memory → Resumption Reply Operation Answer Memory
  | .undefined => .undefined
  | .finish reply => last reply
  | .pause reply rest => each reply (rest.drain each last)
  | .operate operation next => .operate operation fun answer => (next answer).drain each last
  | .access change next => .access change fun answer => (next answer).drain each last
  | .spawn thread next => .spawn thread (next.drain each last)
  | .wake pick next => .wake pick (next.drain each last)

/-- It ends, after fewer than this many replies on the way, and marks these only. -/
inductive EndsWithin (marked : Reply → Prop) :
    Nat → Resumption Reply Operation Answer Memory → Prop
  | finish {rounds : Nat} {reply : Reply} : ¬ marked reply →
      EndsWithin marked (rounds + 1) (.finish reply)
  | pause {rounds : Nat} {reply : Reply} {rest : Resumption Reply Operation Answer Memory} :
      marked reply → EndsWithin marked rounds rest →
      EndsWithin marked (rounds + 1) (.pause reply rest)
  | operate {rounds : Nat} {operation : Operation}
      {next : Answer → Resumption Reply Operation Answer Memory} :
      (∀ answer, EndsWithin marked (rounds + 1) (next answer)) →
      EndsWithin marked (rounds + 1) (.operate operation next)
  | access {rounds : Nat} {change : Memory → Memory × Answer}
      {next : Answer → Resumption Reply Operation Answer Memory} :
      (∀ answer, EndsWithin marked (rounds + 1) (next answer)) →
      EndsWithin marked (rounds + 1) (.access change next)
  | spawn {rounds : Nat} {thread next : Resumption Reply Operation Answer Memory} :
      EndsWithin marked (rounds + 1) next → EndsWithin marked (rounds + 1) (.spawn thread next)
  | wake {rounds : Nat} {pick : Memory → List Operation → Option (Nat × Answer)}
      {next : Resumption Reply Operation Answer Memory} :
      EndsWithin marked (rounds + 1) next → EndsWithin marked (rounds + 1) (.wake pick next)

/-- A loop that follows the computation round by round drains it. -/
theorem follow_eq_drain {marked : Reply → Prop} {rounds : Nat}
    {resumption : Resumption Reply Operation Answer Memory}
    (within : EndsWithin marked rounds resumption)
    {each : Reply → Resumption Reply Operation Answer Memory →
      Resumption Reply Operation Answer Memory}
    {last : Reply → Resumption Reply Operation Answer Memory}
    {after : Reply → Resumption Reply Operation Answer Memory →
      Resumption Reply Operation Answer Memory}
    (ends : ∀ reply, ¬ marked reply → after reply .undefined = last reply)
    (again : ∀ reply rest, marked reply → EndsWithin marked (rounds - 1) rest →
      after reply rest = each reply (rest.drain each last)) :
    resumption.follow after = resumption.drain each last := by
  induction within with
  | finish unmarked => exact ends _ unmarked
  | pause mark within _ => exact again _ _ mark within
  | operate _ ih =>
      change Resumption.operate _ _ = Resumption.operate _ _
      exact congrArg _ (funext fun answer => ih answer again)
  | access _ ih =>
      change Resumption.access _ _ = Resumption.access _ _
      exact congrArg _ (funext fun answer => ih answer again)
  | spawn _ ih =>
      change Resumption.spawn _ _ = Resumption.spawn _ _
      rw [ih again]
  | wake _ ih =>
      change Resumption.wake _ _ = Resumption.wake _ _
      rw [ih again]

/-- It keeps its meaning to its end, where it hands back the replies that are marked and
ends with one that is not. -/
inductive Lasting (marked : Reply → Prop) : Resumption Reply Operation Answer Memory → Prop
  | finish {reply : Reply} : ¬ marked reply → Lasting marked (.finish reply)
  | pause {reply : Reply} {rest : Resumption Reply Operation Answer Memory} :
      marked reply → Lasting marked rest → Lasting marked (.pause reply rest)
  | operate {operation : Operation} {next : Answer → Resumption Reply Operation Answer Memory} :
      (∀ answer, Lasting marked (next answer)) → Lasting marked (.operate operation next)
  | access {change : Memory → Memory × Answer}
      {next : Answer → Resumption Reply Operation Answer Memory} :
      (∀ answer, Lasting marked (next answer)) → Lasting marked (.access change next)
  | spawn {thread next : Resumption Reply Operation Answer Memory} :
      Lasting marked thread → Lasting marked next → Lasting marked (.spawn thread next)
  | wake {pick : Memory → List Operation → Option (Nat × Answer)}
      {next : Resumption Reply Operation Answer Memory} :
      Lasting marked next → Lasting marked (.wake pick next)

theorem Lasting.follow {marked : Reply → Prop}
    {resumption : Resumption Reply Operation Answer Memory}
    {after : Reply → Resumption Reply Operation Answer Memory →
      Resumption Reply Operation Answer Memory}
    (lasting : Lasting marked resumption)
    (later : ∀ reply rest, (marked reply → Lasting marked rest) →
      Lasting marked (after reply rest)) : Lasting marked (resumption.follow after) := by
  induction lasting with
  | finish unmarked => exact later _ _ fun wrong => absurd wrong unmarked
  | pause _ rest _ => exact later _ _ fun _ => rest
  | operate _ ih => exact .operate ih
  | access _ ih => exact .access ih
  | spawn thread _ _ ih => exact .spawn thread ih
  | wake _ ih => exact .wake ih

end Resumption

/-! ### Pools -/

namespace Resumptions

variable (Reply Operation Answer Memory : Type)

inductive Event where
  | began (operation : Operation)
  | ended (reply : Reply)
  deriving DecidableEq, Repr

/-- The running computation goes one step further, or, when none runs, the answer of
a pending operation arrives. -/
inductive Action where
  | proceed
  | complete (index : Nat) (answer : Answer)

variable {Answer} in
def Action.isComplete : Action Answer → Bool
  | .proceed => false
  | .complete _ _ => true

structure Pool where
  memory : Memory
  /-- Each waits for the ones before it. -/
  active : List (Resumption Reply Operation Answer Memory)
  pending : List (Operation × (Answer → Resumption Reply Operation Answer Memory))
  log : List (Event Reply Operation)

end Resumptions

namespace Resumptions.Pool

variable {Reply Operation Answer Memory : Type}

def start (memory : Memory) (thread : Resumption Reply Operation Answer Memory) :
    Pool Reply Operation Answer Memory :=
  { memory, active := [thread], pending := [], log := [] }

/-- A pool whose running computation is undefined does not go on. -/
def proceed (pool : Pool Reply Operation Answer Memory) : Pool Reply Operation Answer Memory :=
  match pool.active with
  | [] => pool
  | .undefined :: _ => pool
  | .pause _ _ :: _ => pool
  | .finish reply :: rest => { pool with active := rest, log := pool.log ++ [.ended reply] }
  | .operate operation next :: rest =>
      { pool with
        active := rest
        pending := pool.pending ++ [(operation, next)]
        log := pool.log ++ [.began operation] }
  | .access change next :: rest =>
      { pool with
        memory := (change pool.memory).1
        active := next (change pool.memory).2 :: rest }
  | .spawn thread next :: rest => { pool with active := thread :: next :: rest }
  | .wake pick next :: rest =>
      match pick pool.memory (pool.pending.map Prod.fst) with
      | none => { pool with active := next :: rest }
      | some (index, answer) =>
          match pool.pending[index]? with
          | none => { pool with active := next :: rest }
          | some (_, woken) =>
              { pool with
                active := woken answer :: next :: rest
                pending := pool.pending.eraseIdx index }

def complete (pool : Pool Reply Operation Answer Memory) (index : Nat) (answer : Answer) :
    Pool Reply Operation Answer Memory :=
  match pool.active, pool.pending[index]? with
  | [], some (_, next) =>
      { pool with active := [next answer], pending := pool.pending.eraseIdx index }
  | _, _ => pool

def act (pool : Pool Reply Operation Answer Memory) :
    Action Answer → Pool Reply Operation Answer Memory
  | .proceed => pool.proceed
  | .complete index answer => pool.complete index answer

def acts (pool : Pool Reply Operation Answer Memory) (actions : List (Action Answer)) :
    Pool Reply Operation Answer Memory :=
  actions.foldl act pool

section

variable {pool : Pool Reply Operation Answer Memory}
  {rest : List (Resumption Reply Operation Answer Memory)}

theorem proceed_idle (active : pool.active = []) : pool.proceed = pool := by
  unfold proceed
  rw [active]

theorem proceed_pause {reply : Reply} {left : Resumption Reply Operation Answer Memory}
    (active : pool.active = .pause reply left :: rest) : pool.proceed = pool := by
  unfold proceed
  rw [active]

theorem proceed_finish {reply : Reply} (active : pool.active = .finish reply :: rest) :
    pool.proceed = { pool with active := rest, log := pool.log ++ [.ended reply] } := by
  unfold proceed
  rw [active]

theorem proceed_operate {operation : Operation}
    {next : Answer → Resumption Reply Operation Answer Memory}
    (active : pool.active = .operate operation next :: rest) :
    pool.proceed = { pool with
      active := rest
      pending := pool.pending ++ [(operation, next)]
      log := pool.log ++ [.began operation] } := by
  unfold proceed
  rw [active]

theorem proceed_access {change_ : Memory → Memory × Answer}
    {next : Answer → Resumption Reply Operation Answer Memory}
    (active : pool.active = .access change_ next :: rest) :
    pool.proceed = { pool with
      memory := (change_ pool.memory).1
      active := next (change_ pool.memory).2 :: rest } := by
  unfold proceed
  rw [active]

theorem proceed_spawn {thread next : Resumption Reply Operation Answer Memory}
    (active : pool.active = .spawn thread next :: rest) :
    pool.proceed = { pool with active := thread :: next :: rest } := by
  unfold proceed
  rw [active]

theorem proceed_wake {pick : Memory → List Operation → Option (Nat × Answer)}
    {next : Resumption Reply Operation Answer Memory}
    (active : pool.active = .wake pick next :: rest) :
    pool.proceed =
      match pick pool.memory (pool.pending.map Prod.fst) with
      | none => { pool with active := next :: rest }
      | some (index, answer) =>
          match pool.pending[index]? with
          | none => { pool with active := next :: rest }
          | some (_, woken) =>
              { pool with
                active := woken answer :: next :: rest
                pending := pool.pending.eraseIdx index } := by
  unfold proceed
  rw [active]

end

def Defined (pool : Pool Reply Operation Answer Memory) : Prop :=
  ∀ rest, pool.active ≠ .undefined :: rest

/-- The pool comes to no computation without a meaning. -/
def Safe (pool : Pool Reply Operation Answer Memory) : Prop :=
  ∀ actions, (pool.acts actions).Defined

theorem Safe.act {pool : Pool Reply Operation Answer Memory} (safe : pool.Safe)
    (action : Action Answer) : (pool.act action).Safe :=
  fun actions => safe (action :: actions)

theorem Safe.defined {pool : Pool Reply Operation Answer Memory} (safe : pool.Safe) :
    pool.Defined :=
  safe []

/-- Every computation of the pool keeps its meaning to its end. -/
structure Lasting (marked : Reply → Prop) (pool : Pool Reply Operation Answer Memory) : Prop where
  active : ∀ resumption ∈ pool.active, resumption.Lasting marked
  pending : ∀ operation next, (operation, next) ∈ pool.pending →
    ∀ answer, (next answer).Lasting marked

section

variable {marked : Reply → Prop} {pool : Pool Reply Operation Answer Memory}

theorem Lasting.proceed (lasting : pool.Lasting marked) : pool.proceed.Lasting marked := by
  obtain ⟨runs, waits⟩ := lasting
  cases found : pool.active with
  | nil =>
      rw [proceed_idle found]
      exact ⟨runs, waits⟩
  | cons first rest =>
      rw [found] at runs
      obtain ⟨first_, others⟩ := List.forall_mem_cons.mp runs
      cases first_ with
      | finish _ =>
          rw [proceed_finish found]
          exact ⟨others, waits⟩
      | pause _ _ =>
          rw [proceed_pause found]
          exact ⟨found ▸ runs, waits⟩
      | operate later =>
          rw [proceed_operate found]
          refine ⟨others, ?_⟩
          intro operation next member
          rcases List.mem_append.mp member with old | new
          · exact waits operation next old
          · cases List.mem_singleton.mp new
            exact later
      | access later =>
          rw [proceed_access found]
          exact ⟨List.forall_mem_cons.mpr ⟨later _, others⟩, waits⟩
      | spawn thread next =>
          rw [proceed_spawn found]
          exact ⟨List.forall_mem_cons.mpr ⟨thread, List.forall_mem_cons.mpr ⟨next, others⟩⟩, waits⟩
      | @wake pick next lasting =>
          rw [proceed_wake found]
          have on := List.forall_mem_cons.mpr ⟨lasting, others⟩
          cases pick pool.memory (pool.pending.map Prod.fst) with
          | none => exact ⟨on, waits⟩
          | some picked =>
              obtain ⟨index, answer⟩ := picked
              cases there : pool.pending[index]? with
              | none =>
                  simp only [there]
                  exact ⟨on, waits⟩
              | some waiting =>
                  obtain ⟨operation, woken⟩ := waiting
                  simp only [there]
                  refine ⟨List.forall_mem_cons.mpr ⟨?_, on⟩, ?_⟩
                  · exact waits operation woken (List.mem_of_getElem? there) answer
                  · intro other further member
                    exact waits other further (List.mem_of_mem_eraseIdx member)

theorem Lasting.complete (lasting : pool.Lasting marked) (index : Nat) (answer : Answer) :
    (pool.complete index answer).Lasting marked := by
  unfold Pool.complete
  split
  · rename_i operation next idle there
    refine ⟨List.forall_mem_singleton.mpr ?_, ?_⟩
    · exact lasting.pending operation next (List.mem_of_getElem? there) answer
    · intro other further member
      exact lasting.pending other further (List.mem_of_mem_eraseIdx member)
  · exact lasting

theorem Lasting.safe (lasting : pool.Lasting marked) : pool.Safe := by
  intro actions
  have kept : (pool.acts actions).Lasting marked := by
    unfold Pool.acts
    induction actions generalizing pool with
    | nil => exact lasting
    | cons action rest ih =>
        apply ih
        cases action with
        | proceed => exact lasting.proceed
        | complete index answer => exact lasting.complete index answer
  intro rest active
  have first := kept.active .undefined (active ▸ List.mem_cons_self)
  cases first

theorem Lasting.start {memory : Memory} {thread : Resumption Reply Operation Answer Memory}
    (lasting : thread.Lasting marked) : (Pool.start memory thread).Lasting marked :=
  ⟨List.forall_mem_singleton.mpr lasting, fun _ _ member => by cases member⟩

end

end Resumptions.Pool

end MCoro
