/-
The constructors, the assignments and the destructor of co_async/utils/expected.hpp.

An Expected says by a null mErrorCatgory that the T of its union lives. The constructors
and destructor of T itself are not under its control: any construction can throw. Every
T that is built in an Expected, and every std::destroy_at of one, is followed through
any sequence of operations on any number of objects.
-/

import MCoro.Library.Leases
import MCoro.Library.Machine

namespace MCoro

open Leases

namespace ExpectedLifetime

/-- A std::error_category, by its address. -/
abbrev ErrorCategory := Nat

/-- A T in a union and, what no code reads, how many were built before it. -/
structure Value (T : Type) where
  value : T
  serial : Nat
  deriving DecidableEq, Repr

/-- The member of the union that lives. -/
inductive Member (T : Type) where
  | none
  | mValue (value : Value T)
  | mErrorCode (code : Int)
  deriving DecidableEq, Repr

structure Object (T : Type) where
  mErrorCatgory : Option ErrorCategory
  member : Member T
  deriving DecidableEq, Repr

/-- What a constructor of T makes, if it does not throw, and what it leaves of the T that it
was given. -/
structure Construction (T : Type) where
  made : Option T
  left : T → T

variable {T : Type}

namespace Object

def hasValue (object : Object T) : Bool :=
  object.mErrorCatgory.isNone

def errorCode (object : Object T) : Int :=
  match object.member with
  | .mErrorCode code => code
  | _ => 0

def leave (left : T → T) (object : Object T) : Object T :=
  match object.member with
  | .mValue value => { object with member := .mValue { value with value := left value.value } }
  | _ => object

/-- The T that lives in the Expected at that address. -/
def lease (address : Nat) (object : Object T) : Option (Lease Nat) :=
  match object.member with
  | .mValue value => some ⟨address, value.serial⟩
  | _ => none

/-- mErrorCatgory tells which member lives, and so what the destructor has to do. -/
def Handled (object : Object T) : Prop :=
  match object.mErrorCatgory, object.member with
  | none, .mValue _ => True
  | some _, .mErrorCode _ => True
  | _, _ => False

end Object

/-- `values` and `strays` are for the proofs: the Ts that were built and destroyed, by the
address of the Expected around them, and the calls of destroy_at where none lived. -/
structure State (T : Type) where
  objects : Nat → Option (Object T) := fun _ => none
  values : Registry Nat := {}
  strays : Nat := 0

namespace State

def set (state : State T) (address : Nat) (object : Option (Object T)) : State T :=
  { state with objects := Function.update state.objects address object }

def leave (state : State T) (that : Nat) (left : T → T) : State T :=
  state.set that ((state.objects that).map (Object.leave left))

/-- `std::destroy_at(std::addressof(mValue))`. -/
def destroyAt (state : State T) (address : Nat) (object : Object T) : State T × Object T :=
  match object.member with
  | .mValue value =>
      ({ state with values := state.values.giveBack ⟨address, value.serial⟩ },
        { object with member := .none })
  | _ => ({ state with strays := state.strays + 1 }, object)

def destroyValue (state : State T) (address : Nat) (object : Object T) : State T × Object T :=
  if object.hasValue then state.destroyAt address object else (state, object)

/-- `std::construct_at(std::addressof(mValue), ...)`. An exception leaves all as it is. -/
def constructAt (state : State T) (address : Nat) (object : Object T) : Option T → State T
  | some made =>
      { state with values := state.values.issue address }.set address
        (some { object with member := .mValue ⟨made, state.values.issued⟩ })
  | none => state

end State

/-! ### The members -/

/-- The constructors that build mValue from their arguments. -/
def construct (state : State T) (address : Nat) (made : Option T) : State T :=
  state.constructAt address { mErrorCatgory := none, member := .none } made

/-- The constructors from a std::error_code and from a std::errc. -/
def constructError (state : State T) (address : Nat) (category : ErrorCategory) (code : Int) :
    State T :=
  state.set address (some { mErrorCatgory := some category, member := .mErrorCode code })

/-- `Expected(Expected<U> that)`, with the error of that. -/
def convert (state : State T) (address : Nat) (made : Option T) :
    Option (ErrorCategory × Int) → State T
  | none => construct state address made
  | some (category, code) => constructError state address category code

def constructFrom (state : State T) (address that : Nat) (construction : Construction T) :
    State T :=
  match state.objects that with
  | none => state
  | some source =>
      match source.mErrorCatgory with
      | none => construct (state.leave that construction.left) address construction.made
      | some category => constructError state address category source.errorCode

def moveConstruct (state : State T) (address that : Nat) (construction : Construction T) :
    State T :=
  constructFrom state address that construction

def copyConstruct (state : State T) (address that : Nat) (made : Option T) : State T :=
  constructFrom state address that { made := made, left := id }

/-- The category is null before the construction, which may throw. -/
def assign (state : State T) (address that : Nat) (construction : Construction T) : State T :=
  if that = address then state
  else
    match state.objects address, state.objects that with
    | some object, some source =>
        let (state, object) := state.destroyValue address object
        let object := { object with mErrorCatgory := none }
        match source.mErrorCatgory with
        | none =>
            ((state.set address (some object)).leave that construction.left).constructAt address
              object construction.made
        | some category => constructError state address category source.errorCode
    | _, _ => state

def moveAssign (state : State T) (address that : Nat) (construction : Construction T) : State T :=
  assign state address that construction

def copyAssign (state : State T) (address that : Nat) (made : Option T) : State T :=
  assign state address that { made := made, left := id }

/-- `~Expected`. -/
def destroy (state : State T) (address : Nat) : State T :=
  match state.objects address with
  | none => state
  | some object => (state.destroyValue address object).1.set address none

/-! ### The steps -/

inductive Action (T : Type) where
  | construct (address : Nat) (made : Option T)
  | constructError (address : Nat) (category : ErrorCategory) (code : Int)
  | convert (address : Nat) (made : Option T) (error : Option (ErrorCategory × Int))
  | moveConstruct (address that : Nat) (construction : Construction T)
  | copyConstruct (address that : Nat) (made : Option T)
  | moveAssign (address that : Nat) (construction : Construction T)
  | copyAssign (address that : Nat) (made : Option T)
  | destroy (address : Nat)

/-- Objects are built in free memory and used while they live. -/
def Enabled (state : State T) : Action T → Prop
  | .construct address _ => state.objects address = none
  | .constructError address _ _ => state.objects address = none
  | .convert address _ _ => state.objects address = none
  | .moveConstruct address that _ => state.objects address = none ∧ (state.objects that).isSome
  | .copyConstruct address that _ => state.objects address = none ∧ (state.objects that).isSome
  | .moveAssign address that _ => (state.objects address).isSome ∧ (state.objects that).isSome
  | .copyAssign address that _ => (state.objects address).isSome ∧ (state.objects that).isSome
  | .destroy address => (state.objects address).isSome

def next (state : State T) : Action T → State T
  | .construct address made => construct state address made
  | .constructError address category code => constructError state address category code
  | .convert address made error => convert state address made error
  | .moveConstruct address that construction => moveConstruct state address that construction
  | .copyConstruct address that made => copyConstruct state address that made
  | .moveAssign address that construction => moveAssign state address that construction
  | .copyAssign address that made => copyAssign state address that made
  | .destroy address => destroy state address

def machine (T : Type) : Machine (State T) (Action T) where
  initial := {}
  Enabled := Enabled
  next := next

/-- A T is built in an assignment, unless that throws. -/
def Builds (state : State T) (address that : Nat) (made : Option T) : Prop :=
  that ≠ address → (state.objects that).any Object.hasValue → made.isSome

/-- No construction of a T throws in an assignment. -/
def AssignmentBuilds (state : State T) : Action T → Prop
  | .moveAssign address that construction => Builds state address that construction.made
  | .copyAssign address that made => Builds state address that made
  | _ => True

/-! ### What the steps do to the Ts -/

def State.held (state : State T) : Holdings Nat Nat :=
  fun address => (state.objects address).bind (Object.lease address)

structure Inv (state : State T) : Prop where
  sound : Sound state.values state.held
  strays : state.strays = 0
  handled : ∀ address object, state.objects address = some object → object.Handled

/-- In an operation on the Expected at that address, while no T lives in it. -/
structure Open (state : State T) (address : Nat) : Prop where
  sound : Sound state.values state.held
  strays : state.strays = 0
  handled : ∀ other object, other ≠ address → state.objects other = some object → object.Handled
  empty : state.held address = none

variable {state : State T} {address that : Nat}

theorem held_set (state : State T) (address : Nat) (object : Option (Object T)) :
    (state.set address object).held =
      Function.update state.held address (object.bind (Object.lease address)) := by
  funext other
  exact Function.apply_update (fun address kept => kept.bind (Object.lease address))
    state.objects address object other

theorem number_of_held {lease : Lease Nat} (holds : state.held address = some lease) :
    lease.number = address := by
  obtain ⟨object, _, leased⟩ := Option.bind_eq_some_iff.1 holds
  unfold Object.lease at leased
  cases member : object.member with
  | none | mErrorCode code =>
      rw [member] at leased
      cases leased
  | mValue value =>
      rw [member] at leased
      rw [← Option.some.inj leased]

theorem lease_leave (left : T → T) (address : Nat) (object : Object T) :
    (object.leave left).lease address = object.lease address := by
  obtain ⟨mErrorCatgory, member⟩ := object
  cases member with
  | none | mValue value | mErrorCode code => rfl

theorem handled_cases {object : Object T} (handled : object.Handled) :
    (∃ value, object = { mErrorCatgory := none, member := .mValue value }) ∨
      ∃ category code, object = { mErrorCatgory := some category, member := .mErrorCode code } := by
  obtain ⟨mErrorCatgory, member⟩ := object
  cases mErrorCatgory with
  | none =>
      cases member with
      | none | mErrorCode code => exact absurd handled not_false
      | mValue value => exact .inl ⟨value, rfl⟩
  | some category =>
      cases member with
      | none | mValue value => exact absurd handled not_false
      | mErrorCode code => exact .inr ⟨category, code, rfl⟩

theorem handled_leave (left : T → T) (object : Object T) :
    (object.leave left).Handled ↔ object.Handled := by
  obtain ⟨mErrorCatgory, member⟩ := object
  cases mErrorCatgory with
  | none | some category =>
      cases member with
      | none | mValue value | mErrorCode code => rfl

theorem held_leave (state : State T) (that : Nat) (left : T → T) :
    (state.leave that left).held = state.held := by
  unfold State.leave
  rw [held_set]
  have same : ((state.objects that).map (Object.leave left)).bind (Object.lease that) =
      state.held that := by
    change _ = (state.objects that).bind _
    cases state.objects that with
    | none => rfl
    | some object => exact lease_leave left that object
  rw [same, Function.update_eq_self]

theorem before_leave {left : T → T} {object : Object T}
    (found : (state.leave that left).objects address = some object) :
    ∃ before, state.objects address = some before ∧ (object.Handled ↔ before.Handled) := by
  change Function.update _ _ _ _ = _ at found
  by_cases same : address = that
  · subst same
    rw [Function.update_self] at found
    obtain ⟨before, there, rfl⟩ := Option.map_eq_some_iff.1 found
    exact ⟨before, there, handled_leave left before⟩
  · rw [Function.update_of_ne same] at found
    exact ⟨object, found, Iff.rfl⟩

theorem Inv.leave (inv : Inv state) (that : Nat) (left : T → T) : Inv (state.leave that left) := by
  constructor
  case sound =>
    rw [held_leave]
    exact inv.sound
  case strays => exact inv.strays
  case handled =>
    intro address object found
    obtain ⟨before, there, same⟩ := before_leave found
    exact same.2 (inv.handled address before there)

theorem Open.leave (opened : Open state address) (that : Nat) (left : T → T) :
    Open (state.leave that left) address := by
  constructor
  case sound =>
    rw [held_leave]
    exact opened.sound
  case strays => exact opened.strays
  case handled =>
    intro other object different found
    obtain ⟨before, there, same⟩ := before_leave found
    exact same.2 (opened.handled other before different there)
  case empty =>
    rw [held_leave]
    exact opened.empty

theorem Inv.begin (inv : Inv state) (free : state.objects address = none) : Open state address where
  sound := inv.sound
  strays := inv.strays
  handled other object _ found := inv.handled other object found
  empty := by
    change (state.objects address).bind _ = none
    rw [free]
    rfl

theorem Open.handled_set (opened : Open state address) {object : Object T}
    (handled : object.Handled) {other : Nat} {found : Object T}
    (there : Function.update state.objects address (some object) other = some found) :
    found.Handled := by
  by_cases same : other = address
  · subst same
    rw [Function.update_self] at there
    rw [← Option.some.inj there]
    exact handled
  · rw [Function.update_of_ne same] at there
    exact opened.handled other found same there

theorem Open.construct (opened : Open state address) {object : Object T}
    (null : object.mErrorCatgory = none) (made : T) :
    Inv (state.constructAt address object (some made)) := by
  have unused : state.values.current address = none := by
    by_contra current
    obtain ⟨serial, current⟩ := Option.ne_none_iff_exists'.1 current
    obtain ⟨owner, holds⟩ := (opened.sound.agrees ⟨address, serial⟩).1 current
    rw [← number_of_held holds] at holds
    rw [opened.empty] at holds
    cases holds
  constructor
  case sound =>
    change Sound (state.values.issue address) (State.set _ address _).held
    rw [held_set]
    exact opened.sound.issue unused opened.empty
  case strays => exact opened.strays
  case handled =>
    intro other found there
    refine opened.handled_set ?_ there
    unfold Object.Handled
    rw [null]
    trivial

theorem Open.constructError (opened : Open state address) (category : ErrorCategory) (code : Int) :
    Inv (constructError state address category code) := by
  constructor
  case sound =>
    change Sound state.values (state.set address _).held
    rw [held_set]
    change Sound state.values (Function.update state.held address none)
    rw [← opened.empty, Function.update_eq_self]
    exact opened.sound
  case strays => exact opened.strays
  case handled =>
    intro other found there
    have handled : ({ mErrorCatgory := some category, member := .mErrorCode code } :
        Object T).Handled := trivial
    exact opened.handled_set handled there

theorem constructError_set (state : State T) (address : Nat) (category : ErrorCategory) (code : Int)
    (object : Option (Object T)) :
    constructError (state.set address object) address category code =
      constructError state address category code := by
  unfold ExpectedLifetime.constructError State.set
  rw [Function.update_idem]

theorem Open.end (opened : Open state address) (gone : state.objects address = none) :
    Inv state where
  sound := opened.sound
  strays := opened.strays
  handled other object found := by
    apply opened.handled other object _ found
    rintro rfl
    rw [gone] at found
    cases found

theorem objects_destroyValue (state : State T) (address : Nat) (object : Object T) :
    (state.destroyValue address object).1.objects = state.objects := by
  unfold State.destroyValue State.destroyAt
  cases object.hasValue with
  | false => rfl
  | true =>
      cases object.member with
      | none | mValue value | mErrorCode code => rfl

theorem Inv.destroyValue (inv : Inv state) {object : Object T}
    (found : state.objects address = some object) {kept : Option (Object T)}
    (empty : kept.bind (Object.lease address) = none) :
    Open ((state.destroyValue address object).1.set address kept) address := by
  have held : state.held address = object.lease address := by
    change (state.objects address).bind _ = _
    rw [found]
    rfl
  constructor
  case sound =>
    rw [held_set, empty]
    rcases handled_cases (inv.handled address object found) with ⟨value, rfl⟩ | ⟨category, code, rfl⟩
    · exact inv.sound.giveBack held
    · have without : state.held address = none := held
      change Sound state.values (Function.update state.held address none)
      rw [← without, Function.update_eq_self]
      exact inv.sound
  case strays =>
    rcases handled_cases (inv.handled address object found) with ⟨value, rfl⟩ | ⟨category, code, rfl⟩
    · exact inv.strays
    · exact inv.strays
  case handled =>
    intro other there different at_
    have before : state.objects other = some there := by
      rw [← at_, ← objects_destroyValue state address object]
      exact (Function.update_of_ne different ..).symm
    exact inv.handled other there before
  case empty => rw [held_set, empty, Function.update_self]

theorem lease_destroyValue {object : Object T} (handled : object.Handled) (state : State T)
    (address : Nat) : (state.destroyValue address object).2.lease address = none := by
  rcases handled_cases handled with ⟨value, rfl⟩ | ⟨category, code, rfl⟩
  · rfl
  · rfl

theorem Inv.construct (inv : Inv state) (free : state.objects address = none) (made : Option T) :
    Inv (construct state address made) := by
  cases made with
  | none => exact inv
  | some made => exact (inv.begin free).construct rfl made

theorem Inv.constructFrom (inv : Inv state) (free : state.objects address = none)
    (that : Nat) (construction : Construction T) :
    Inv (constructFrom state address that construction) := by
  unfold ExpectedLifetime.constructFrom
  cases there : state.objects that with
  | none => exact inv
  | some source =>
      dsimp only
      cases source.mErrorCatgory with
      | none =>
          have free' : (state.leave that construction.left).objects address = none := by
            by_cases same : address = that
            · rw [← same, free] at there
              cases there
            · exact (Function.update_of_ne same ..).trans free
          exact (inv.leave that construction.left).construct free' construction.made
      | some category => exact (inv.begin free).constructError category _

theorem Inv.destroy (inv : Inv state) (address : Nat) : Inv (destroy state address) := by
  unfold ExpectedLifetime.destroy
  cases found : state.objects address with
  | none => exact inv
  | some object => exact (inv.destroyValue found rfl).end (Function.update_self ..)

theorem Inv.assign (inv : Inv state) (alive : (state.objects address).isSome)
    (construction : Construction T) (builds : Builds state address that construction.made) :
    Inv (assign state address that construction) := by
  unfold ExpectedLifetime.assign
  by_cases self : that = address
  · rw [if_pos self]
    exact inv
  · rw [if_neg self]
    obtain ⟨object, found⟩ := Option.isSome_iff_exists.1 alive
    rw [found]
    cases there : state.objects that with
    | none => exact inv
    | some source =>
        dsimp only
        have empty := lease_destroyValue (inv.handled address object found) state address
        cases null : source.mErrorCatgory with
        | none =>
            have value : (state.objects that).any Object.hasValue := by
              rw [there]
              change source.mErrorCatgory.isNone
              rw [null]
              rfl
            obtain ⟨made, construction_⟩ := Option.isSome_iff_exists.1 (builds self value)
            dsimp only
            rw [construction_]
            have opened : Open ((state.destroyValue address object).1.set address
                (some { (state.destroyValue address object).2 with mErrorCatgory := none }))
                address := inv.destroyValue found empty
            exact (opened.leave that construction.left).construct rfl made
        | some category =>
            dsimp only
            rw [← constructError_set _ _ _ _ none]
            exact (inv.destroyValue found rfl).constructError category _

/-- An Expected that was assigned to when the construction threw. -/
theorem not_handled_of_throw (inv : Inv state) (alive : (state.objects address).isSome)
    {construction : Construction T} (throws : ¬Builds state address that construction.made) :
    ∃ object, (assign state address that construction).objects address = some object ∧
      ¬object.Handled := by
  obtain ⟨different, throws⟩ := Classical.not_imp.1 throws
  obtain ⟨value, throws⟩ := Classical.not_imp.1 throws
  have made := Option.not_isSome_iff_eq_none.1 throws
  obtain ⟨object, found⟩ := Option.isSome_iff_exists.1 alive
  obtain ⟨source, there, null⟩ := (Option.any_eq_true ..).1 value
  have empty := lease_destroyValue (inv.handled address object found) state address
  refine ⟨{ (state.destroyValue address object).2 with mErrorCatgory := none }, ?_, ?_⟩
  · unfold assign
    rw [if_neg different, found, there]
    dsimp only
    rw [Option.isNone_iff_eq_none.1 null, made]
    exact (Function.update_of_ne (Ne.symm different) ..).trans (Function.update_self ..)
  · intro handled
    unfold Object.Handled at handled
    unfold Object.lease at empty
    dsimp only at handled
    cases member : (state.destroyValue address object).2.member with
    | none | mErrorCode code =>
        rw [member] at handled
        exact handled
    | mValue value =>
        rw [member] at empty
        cases empty

theorem Inv.next (inv : Inv state) {action : Action T} (enabled : Enabled state action)
    (builds : AssignmentBuilds state action) : Inv (next state action) := by
  cases action with
  | construct address made => exact inv.construct enabled made
  | constructError address category code => exact (inv.begin enabled).constructError category code
  | convert address made error =>
      cases error with
      | none => exact inv.construct enabled made
      | some error => exact (inv.begin enabled).constructError error.1 error.2
  | moveConstruct address that construction => exact inv.constructFrom enabled.1 that construction
  | copyConstruct address that made => exact inv.constructFrom enabled.1 that _
  | moveAssign address that construction => exact inv.assign enabled.1 construction builds
  | copyAssign address that made => exact inv.assign enabled.1 _ builds
  | destroy address => exact inv.destroy address

theorem inv_initial : Inv (machine T).initial where
  sound := sound_initial
  strays := rfl
  handled _ _ found := absurd found.symm (Option.some_ne_none _)

/-! ### Runs -/

/-- Every T that was built is destroyed once or lives in one Expected, nothing else is destroyed
as a T, and the destructor of every Expected has what it goes by. Where no Expected is left,
every T is destroyed. -/
structure Destroyed (state : State T) : Prop where
  kept : Kept state.values state.held
  strays : state.strays = 0
  handled : ∀ address object, state.objects address = some object → object.Handled
  finished : (∀ address, state.objects address = none) →
    ∀ serial < state.values.issued, state.values.timesReturned serial = 1

theorem Inv.destroyed (inv : Inv state) : Destroyed state := by
  have kept := inv.sound.kept
  constructor
  case kept => exact kept
  case strays => exact inv.strays
  case handled => exact inv.handled
  case finished =>
    intro noObject serial built
    rcases kept.once serial built with ⟨once, _⟩ | ⟨_, address, ⟨lease, holds, _⟩, _⟩
    · exact once
    · change (state.objects address).bind _ = _ at holds
      rw [noObject address] at holds
      cases holds

/-- The Ts are destroyed as they should in every state of a run just where none of its
assignments throws. -/
theorem destroyed_iff_builds (actions : List (Action T))
    (runs : (machine T).Runs (machine T).initial actions) :
    (∀ front back, actions = front ++ back →
      Destroyed ((machine T).after (machine T).initial front)) ↔
      (machine T).Along AssignmentBuilds (machine T).initial actions := by
  apply Machine.forall_front_iff_along Inv (fun _ _ inv enabled builds => inv.next enabled builds)
    (fun _ inv => inv.destroyed)
  case breaks =>
    intro state action inv enabled fails destroyed
    cases action with
    | moveAssign address that construction =>
        obtain ⟨object, found, bad⟩ := not_handled_of_throw inv enabled.1 fails
        exact bad (destroyed.handled address object found)
    | copyAssign address that made =>
        have throws : ¬Builds state address that ({ made := made, left := id } :
            Construction T).made := fails
        obtain ⟨object, found, bad⟩ := not_handled_of_throw inv enabled.1 throws
        exact bad (destroyed.handled address object found)
    | _ => exact fails trivial
  case start => exact inv_initial
  case runs => exact runs

instance decidableEnabled (state : State T) (action : Action T) :
    Decidable ((machine T).Enabled state action) := by
  cases action <;> unfold machine Enabled <;> infer_instance

/-- A value over an error, an error over a value, and a constructor that throws. -/
theorem destroyed_iff_builds_mixed :
    (machine Nat).Runs (machine Nat).initial
        [.construct 0 (some 5), .constructError 1 0 104, .copyAssign 1 0 (some 5),
          .convert 2 none (some (0, 32)), .moveAssign 0 2 ⟨none, id⟩, .copyConstruct 3 1 none,
          .destroy 1, .destroy 0, .destroy 2] ∧
      ∀ front back,
        [.construct 0 (some 5), .constructError 1 0 104, .copyAssign 1 0 (some 5),
          .convert 2 none (some (0, 32)), .moveAssign 0 2 ⟨none, id⟩, .copyConstruct 3 1 none,
          .destroy 1, .destroy 0, .destroy 2] = front ++ back →
        Destroyed ((machine Nat).after (machine Nat).initial front) := by
  refine ⟨by decide, (destroyed_iff_builds _ (by decide)).2 ?_⟩
  refine ⟨trivial, trivial, fun _ _ => rfl, trivial, ?_, trivial, trivial, trivial, trivial,
    trivial⟩
  intro _ filled
  cases filled

/-- A copy throws in an assignment. The destructor then destroys a T which is not there. -/
theorem not_destroyed_throw :
    (machine Nat).Runs (machine Nat).initial
        [.construct 0 (some 5), .construct 1 (some 6), .copyAssign 0 1 none, .destroy 0] ∧
      ¬Destroyed ((machine Nat).after (machine Nat).initial
        [.construct 0 (some 5), .construct 1 (some 6), .copyAssign 0 1 none, .destroy 0]) := by
  constructor
  · decide
  · intro destroyed
    have strays := destroyed.strays
    cases strays

end ExpectedLifetime

end MCoro
