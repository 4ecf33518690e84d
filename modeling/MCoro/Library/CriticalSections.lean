/-
Objects whose data is touched in critical sections only.

A section is what a party does between the acquisition of a lock and its release, one
access to the data a step. Where no two parties are inside at once, the parties can
tell nothing from an object whose operations take effect at one instant each.
-/

import MCoro.Library.Refinement

namespace MCoro

inductive Critical (Data Result : Type) where
  | leave (result : Result)
  /-- One access: what it makes of the data, and how the code goes on with what it saw. -/
  | touch (change : Data → Data) (next : Data → Critical Data Result)

namespace Critical

variable {Data Result : Type}

def run : Critical Data Result → Data → Data × Result
  | .leave result, data => (data, result)
  | .touch change next, data => (next data).run (change data)

def isTouch : Critical Data Result → Bool
  | .leave _ => false
  | .touch _ _ => true

def change : Critical Data Result → Data → Data
  | .leave _, data => data
  | .touch change _, data => change data

def behind : Critical Data Result → Data → Critical Data Result
  | .leave result, _ => .leave result
  | .touch _ next, data => next data

theorem run_behind (code : Critical Data Result) (data : Data) :
    (code.behind data).run (code.change data) = code.run data := by
  cases code <;> rfl

end Critical

/-- The operations of an object, and what each may return without an effect. -/
structure Guarded (Operation Data Result : Type) where
  code : Operation → Critical Data Result
  Quits : Operation → Result → Prop

namespace Guarded

variable {Party Operation Data Result : Type}

def apply (object : Guarded Operation Data Result) (operation : Operation) (data : Data) :
    Data × Result :=
  (object.code operation).run data

inductive Event (Party Operation Result : Type) where
  | called (party : Party) (operation : Operation)
  | returned (party : Party) (result : Result)
  deriving DecidableEq, Repr

/-! ### At one instant -/

inductive Stage (Operation Result : Type) where
  | outside
  | called (operation : Operation)
  | done (result : Result)
  deriving DecidableEq, Repr

structure Instant (Party Operation Data Result : Type) where
  data : Data
  stage : Party → Stage Operation Result

inductive Act (Party Operation Result : Type) where
  | call (party : Party) (operation : Operation)
  | takeEffect (party : Party)
  | quit (party : Party) (result : Result)
  | giveBack (party : Party)

namespace Instant

def initial (data : Data) : Instant Party Operation Data Result :=
  { data, stage := fun _ => .outside }

variable [DecidableEq Party]

def put (state : Instant Party Operation Data Result) (party : Party)
    (stage : Stage Operation Result) : Instant Party Operation Data Result :=
  { state with stage := Function.update state.stage party stage }

@[simp] theorem put_data (state : Instant Party Operation Data Result) (party : Party)
    (stage : Stage Operation Result) : (state.put party stage).data = state.data :=
  rfl

theorem put_self {state : Instant Party Operation Data Result} {party : Party}
    {stage : Stage Operation Result} (there : state.stage party = stage) :
    state.put party stage = state := by
  unfold put
  rw [← there, Function.update_eq_self]

@[simp] theorem put_stage (state : Instant Party Operation Data Result) (party : Party)
    (stage : Stage Operation Result) :
    (state.put party stage).stage = Function.update state.stage party stage :=
  rfl

end Instant

variable [DecidableEq Party]

/-- The object without sections, which parties call at will. -/
def instantly (object : Guarded Operation Data Result) (data : Data) :
    Machine (Instant Party Operation Data Result) (Act Party Operation Result) where
  initial := .initial data
  Enabled state
    | .call party _ => state.stage party = .outside
    | .takeEffect party => ∃ operation, state.stage party = .called operation
    | .quit party result =>
        ∃ operation, state.stage party = .called operation ∧ object.Quits operation result
    | .giveBack party => ∃ result, state.stage party = .done result
  next state
    | .call party operation => state.put party (.called operation)
    | .takeEffect party =>
        match state.stage party with
        | .called operation =>
            { state with data := (object.apply operation state.data).1 }.put party
              (.done (object.apply operation state.data).2)
        | _ => state
    | .quit party result => state.put party (.done result)
    | .giveBack party => state.put party .outside

def Instant.shown (state : Instant Party Operation Data Result) :
    Act Party Operation Result → Option (Event Party Operation Result)
  | .call party operation => some (.called party operation)
  | .takeEffect _ => none
  | .quit _ _ => none
  | .giveBack party =>
      match state.stage party with
      | .done result => some (.returned party result)
      | _ => none

omit [DecidableEq Party] in
theorem Instant.shown_giveBack {state : Instant Party Operation Data Result} {party : Party}
    {result : Result} (done : state.stage party = .done result) :
    state.shown (.giveBack party : Act Party Operation Result) = some (.returned party result) := by
  simp only [Instant.shown, done]

theorem next_takeEffect {object : Guarded Operation Data Result} {data : Data}
    {state : Instant Party Operation Data Result} {party : Party} {operation : Operation}
    (called : state.stage party = .called operation) :
    (object.instantly data).next state (.takeEffect party) =
      { state with data := (object.apply operation state.data).1 }.put party
        (.done (object.apply operation state.data).2) := by
  unfold instantly
  simp only [called]

/-- The operations that take effect, with their results. -/
def Instant.effect (object : Guarded Operation Data Result)
    (state : Instant Party Operation Data Result) :
    Act Party Operation Result → Option (Operation × Result)
  | .takeEffect party =>
      match state.stage party with
      | .called operation => some (operation, (object.apply operation state.data).2)
      | _ => none
  | _ => none

/-- The rule for what the operations come to one after the other: their effects in a run
are what a serial execution of them gives. -/
theorem effects_serve (object : Guarded Operation Data Result) (data : Data)
    {Serves : Data → List (Operation × Result) → Data → Prop} (nil : ∀ data, Serves data [] data)
    (cons : ∀ operation data rest last, Serves (object.apply operation data).1 rest last →
      Serves data ((operation, (object.apply operation data).2) :: rest) last)
    (acts : List (Act Party Operation Result)) (state : Instant Party Operation Data Result) :
    Serves state.data
      ((object.instantly data).history (Instant.effect object) state acts)
      ((object.instantly data).after state acts).data := by
  induction acts generalizing state with
  | nil => exact nil state.data
  | cons act rest ih =>
      rw [Machine.history_cons]
      cases act with
      | call party operation => exact ih (state.put party (.called operation))
      | quit party result => exact ih (state.put party (.done result))
      | giveBack party => exact ih (state.put party .outside)
      | takeEffect party =>
          change Serves _ (_ ++ _) ((object.instantly data).after
            ((object.instantly data).next state (.takeEffect party)) rest).data
          by_cases called : ∃ operation, state.stage party = .called operation
          · obtain ⟨operation, called⟩ := called
            have seen : Instant.effect object state (.takeEffect party) =
                some (operation, (object.apply operation state.data).2) := by
              simp only [Instant.effect, called]
            rw [seen, next_takeEffect called]
            apply cons
            exact ih ({ state with data := (object.apply operation state.data).1 }.put party
              (.done (object.apply operation state.data).2))
          · have seen : Instant.effect object state (.takeEffect party) = none := by
              unfold Instant.effect
              cases stage : state.stage party with
              | called operation => exact absurd ⟨operation, stage⟩ called
              | outside => simp only [stage]
              | done result => simp only [stage]
            have same : (object.instantly data).next state (.takeEffect party) = state := by
              unfold instantly
              cases stage : state.stage party with
              | called operation => exact absurd ⟨operation, stage⟩ called
              | outside => simp only [stage]
              | done result => simp only [stage]
            rw [seen, same]
            exact ih state

/-! ### In sections -/

inductive Place (Operation Data Result : Type) where
  | outside
  | called (operation : Operation)
  | inside (code : Critical Data Result)
  | done (result : Result)

def Place.IsInside : Place Operation Data Result → Prop
  | .inside _ => True
  | _ => False

instance (place : Place Operation Data Result) : Decidable place.IsInside :=
  match place with
  | .outside => isFalse id
  | .called _ => isFalse id
  | .inside _ => isTrue trivial
  | .done _ => isFalse id

structure Sections (Party Operation Data Result : Type) where
  data : Data
  place : Party → Place Operation Data Result

inductive Move (Party Operation Result : Type) where
  | call (party : Party) (operation : Operation)
  | enter (party : Party)
  | touch (party : Party)
  | leave (party : Party)
  | quit (party : Party) (result : Result)
  | giveBack (party : Party)

namespace Sections

def initial (data : Data) : Sections Party Operation Data Result :=
  { data, place := fun _ => .outside }

def put (state : Sections Party Operation Data Result) (party : Party)
    (place : Place Operation Data Result) : Sections Party Operation Data Result :=
  { state with place := Function.update state.place party place }

@[simp] theorem put_data (state : Sections Party Operation Data Result) (party : Party)
    (place : Place Operation Data Result) : (state.put party place).data = state.data :=
  rfl

@[simp] theorem put_place (state : Sections Party Operation Data Result) (party : Party)
    (place : Place Operation Data Result) :
    (state.put party place).place = Function.update state.place party place :=
  rfl

end Sections

/-- The object with its sections, of which no two are under way. -/
def inSections (object : Guarded Operation Data Result) (data : Data) :
    Machine (Sections Party Operation Data Result) (Move Party Operation Result) where
  initial := .initial data
  Enabled state
    | .call party _ => state.place party = .outside
    | .enter party =>
        (∃ operation, state.place party = .called operation) ∧
          ∀ other, ¬(state.place other).IsInside
    | .touch party => ∃ code, state.place party = .inside code ∧ code.isTouch = true
    | .leave party => ∃ result, state.place party = .inside (.leave result)
    | .quit party result =>
        ∃ operation, state.place party = .called operation ∧ object.Quits operation result
    | .giveBack party => ∃ result, state.place party = .done result
  next state
    | .call party operation => state.put party (.called operation)
    | .enter party =>
        match state.place party with
        | .called operation => state.put party (.inside (object.code operation))
        | _ => state
    | .touch party =>
        match state.place party with
        | .inside code =>
            { state with data := code.change state.data }.put party
              (.inside (code.behind state.data))
        | _ => state
    | .leave party =>
        match state.place party with
        | .inside (.leave result) => state.put party (.done result)
        | _ => state
    | .quit party result => state.put party (.done result)
    | .giveBack party => state.put party .outside

def Sections.shown (state : Sections Party Operation Data Result) :
    Move Party Operation Result → Option (Event Party Operation Result)
  | .call party operation => some (.called party operation)
  | .giveBack party =>
      match state.place party with
      | .done result => some (.returned party result)
      | _ => none
  | _ => none

section

variable {object : Guarded Operation Data Result} {data : Data}
  {state : Sections Party Operation Data Result} {party : Party}

theorem next_enter {operation : Operation} (called : state.place party = .called operation) :
    (object.inSections data).next state (.enter party) =
      state.put party (.inside (object.code operation)) := by
  unfold inSections
  simp only [called]

theorem next_touch {code : Critical Data Result} (inside : state.place party = .inside code) :
    (object.inSections data).next state (.touch party) =
      { state with data := code.change state.data }.put party
        (.inside (code.behind state.data)) := by
  unfold inSections
  simp only [inside]

theorem next_leave {result : Result} (inside : state.place party = .inside (.leave result)) :
    (object.inSections data).next state (.leave party) = state.put party (.done result) := by
  unfold inSections
  simp only [inside]

omit [DecidableEq Party] in
theorem Sections.shown_giveBack {result : Result} (done : state.place party = .done result) :
    state.shown (.giveBack party : Move Party Operation Result) =
      some (.returned party result) := by
  simp only [Sections.shown, done]

end

/-- A party in its section has still to do what the operation does at once. -/
def Fits (object : Guarded Operation Data Result) (data data' : Data) :
    Place Operation Data Result → Stage Operation Result → Prop
  | .outside, .outside => True
  | .called operation, .called operation' => operation = operation'
  | .inside code, .called operation => code.run data = object.apply operation data'
  | .done result, .done result' => result = result'
  | _, _ => False

structure Agree (object : Guarded Operation Data Result)
    (state : Sections Party Operation Data Result)
    (instant : Instant Party Operation Data Result) : Prop where
  one : ∀ party other, (state.place party).IsInside → (state.place other).IsInside →
    party = other
  free : (∀ party, ¬(state.place party).IsInside) → state.data = instant.data
  each : ∀ party, Fits object state.data instant.data (state.place party) (instant.stage party)

section

variable {object : Guarded Operation Data Result} {data data' : Data}
  {state : Sections Party Operation Data Result}
  {instant : Instant Party Operation Data Result}

omit [DecidableEq Party] in
theorem Agree.initial : Agree object (.initial data : Sections Party Operation Data Result)
    (.initial data) :=
  ⟨fun _ _ wrong => wrong.elim, fun _ => rfl, fun _ => trivial⟩

/-- The data matters to a party in its section only. -/
theorem Fits.elsewhere {place : Place Operation Data Result} {stage : Stage Operation Result}
    (fits : Fits object data data' place stage) (outside : ¬place.IsInside) (last last' : Data) :
    Fits object last last' place stage := by
  cases place with
  | inside code => exact absurd trivial outside
  | outside => cases stage <;> exact fits
  | called operation => cases stage <;> exact fits
  | done result => cases stage <;> exact fits

theorem Agree.put (agree : Agree object state instant) {party : Party}
    (outside : ¬(state.place party).IsInside) {place : Place Operation Data Result}
    {stage : Stage Operation Result} (still : ¬place.IsInside)
    (fits : Fits object state.data instant.data place stage) :
    Agree object (state.put party place) (instant.put party stage) := by
  have same : ∀ other, ((state.put party place).place other).IsInside ↔
      (state.place other).IsInside := by
    intro other
    by_cases here : other = party
    · subst other
      simp [still, outside]
    · simp [here]
  constructor
  case one =>
    intro other another inside inside'
    exact agree.one other another ((same other).mp inside) ((same another).mp inside')
  case free =>
    intro nobody
    exact agree.free fun other inside => nobody other ((same other).mpr inside)
  case each =>
    intro other
    by_cases here : other = party
    · subst other
      simpa using fits
    · simpa [here] using agree.each other

/-- A party does something while no other is inside. -/
theorem Agree.alone (agree : Agree object state instant) {party : Party}
    (others : ∀ other, other ≠ party → ¬(state.place other).IsInside)
    {place : Place Operation Data Result} {stage : Stage Operation Result}
    (fits : Fits object data data' place stage) (left : ¬place.IsInside → data = data') :
    Agree object ({ state with data := data }.put party place)
      ({ instant with data := data' }.put party stage) := by
  have only : ∀ other, (({ state with data := data }.put party place).place other).IsInside →
      other = party := by
    intro other inside
    by_contra away
    simp only [Sections.put_place, Function.update_of_ne away] at inside
    exact others other away inside
  constructor
  case one =>
    intro other another inside inside'
    rw [only other inside, only another inside']
  case free =>
    intro nobody
    apply left
    intro inside
    apply nobody party
    simpa using inside
  case each =>
    intro other
    by_cases here : other = party
    · subst other
      simpa using fits
    · have kept := (agree.each other).elsewhere (others other here) data data'
      simpa [here] using kept

omit [DecidableEq Party] in
theorem Agree.others (agree : Agree object state instant) {party : Party}
    (inside : (state.place party).IsInside) :
    ∀ other, other ≠ party → ¬(state.place other).IsInside :=
  fun other away inside' => away (agree.one other party inside' inside)

omit [DecidableEq Party] in
theorem Agree.stage_outside (agree : Agree object state instant) {party : Party}
    (away : state.place party = .outside) : instant.stage party = .outside := by
  have fits := agree.each party
  rw [away] at fits
  cases found : instant.stage party with
  | outside => rfl
  | called operation => rw [found] at fits; cases fits
  | done result => rw [found] at fits; cases fits

omit [DecidableEq Party] in
theorem Agree.stage_called (agree : Agree object state instant) {party : Party}
    {operation : Operation} (called : state.place party = .called operation) :
    instant.stage party = .called operation := by
  have fits := agree.each party
  rw [called] at fits
  cases found : instant.stage party with
  | outside => rw [found] at fits; cases fits
  | called operation' =>
      rw [found] at fits
      exact congrArg Stage.called (Eq.symm fits)
  | done result => rw [found] at fits; cases fits

omit [DecidableEq Party] in
theorem Agree.stage_inside (agree : Agree object state instant) {party : Party}
    {code : Critical Data Result} (inside : state.place party = .inside code) :
    ∃ operation, instant.stage party = .called operation ∧
      code.run state.data = object.apply operation instant.data := by
  have fits := agree.each party
  rw [inside] at fits
  cases found : instant.stage party with
  | outside => rw [found] at fits; cases fits
  | called operation =>
      rw [found] at fits
      exact ⟨operation, rfl, fits⟩
  | done result => rw [found] at fits; cases fits

omit [DecidableEq Party] in
theorem Agree.stage_done (agree : Agree object state instant) {party : Party} {result : Result}
    (done : state.place party = .done result) : instant.stage party = .done result := by
  have fits := agree.each party
  rw [done] at fits
  cases found : instant.stage party with
  | outside => rw [found] at fits; cases fits
  | called operation => rw [found] at fits; cases fits
  | done result' =>
      rw [found] at fits
      exact congrArg Stage.done (Eq.symm fits)

theorem Agree.next (agree : Agree object state instant) {move : Move Party Operation Result}
    (enabled : (object.inSections data).Enabled state move) :
    Machine.Answers (object.instantly data') Instant.shown
      (Agree object ((object.inSections data).next state move)) instant (state.shown move) := by
  cases move with
  | call party operation =>
      have away : state.place party = .outside := enabled
      apply Machine.Answers.step (.call party operation)
      case enabled => exact agree.stage_outside away
      case shows => rfl
      case related => exact agree.put (away ▸ id) id rfl
  | enter party =>
      obtain ⟨⟨operation, called⟩, nobody⟩ := enabled
      have same := agree.free nobody
      rw [next_enter called]
      apply Machine.Answers.stays
      have entered : Agree object (state.put party (.inside (object.code operation)))
          (instant.put party (.called operation)) := by
        apply agree.alone fun other _ => nobody other
        case fits => exact congrArg (object.code operation).run same
        case left => exact fun _ => same
      rwa [Instant.put_self (agree.stage_called called)] at entered
  | touch party =>
      obtain ⟨code, inside, _⟩ := enabled
      obtain ⟨operation, called, rest⟩ := agree.stage_inside inside
      rw [next_touch inside]
      apply Machine.Answers.stays
      have touched : Agree object
          ({ state with data := code.change state.data }.put party
            (.inside (code.behind state.data)))
          (instant.put party (.called operation)) := by
        apply agree.alone (agree.others (inside ▸ trivial))
        case fits => exact (code.run_behind state.data).trans rest
        case left => exact fun out => absurd trivial out
      rwa [Instant.put_self called] at touched
  | leave party =>
      obtain ⟨result, inside⟩ := enabled
      obtain ⟨operation, called, rest⟩ := agree.stage_inside inside
      rw [next_leave inside]
      apply Machine.Answers.step (.takeEffect party)
      case enabled => exact ⟨operation, called⟩
      case shows => rfl
      case related =>
        rw [next_takeEffect called, ← rest]
        exact agree.alone (agree.others (inside ▸ trivial)) rfl fun _ => rfl
  | quit party result =>
      obtain ⟨operation, called, quits⟩ := enabled
      apply Machine.Answers.step (.quit party result)
      case enabled => exact ⟨operation, agree.stage_called called, quits⟩
      case shows => rfl
      case related => exact agree.put (called ▸ id) id rfl
  | giveBack party =>
      obtain ⟨result, done⟩ := enabled
      have done' := agree.stage_done done
      apply Machine.Answers.step (.giveBack party)
      case enabled => exact ⟨result, done'⟩
      case shows => rw [Sections.shown_giveBack done, Instant.shown_giveBack done']
      case related => exact agree.put (done ▸ id) id trivial

end

section

variable {object : Guarded Operation Data Result} {data : Data}
  {state : Sections Party Operation Data Result}
  {instant : Instant Party Operation Data Result} {party : Party}

def Sections.Busy (state : Sections Party Operation Data Result) : Prop :=
  ∃ party, (state.place party).IsInside

theorem busy_put {place : Place Operation Data Result}
    (same : place.IsInside ↔ (state.place party).IsInside) :
    (state.put party place).Busy ↔ state.Busy := by
  apply exists_congr
  intro other
  by_cases here : other = party
  · subst other
    simpa using same
  · simp [here]

theorem busy_enter (enabled : (object.inSections data).Enabled state (.enter party)) :
    ((object.inSections data).next state (.enter party)).Busy := by
  obtain ⟨⟨operation, called⟩, _⟩ := enabled
  rw [next_enter called]
  refine ⟨party, ?_⟩
  simp [Place.IsInside]

theorem not_busy_leave (agree : Agree object state instant)
    (enabled : (object.inSections data).Enabled state (.leave party)) :
    ¬((object.inSections data).next state (.leave party)).Busy := by
  obtain ⟨result, inside⟩ := enabled
  rw [next_leave inside]
  rintro ⟨other, inside'⟩
  by_cases here : other = party
  · subst other
    simp [Place.IsInside] at inside'
  · simp only [Sections.put_place, Function.update_of_ne here] at inside'
    exact agree.others (inside ▸ trivial) other here inside'

theorem busy_touch (enabled : (object.inSections data).Enabled state (.touch party)) :
    ((object.inSections data).next state (.touch party)).Busy ↔ state.Busy := by
  obtain ⟨code, inside, _⟩ := enabled
  rw [next_touch inside]
  apply busy_put
  simp [inside, Place.IsInside]

end

end Guarded

end MCoro
