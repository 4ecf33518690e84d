/-
Which descendants of a bound task hold its token, or that of a source under it.

The token of a task is a function of its position and of the token at the root
(`tokenAt`), so the tree is gone after one induction over it; the rest follows the
links of one position.
-/

import MCoro.Awaiter.TaskLocals

namespace MCoro.TaskLocals

def Link.HandsDown : Link → Prop
  | .coAwait category _ => category = .rvalue ∨ category = .constLvalue
  | .coBind => True
  | .whenAll _ => False
  | .whenAny _ => True

instance (link : Link) : Decidable link.HandsDown := by
  cases link <;> unfold Link.HandsDown <;> infer_instance

/-- The bound task still has its token when it runs. -/
def Launch.Keeps : Launch → Prop
  | .resumed => True
  | .awaited category caller _ =>
      category = .rvalue ∨ category = .constLvalue → caller.mCancelToken = some .bound

instance (launch : Launch) : Decidable launch.Keeps := by
  cases launch <;> unfold Launch.Keeps <;> infer_instance

/-- The source is the bound one or registered, through other sources, under it. -/
inductive Registered (events : List Event) : CancelSource → Prop where
  | bound : Registered events .bound
  | nested {position : Position} {parent : CancelSource} (registered : Registered events parent)
      (constructed : .constructed position (some parent) ∈ events) :
      Registered events (.whenAny position)

/-- The token is that of the bound source, or of a registered one which a when_any
between the bound task and the position has constructed. -/
def Carries (events : List Event) (position : Position) (token : CancelToken) : Prop :=
  ∃ source, token = some source ∧ Registered events source ∧
    (source = .bound ∨
      ∃ index between, source = .whenAny between ∧ .whenAny index :: between <:+ position)

/-! ### The token of a position -/

/-- The token after one more link, below the position `here`. -/
def Link.hand (here : Position) (token : CancelToken) : Link → CancelToken
  | .coAwait category _ => (awaitTransform { mCancelToken := token } category {}).mCancelToken
  | .coBind => token
  | .whenAll _ => none
  | .whenAny _ => some (.whenAny here)

def tokenAt (root : CancelToken) : Position → CancelToken
  | [] => root
  | link :: here => link.hand here (tokenAt root here)

theorem Launch.keeps_iff (launch : Launch) :
    launch.Keeps ↔ (launch.locals (bind (some .bound) {})).mCancelToken = some .bound := by
  cases launch with
  | resumed => exact ⟨fun _ => rfl, fun _ => trivial⟩
  | awaited category caller above =>
      unfold Keeps locals
      cases category <;> simp [awaitTransform, bind]

theorem Launch.token_ne_whenAny (launch : Launch) (position : Position) :
    (launch.locals (bind (some .bound) {})).mCancelToken ≠ some (.whenAny position) := by
  cases launch with
  | resumed => nofun
  | awaited category caller above =>
      cases category with
      | rvalue | constLvalue => exact above position
      | lvalue | constRvalue => nofun

variable {root : CancelToken}

theorem mem_children {count : Nat} {events : Fin count → List Event} {event : Event} :
    event ∈ (List.finRange count).flatMap events ↔ ∃ i, event ∈ events i := by
  simp

theorem hand_coAwait {self : TaskPromiseLocal} {here : Position}
    (holds : self.mCancelToken = tokenAt root here) (category : ValueCategory) (index : Nat) :
    (awaitTransform self category {}).mCancelToken =
      tokenAt root (.coAwait category index :: here) := by
  cases category with
  | rvalue | constLvalue => exact holds
  | lvalue | constRvalue => rfl

/-! ### The place of an event -/

/-- An event at or below `here` has the token of its position, and every when_any on
the way from `here` to it has constructed its source. -/
structure Placed (root : CancelToken) (events : List Event) (here : Position) (event : Event) : Prop where
  below : here <:+ event.position
  token : event.token = tokenAt root event.position
  constructed : ∀ index between, .whenAny index :: between <:+ event.position →
    here <:+ between → .constructed between (tokenAt root between) ∈ events

theorem Placed.own {events : List Event} {here : Position} {event : Event}
    (own : event.position = here) (token : event.token = tokenAt root here) :
    Placed root events here event := by
  subst own
  constructor
  · exact List.suffix_refl _
  · exact token
  · intro index between onTheWay above
    have long := onTheWay.length_le
    have short := above.length_le
    rw [List.length_cons] at long
    omega

/-- Two links on the way to one position, the first not above the place of the second. -/
theorem link_below {first second : Link} {upper here position : Position}
    (firstOn : first :: upper <:+ position) (secondOn : second :: here <:+ position)
    (above : here <:+ upper) : (first = second ∧ upper = here) ∨ second :: here <:+ upper := by
  rcases List.suffix_or_suffix_of_suffix secondOn firstOn with inside | outside
  · rcases List.suffix_cons_iff.1 inside with same | below
    · cases same
      exact .inl ⟨rfl, rfl⟩
    · exact .inr below
  · have long := outside.length_le
    have short := above.length_le
    rw [List.length_cons, List.length_cons] at long
    have same : here = upper := above.eq_of_length (by omega)
    subst same
    have whole := outside.eq_of_length rfl
    cases whole
    exact .inl ⟨rfl, rfl⟩

theorem Placed.lift {events inner : List Event} {link : Link} {here : Position} {event : Event}
    (placed : Placed root inner (link :: here) event) (included : ∀ other ∈ inner, other ∈ events)
    (source : ∀ index, link = .whenAny index → .constructed here (tokenAt root here) ∈ events) :
    Placed root events here event := by
  constructor
  · exact (List.suffix_cons ..).trans placed.below
  · exact placed.token
  · intro index between onTheWay above
    rcases link_below onTheWay placed.below above with ⟨isLink, isHere⟩ | deeper
    · rw [isHere]
      exact source index isLink.symm
    · exact included _ (placed.constructed index between onTheWay deeper)

theorem run_placed (task : Task) {here : Position} {self : TaskPromiseLocal}
    (holds : self.mCancelToken = tokenAt root here) {event : Event}
    (member : event ∈ task.run here self) : Placed root (task.run here self) here event := by
  induction task generalizing here self with
  | coroutine count category child ih =>
      unfold Task.run at member ⊢
      rcases List.mem_cons.1 member with isHead | isBelow
      · subst isHead
        exact Placed.own rfl holds
      · rcases mem_children.1 isBelow with ⟨i, fromChild⟩
        apply (ih i (hand_coAwait holds (category i) i) fromChild).lift
        · intro other inside
          exact List.mem_cons_of_mem _ (mem_children.2 ⟨i, inside⟩)
        · nofun
  | coBind inner ih =>
      unfold Task.run at member ⊢
      have handed : (awaitTransform self .rvalue {}).mCancelToken = tokenAt root (.coBind :: here) :=
        holds
      apply (ih handed member).lift
      · intro other inside
        exact inside
      · nofun
  | whenAll count child ih =>
      unfold Task.run at member ⊢
      rcases mem_children.1 member with ⟨i, fromChild⟩
      have dropped : (whenAllHelper {}).mCancelToken = tokenAt root (.whenAll i :: here) := rfl
      apply (ih i dropped fromChild).lift
      · intro other inside
        exact mem_children.2 ⟨i, inside⟩
      · nofun
  | whenAny count child ih =>
      unfold Task.run at member ⊢
      rcases List.mem_cons.1 member with isHead | isBelow
      · subst isHead
        exact Placed.own rfl holds
      · rcases mem_children.1 isBelow with ⟨i, fromChild⟩
        have bound : (awaitTransform (awaitTransform (whenAllHelper
            (bind (some (.whenAny here)) {})) .rvalue {}) .rvalue {}).mCancelToken =
            tokenAt root (.whenAny i :: here) := rfl
        apply (ih i bound fromChild).lift
        · intro other inside
          exact List.mem_cons_of_mem _ (mem_children.2 ⟨i, inside⟩)
        · intro index isAny
          rw [← holds]
          exact List.mem_cons_self

/-! ### Sources under the bound one -/

section Tree

variable {events : List Event}

theorem Carries.cons {here : Position} {token : CancelToken} (carries : Carries events here token)
    (link : Link) : Carries events (link :: here) token := by
  rcases carries with ⟨source, isSource, registered, isBound | ⟨index, between, isAny, onTheWay⟩⟩
  · exact ⟨source, isSource, registered, .inl isBound⟩
  · exact ⟨source, isSource, registered,
      .inr ⟨index, between, isAny, onTheWay.trans (List.suffix_cons ..)⟩⟩

theorem tokenAt_coAwait {category : ValueCategory} {index : Nat} {here : Position}
    (hands : (Link.coAwait category index).HandsDown) :
    tokenAt root (.coAwait category index :: here) = tokenAt root here := by
  rcases hands with isRvalue | isConst
  · subst isRvalue
    rfl
  · subst isConst
    rfl

theorem tokenAt_dropped {link : Link} {here : Position} (drops : ¬link.HandsDown) :
    tokenAt root (link :: here) = none := by
  cases link with
  | coAwait category index =>
      cases category with
      | rvalue => exact absurd (.inl rfl) drops
      | constLvalue => exact absurd (.inr rfl) drops
      | lvalue | constRvalue => rfl
  | coBind => exact absurd trivial drops
  | whenAll index => rfl
  | whenAny index => exact absurd trivial drops

/-- Every when_any on the way to the position has constructed its source. -/
def Constructs (root : CancelToken) (events : List Event) (position : Position) : Prop :=
  ∀ index between, .whenAny index :: between <:+ position →
    .constructed between (tokenAt root between) ∈ events

theorem Constructs.above {link : Link} {here : Position}
    (constructs : Constructs root events (link :: here)) : Constructs root events here := by
  intro index between onTheWay
  exact constructs index between (onTheWay.trans (List.suffix_cons ..))

theorem Constructs.last {index : Nat} {here : Position} {parent : CancelSource}
    (constructs : Constructs root events (.whenAny index :: here))
    (isParent : tokenAt root here = some parent) : .constructed here (some parent) ∈ events := by
  rw [← isParent]
  exact constructs index here (List.suffix_refl _)

theorem carries_of_handsDown {position : Position}
    (constructs : Constructs (some .bound) events position)
    (hands : ∀ link ∈ position, link.HandsDown) :
    Carries events position (tokenAt (some .bound) position) := by
  induction position with
  | nil => exact ⟨.bound, rfl, .bound, .inl rfl⟩
  | cons link here ih =>
      have handsHere : ∀ other ∈ here, other.HandsDown := by
        intro other member
        exact hands other (List.mem_cons_of_mem _ member)
      have carries := ih constructs.above handsHere
      have handsLink := hands link List.mem_cons_self
      cases link with
      | coAwait category index =>
          rw [tokenAt_coAwait handsLink]
          exact carries.cons _
      | coBind => exact carries.cons _
      | whenAll index => cases handsLink
      | whenAny index =>
          rcases carries with ⟨parent, isParent, registered, _⟩
          have made := constructs.last isParent
          exact ⟨.whenAny here, rfl, .nested registered made,
            .inr ⟨index, here, rfl, List.suffix_refl _⟩⟩

/-- Without the bound token at the root, or below a link that drops the token, no
source is registered under the bound one. -/
theorem handsDown_of_registered
    (tokens : ∀ event ∈ events, event.token = tokenAt root event.position)
    (above : ∀ position, root ≠ some (.whenAny position)) {position : Position}
    {source : CancelSource} (isSource : tokenAt root position = some source)
    (registered : Registered events source) :
    root = some .bound ∧ ∀ link ∈ position, link.HandsDown := by
  induction position generalizing source with
  | nil =>
      constructor
      · cases registered with
        | bound => exact isSource
        | nested _ _ => exact absurd isSource (above _)
      · intro link member
        cases member
  | cons link here ih =>
      have handsLink : link.HandsDown := by
        by_contra drops
        rw [tokenAt_dropped drops] at isSource
        cases isSource
      have handsHere : root = some .bound ∧ ∀ other ∈ here, other.HandsDown := by
        cases link with
        | coAwait category index =>
            rw [tokenAt_coAwait handsLink] at isSource
            exact ih isSource registered
        | coBind => exact ih isSource registered
        | whenAll index => cases handsLink
        | whenAny index =>
            cases isSource
            cases registered with
            | nested registeredParent made =>
                exact ih (tokens _ made).symm registeredParent
      constructor
      · exact handsHere.1
      · intro other member
        rcases List.mem_cons.1 member with isLink | isAbove
        · rw [isLink]
          exact handsLink
        · exact handsHere.2 other isAbove

/-! ### What cancelling reaches -/

theorem register_spec (source : CancelSource) (impl : CancelSourceImpl Canceller) :
    (events.foldl (Event.register source) impl).mCanceled = impl.mCanceled ∧
      ∀ canceller, canceller ∈ (events.foldl (Event.register source) impl).mCancellers ↔
        canceller ∈ impl.mCancellers ∨
          ∃ event ∈ events, event.token = some source ∧ event.canceller = canceller := by
  induction events generalizing impl with
  | nil => simp
  | cons event rest ih =>
      rw [List.foldl_cons]
      rcases ih (event.register source impl) with ⟨flag, cancellers⟩
      by_cases under : event.token = some source
      · have now : event.register source impl = impl.doRegister event.canceller := if_pos under
        rw [now] at flag cancellers ⊢
        constructor
        · exact flag
        · intro canceller
          rw [cancellers]
          simp only [CancelSourceImpl.doRegister, List.mem_cons]
          grind
      · have now : event.register source impl = impl := if_neg under
        rw [now] at flag cancellers ⊢
        constructor
        · exact flag
        · intro canceller
          rw [cancellers]
          simp [under]

theorem cancelSourceImpl_doCancel (events : List Event) (source : CancelSource) :
    ∃ after tasks, (cancelSourceImpl events source).doCancel = some (after, tasks) ∧
      ∀ canceller, canceller ∈ tasks ↔
        ∃ event ∈ events, event.token = some source ∧ event.canceller = canceller := by
  rcases @register_spec events source .initial with ⟨flag, cancellers⟩
  have notCanceled : ¬(cancelSourceImpl events source).mCanceled = true := by
    change ¬(events.foldl (Event.register source) .initial).mCanceled = true
    rw [flag]
    nofun
  exists { cancelSourceImpl events source with mCanceled := true }
  exists (cancelSourceImpl events source).mCancellers
  constructor
  · exact if_neg notCanceled
  · intro canceller
    change canceller ∈ (events.foldl (Event.register source) .initial).mCancellers ↔ _
    rw [cancellers]
    simp [CancelSourceImpl.initial]

theorem mem_doCancel_succ {fuel : Nat} {source : CancelSource} {position : Position} :
    position ∈ doCancel events (fuel + 1) source ↔
      .asked position (some source) ∈ events ∨
        ∃ nested, .constructed nested (some source) ∈ events ∧
          position ∈ doCancel events fuel (.whenAny nested) := by
  rcases cancelSourceImpl_doCancel events source with ⟨after, tasks, done, cancellers⟩
  rw [doCancel, done]
  simp only [List.mem_flatMap, cancellers]
  constructor
  · rintro ⟨canceller, ⟨event, member, token, isCanceller⟩, reached⟩
    subst isCanceller
    cases event with
    | asked own own_token =>
        change own_token = _ at token
        subst token
        rw [List.mem_singleton.1 reached]
        exact .inl member
    | constructed nested nested_token =>
        change nested_token = _ at token
        subst token
        exact .inr ⟨nested, member, reached⟩
  · rintro (asked | ⟨nested, made, below⟩)
    · exact ⟨.callback position, ⟨_, asked, rfl, rfl⟩, List.mem_singleton_self _⟩
    · exact ⟨.source (.whenAny nested), ⟨_, made, rfl, rfl⟩, below⟩

theorem doCancel_mono {fuel more : Nat} {source : CancelSource} {position : Position}
    (reached : position ∈ doCancel events fuel source) (enough : fuel ≤ more) :
    position ∈ doCancel events more source := by
  induction fuel generalizing more source with
  | zero => cases reached
  | succ fuel ih =>
      cases more with
      | zero => omega
      | succ more =>
          rw [mem_doCancel_succ] at reached ⊢
          rcases reached with asked | ⟨nested, made, below⟩
          · exact .inl asked
          · exact .inr ⟨nested, made, ih below (by omega)⟩

theorem doCancel_bound {position : Position}
    (constructs : Constructs (some .bound) events position)
    (hands : ∀ link ∈ position, link.HandsDown) {source : CancelSource}
    (isSource : tokenAt (some .bound) position = some source) {fuel : Nat} {reached : Position}
    (below : reached ∈ doCancel events fuel source) :
    reached ∈ doCancel events (fuel + position.length) .bound := by
  induction position generalizing source fuel with
  | nil =>
      cases isSource
      exact below
  | cons link here ih =>
      have handsHere : ∀ other ∈ here, other.HandsDown := by
        intro other member
        exact hands other (List.mem_cons_of_mem _ member)
      have handsLink := hands link List.mem_cons_self
      rw [List.length_cons]
      cases link with
      | coAwait category index =>
          rw [tokenAt_coAwait handsLink] at isSource
          exact doCancel_mono (ih constructs.above handsHere isSource below) (by omega)
      | coBind => exact doCancel_mono (ih constructs.above handsHere isSource below) (by omega)
      | whenAll index => cases handsLink
      | whenAny index =>
          cases isSource
          rcases carries_of_handsDown constructs.above handsHere with ⟨parent, isParent, _, _⟩
          have made := constructs.last isParent
          have belowParent : reached ∈ doCancel events (fuel + 1) parent :=
            mem_doCancel_succ.2 (.inr ⟨here, made, below⟩)
          exact doCancel_mono (ih constructs.above handsHere isParent belowParent) (by omega)

theorem asked_of_doCancel {fuel : Nat} {source : CancelSource} (registered : Registered events source)
    {position : Position} (reached : position ∈ doCancel events fuel source) :
    ∃ under, .asked position (some under) ∈ events ∧ Registered events under := by
  induction fuel generalizing source with
  | zero => cases reached
  | succ fuel ih =>
      rcases mem_doCancel_succ.1 reached with asked | ⟨nested, made, below⟩
      · exact ⟨source, asked, registered⟩
      · exact ih (.nested registered made) below

end Tree

/-! ### The tree below a bound task -/

/-- A descendant asks for its token: it gets that of the bound source, or of a source
registered under it, and cancelling the bound source reaches its callback, exactly
when the bound task keeps its token and every link on the way down hands it down. -/
theorem descendant_carries_iff (task : Task) (launch : Launch) (position : Position)
    (token : CancelToken) (asked : .asked position token ∈ task.runBound launch) :
    (Carries (task.runBound launch) position token ↔
        launch.Keeps ∧ ∀ link ∈ position, link.HandsDown) ∧
      ∀ fuel, position.length < fuel →
        (position ∈ doCancel (task.runBound launch) fuel .bound ↔
          launch.Keeps ∧ ∀ link ∈ position, link.HandsDown) := by
  rw [launch.keeps_iff]
  have above := launch.token_ne_whenAny
  unfold Task.runBound at asked ⊢
  generalize launch.locals (bind (some .bound) {}) = self at asked above ⊢
  have placed : ∀ event ∈ task.run [] self,
      Placed self.mCancelToken (task.run [] self) [] event := by
    intro event member
    exact run_placed task rfl member
  generalize self.mCancelToken = root at above placed ⊢
  generalize task.run [] self = events at asked placed ⊢
  have tokens : ∀ event ∈ events, event.token = tokenAt root event.position := by
    intro event member
    exact (placed event member).token
  have constructs : Constructs root events position := by
    intro index between onTheWay
    exact (placed _ asked).constructed index between onTheWay List.nil_suffix
  have isToken : token = tokenAt root position := tokens _ asked
  subst isToken
  constructor
  · constructor
    · rintro ⟨source, isSource, registered, _⟩
      exact handsDown_of_registered tokens above isSource registered
    · rintro ⟨isBound, hands⟩
      subst isBound
      exact carries_of_handsDown constructs hands
  · intro fuel enough
    constructor
    · intro reached
      rcases asked_of_doCancel .bound reached with ⟨source, askedSource, registered⟩
      exact handsDown_of_registered tokens above (tokens _ askedSource).symm registered
    · rintro ⟨isBound, hands⟩
      subst isBound
      rcases carries_of_handsDown constructs hands with ⟨source, isSource, _, _⟩
      rw [isSource] at asked
      have own : position ∈ doCancel events 1 source := mem_doCancel_succ.2 (.inl asked)
      exact doCancel_mono (doCancel_bound constructs hands isSource own) (by omega)

/-- A when_any of one coroutine below a co_bind: the coroutine is reached through the
source of the when_any. -/
theorem descendant_carries_iff_any :
    let events := (Task.coBind (.whenAny 1 fun _ => .coroutine 0 Fin.elim0 Fin.elim0)).runBound
      .resumed
    Carries events [.whenAny 0, .coBind] (some (.whenAny [.coBind])) ∧
      ∀ fuel, 2 < fuel → [.whenAny 0, .coBind] ∈ doCancel events fuel .bound := by
  have hands : Launch.resumed.Keeps ∧ ∀ link ∈ [Link.whenAny 0, .coBind], link.HandsDown := by
    decide
  obtain ⟨carries, reached⟩ := descendant_carries_iff
    (Task.coBind (.whenAny 1 fun _ => .coroutine 0 Fin.elim0 Fin.elim0)) .resumed
    [.whenAny 0, .coBind] (some (.whenAny [.coBind])) (by decide)
  exact ⟨carries.2 hands, fun fuel enough => (reached fuel enough).2 hands⟩

/-- A child of when_all asks for its token and gets a null one. -/
theorem when_all_child_has_null_token :
    ¬∀ (task : Task) (position : Position) (token : CancelToken),
      .asked position token ∈ task.runBound .resumed →
        Carries (task.runBound .resumed) position token := by
  intro claimed
  rcases claimed (.whenAll 1 fun _ => .coroutine 0 Fin.elim0 Fin.elim0) [.whenAll 0] none
    (by decide) with ⟨source, isSource, _⟩
  cases isSource

end MCoro.TaskLocals
