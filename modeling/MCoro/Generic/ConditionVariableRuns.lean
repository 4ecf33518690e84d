/-
Runs of a condition variable: who a notify_all reaches.

The word is the number of additions modulo 2^32, so a comparison that comes less than
2^32 additions after the load tells exactly whether there was one in between. A
waiter therefore falls asleep only with no addition after its load, and a later
notify_all finds it asleep. futex_notify hands the count to the kernel as the mask and
the mask as the number, so it can still leave the waiter asleep.
-/

import MCoro.Generic.ConditionVariable
import MCoro.Library.Words

namespace MCoro.ConditionVariable

variable {Party : Type}

/-- The announcements whose mask meets that of a sleeper came before its load. -/
def Unannounced (announced : List Announcement) (mask : UInt32) (stamp : Nat) : Prop :=
  ∀ announcement ∈ announced, mask &&& announcement.mask ≠ 0 → announcement.index ≤ stamp

def Fits (increments : Nat) (announced : List Announcement) (place : Place) (wait : Futex.Wait) :
    Prop :=
  match place with
  | .outside => wait = .idle
  | .notifying _ _ index => wait = .idle ∧ index ≤ increments
  | .loaded old _ stamp => wait = .idle ∧ old = UInt32.ofNat stamp ∧ stamp ≤ increments
  | .waiting old mask stamp =>
      old = UInt32.ofNat stamp ∧ stamp ≤ increments ∧
        match wait with
        | .idle => False
        | .queued expected own => expected = old ∧ own = mask
        | .asleep own => own = mask ∧ Unannounced announced mask stamp
        | .returned _ => True

structure Inv (state : State Party) : Prop where
  word : state.condition.mFutex = UInt32.ofNat state.increments
  each : ∀ party, Fits state.increments state.announced (state.place party) (state.waits party)
  past : ∀ announcement ∈ state.announced, announcement.index ≤ state.increments

theorem Inv.initial : Inv (State.initial : State Party) :=
  { word := rfl
    each := by
      intro party
      rfl
    past := by
      intro announcement member
      cases member }

theorem Fits.mono {increments later : Nat} (more : increments ≤ later)
    {announced : List Announcement} {place : Place} {wait : Futex.Wait}
    (fits : Fits increments announced place wait) : Fits later announced place wait := by
  cases place with
  | outside => exact fits
  | notifying mask all index => exact ⟨fits.1, fits.2.trans more⟩
  | loaded old mask stamp => exact ⟨fits.1, fits.2.1, fits.2.2.trans more⟩
  | waiting old mask stamp => exact ⟨fits.1, fits.2.1.trans more, fits.2.2⟩

theorem Fits.waiting {increments : Nat} {announced : List Announcement} {place : Place}
    {wait : Futex.Wait} (fits : Fits increments announced place wait) (busy : wait ≠ .idle) :
    ∃ old mask stamp, place = .waiting old mask stamp ∧ old = UInt32.ofNat stamp ∧
      stamp ≤ increments := by
  cases place with
  | outside => exact absurd fits busy
  | notifying mask all index => exact absurd fits.1 busy
  | loaded old mask stamp => exact absurd fits.1 busy
  | waiting old mask stamp => exact ⟨old, mask, stamp, rfl, fits.1, fits.2.1⟩

variable [DecidableEq Party]

/-! ### One party moves -/

theorem Inv.move {state : State Party} (inv : Inv state) (party : Party) {place : Place}
    {wait : Futex.Wait} (fits : Fits state.increments state.announced place wait) :
    Inv (state.move party place wait) := by
  constructor
  case word => exact inv.word
  case each =>
    intro other
    change Fits _ _ (Function.update state.place party place other)
      (Function.update state.waits party wait other)
    by_cases same : other = party
    · subst same
      rw [Function.update_self, Function.update_self]
      exact fits
    · rw [Function.update_of_ne same, Function.update_of_ne same]
      exact inv.each other
  case past => exact inv.past

theorem Inv.finish {state : State Party} (inv : Inv state) {party : Party}
    (busy : state.waits party ≠ .idle) (result : Futex.Result) :
    Inv (state.setWait party (.returned result)) := by
  rcases (inv.each party).waiting busy with ⟨old, mask, stamp, place, loaded, older⟩
  unfold State.setWait
  apply inv.move
  rw [place]
  exact ⟨loaded, older, trivial⟩

theorem Inv.load {state : State Party} (inv : Inv state) (party : Party) (mask : UInt32) :
    Inv (state.load party mask) :=
  inv.move party ⟨rfl, inv.word, Nat.le_refl _⟩

theorem Inv.submit {state : State Party} (inv : Inv state) {party : Party}
    (loaded : (state.place party).IsLoaded) : Inv (state.submit party) := by
  have fits := inv.each party
  unfold State.submit
  cases place : state.place party with
  | loaded old mask stamp =>
      rw [place] at fits
      exact inv.move party ⟨fits.2.1, fits.2.2, rfl, rfl⟩
  | outside | waiting _ _ _ | notifying _ _ _ =>
      rw [place] at loaded
      cases loaded

/-- The comparison puts to sleep only when nothing was added since the load. -/
theorem Inv.compare {state : State Party} (inv : Inv state) {party : Party}
    (queued : (state.waits party).IsQueued) (recent : state.Recent party) :
    Inv (state.setWait party ((state.waits party).compare state.condition.mFutex)) := by
  have fits := inv.each party
  cases wait : state.waits party with
  | queued expected own =>
      rcases fits.waiting (Futex.Wait.ne_idle (.inl queued)) with ⟨old, mask, stamp, place, loaded, older⟩
      rw [place, wait] at fits
      rcases fits with ⟨_, _, rfl, rfl⟩
      unfold State.Recent at recent
      rw [place] at recent
      have less := recent stamp rfl
      unfold State.setWait
      apply inv.move
      rw [place]
      rcases Futex.Wait.compare_cases state.condition.mFutex expected own with
        invalid | ⟨same, sleeps⟩ | ⟨changed, again⟩
      · rw [invalid]
        exact ⟨loaded, older, trivial⟩
      · rw [sleeps]
        rw [inv.word, loaded] at same
        have now := eq_of_recent older less same
        refine ⟨loaded, older, rfl, ?_⟩
        intro announcement member meets
        rw [← now]
        exact inv.past announcement member
      · rw [again]
        exact ⟨loaded, older, trivial⟩
  | idle | asleep _ | returned _ =>
      rw [wait] at queued
      cases queued

theorem Inv.recheck {state : State Party} (inv : Inv state) (party : Party) :
    Inv (state.recheck party) := by
  have fits := inv.each party
  unfold State.recheck
  split
  · rename_i old mask stamp place wait
    rw [place] at fits
    split
    · exact inv.move party ⟨rfl, fits.1, fits.2.1⟩
    · exact inv.move party rfl
  · rename_i old mask stamp place wait
    rw [place] at fits
    split
    · exact inv.move party ⟨rfl, fits.1, fits.2.1⟩
    · exact inv.move party rfl
  · exact inv.move party rfl

/-! ### The notifications -/

theorem Inv.increment {state : State Party} (inv : Inv state) (party : Party) (mask : UInt32)
    (all : Bool) : Inv (state.increment party mask all) := by
  have added : Inv
      { state with
        condition := state.condition.fetchAdd
        increments := state.increments + 1 } := by
    constructor
    case word =>
      change state.condition.mFutex + 1 = UInt32.ofNat (state.increments + 1)
      rw [inv.word, UInt32.ofNat_add]
      rfl
    case each =>
      intro other
      exact (inv.each other).mono (Nat.le_succ _)
    case past =>
      intro announcement member
      exact (inv.past announcement member).trans (Nat.le_succ _)
  exact added.move party ⟨rfl, Nat.le_refl _⟩

theorem Inv.leave {state : State Party} (inv : Inv state) {party : Party}
    (notifies : (state.place party).IsNotifying) (other : Party) :
    Fits state.increments state.announced (Function.update state.place party .outside other)
      (state.waits other) := by
  by_cases same : other = party
  · subst same
    rw [Function.update_self]
    have fits := inv.each other
    cases place : state.place other with
    | notifying mask everyone index =>
        rw [place] at fits
        exact fits.1
    | outside | loaded _ _ _ | waiting _ _ _ =>
        rw [place] at notifies
        cases notifies
  · rw [Function.update_of_ne same]
    exact inv.each other

theorem Fits.woken {increments : Nat} {announced : List Announcement} {place : Place}
    {wait : Futex.Wait} (fits : Fits increments announced place wait) (asleep : wait.IsAsleep) :
    Fits increments announced place (.returned .woken) := by
  rcases fits.waiting (Futex.Wait.ne_idle (.inr asleep)) with ⟨old, mask, stamp, place, loaded, older⟩
  rw [place]
  exact ⟨loaded, older, trivial⟩

/-- A notification is announced to a party that does not sleep, or sleeps and was not meant. -/
theorem Fits.announce {increments : Nat} {announced : List Announcement} {place : Place}
    {wait : Futex.Wait} (fits : Fits increments announced place wait) {announcement : Announcement}
    (missed : ∀ old mask stamp, place = .waiting old mask stamp → wait.IsAsleep →
      mask &&& announcement.mask ≠ 0 → announcement.index ≤ stamp) :
    Fits increments (announcement :: announced) place wait := by
  cases place with
  | outside => exact fits
  | notifying mask all index => exact fits
  | loaded old mask stamp => exact fits
  | waiting old mask stamp =>
      cases wait with
      | asleep own =>
          rcases fits with ⟨loaded, older, rfl, before⟩
          refine ⟨loaded, older, rfl, ?_⟩
          intro other member meets
          rcases List.mem_cons.1 member with rfl | old
          · exact missed _ _ _ rfl trivial meets
          · exact before other old meets
      | idle | queued _ _ | returned _ => exact fits

theorem Inv.wakeEach {state : State Party} (inv : Inv state) {party : Party}
    (notifies : (state.place party).IsNotifying) {woken : List Party}
    (sleepers : ∀ other ∈ woken, (state.waits other).IsAsleep) (other : Party) :
    Fits state.increments state.announced (Function.update state.place party .outside other)
      (Futex.wakeEach state.waits woken other) := by
  have left := inv.leave notifies other
  unfold Futex.wakeEach
  by_cases chosen : other ∈ woken
  · rw [if_pos chosen]
    exact left.woken (sleepers other chosen)
  · rw [if_neg chosen]
    exact left

omit [DecidableEq Party] in
theorem State.Notified.sleepers {state : State Party} {available : Bool} {party : Party}
    {woken : List Party} (notified : state.Notified available party woken) :
    ∀ other ∈ woken, (state.waits other).IsAsleep := by
  unfold State.Notified FutexNotify.Notified at notified
  split at notified
  · intro other member
    exact (notified.meets other member).isAsleep
  · rw [notified]
    intro other member
    cases member

omit [DecidableEq Party] in
theorem State.Reached.wakes {state : State Party} {available : Bool} {mask : UInt32}
    {index : Nat} (reached : state.Reached available { index := index, mask := mask })
    {party : Party} (place : state.place party = .notifying mask true index) {woken : List Party}
    (notified : state.Notified available party woken) {other : Party}
    (asleep : (state.waits other).IsAsleep)
    (told : Told state { index := index, mask := mask } other) : other ∈ woken := by
  rcases reached with nobody | ⟨rfl, meets, names, few, named⟩
  · exact absurd told (nobody other asleep)
  · have some_ : mask ≠ 0 := by
      obtain ⟨_, own, _, _, overlaps, _⟩ := told
      intro none_
      rw [none_] at overlaps
      exact overlaps (UInt32.and_zero)
    unfold State.Notified FutexNotify.Notified at notified
    rw [place] at notified
    have count : FutexNotify.futexNotifyAll ≠ 0 ∧
        FutexNotify.futexNotifyAll.toNat < 2 ^ 32 := by decide
    have asked : true = true ∧ (Place.notifying mask true index).count ≠ 0 ∧
        (Place.notifying mask true index).count.toNat < 2 ^ 32 ∧
        (Place.notifying mask true index).mask ≠ 0 := ⟨rfl, count.1, count.2, some_⟩
    rw [if_pos asked] at notified
    exact notified.of_few few named (meets other asleep told)

theorem Inv.wake {state : State Party} (inv : Inv state) {available : Bool} {party : Party}
    {woken : List Party} (notifies : (state.place party).IsNotifying)
    (notified : state.Notified available party woken)
    (reaches : Reaches available state (.wake party woken)) : Inv (state.wake party woken) := by
  have fits := inv.each party
  unfold State.wake
  cases place : state.place party with
  | notifying mask everyone index =>
      rw [place] at fits
      have each := inv.wakeEach notifies notified.sleepers
      constructor
      case word => exact inv.word
      case each =>
        intro other
        cases everyone with
        | false => exact each other
        | true =>
            apply (each other).announce
            intro old own stamp waits asleep meets
            by_contra late
            -- It slept before, so it was told, and has been woken.
            have away : other ≠ party := by
              intro same
              subst same
              simp at waits
            rw [Function.update_of_ne away] at waits
            have slept : (state.waits other).IsAsleep ∧ other ∉ woken := by
              unfold Futex.wakeEach at asleep
              by_cases chosen : other ∈ woken
              · rw [if_pos chosen] at asleep
                cases asleep
              · rw [if_neg chosen] at asleep
                exact ⟨asleep, chosen⟩
            have told : Told state { index := index, mask := mask } other :=
              ⟨old, own, stamp, .inr waits, meets, Nat.lt_of_not_le late⟩
            exact slept.2 ((reaches mask index place).wakes place notified slept.1 told)
      case past =>
        intro announcement member
        cases everyone with
        | false => exact inv.past announcement member
        | true =>
            rcases List.mem_cons.1 member with rfl | old
            · exact fits.2
            · exact inv.past announcement old
  | outside | loaded _ _ _ | waiting _ _ _ =>
      rw [place] at notifies
      cases notifies

/-! ### Runs -/

theorem Inv.next {state : State Party} (inv : Inv state) {available : Bool}
    {action : Action Party} (enabled : Enabled available state action)
    (noWrap : NoWrap state action) (reaches : Reaches available state action) :
    Inv (next state action) := by
  cases action with
  | load party mask => exact inv.load party mask
  | submit party => exact inv.submit enabled
  | compare party => exact inv.compare enabled noWrap
  | cancel party => exact inv.finish (Futex.Wait.ne_idle enabled) .canceled
  | spurious party => exact inv.finish (Futex.Wait.ne_idle (.inr enabled)) .woken
  | recheck party => exact inv.recheck party
  | increment party mask all => exact inv.increment party mask all
  | wake party woken => exact inv.wake enabled.1 enabled.2 reaches

/-- What notify_all is for: such a party does not sleep, the kernel does not put it to
sleep, and its wait returns when it runs. -/
structure Heard (state : State Party) (party : Party) : Prop where
  awake : ¬(state.waits party).IsAsleep
  stays_awake : (state.waits party).IsQueued → state.Recent party →
    ¬((state.waits party).compare state.condition.mFutex).IsAsleep
  returns : (state.waits party).HasReturned → state.Recent party →
    (next state (.recheck party)).place party = .outside

omit [DecidableEq Party] in
theorem Inv.changed {state : State Party} (inv : Inv state) {announcement : Announcement}
    (member : announcement ∈ state.announced) {old : UInt32} {stamp : Nat}
    (loaded : old = UInt32.ofNat stamp) (older : stamp ≤ state.increments)
    (before : stamp < announcement.index) (recent : state.increments < stamp + 2 ^ 32) :
    state.condition.mFutex ≠ old := by
  intro same
  rw [inv.word, loaded] at same
  have now := eq_of_recent older recent same
  have past := inv.past announcement member
  omega

/-- A waiter whose wait has returned and that finds another word than it has loaded. -/
theorem State.recheck_outside (state : State Party) {party : Party} {old mask : UInt32}
    {stamp : Nat} (place : state.place party = .waiting old mask stamp)
    (returned : (state.waits party).HasReturned) (changed : state.condition.mFutex ≠ old) :
    (state.recheck party).place party = .outside := by
  have left : (state.move party .outside .idle).place party = .outside :=
    Function.update_self ..
  unfold recheck
  cases now : state.waits party with
  | returned result =>
      cases result with
      | woken | again =>
          simp only [place]
          rw [if_neg changed]
          exact left
      | canceled | invalid =>
          simp only [place]
          exact left
  | idle | queued _ _ | asleep _ =>
      rw [now] at returned
      cases returned

theorem Inv.heard {state : State Party} (inv : Inv state) {announcement : Announcement}
    (member : announcement ∈ state.announced) {party : Party}
    (told : Told state announcement party) : Heard state party := by
  have fits := inv.each party
  rcases told with ⟨old, mask, stamp, place | place, meets, before⟩
  · rw [place] at fits
    rcases fits with ⟨idle, loaded, older⟩
    constructor
    case awake =>
      rw [idle]
      exact id
    case stays_awake =>
      rw [idle]
      intro queued
      cases queued
    case returns =>
      rw [idle]
      intro returned
      cases returned
  · rw [place] at fits
    rcases fits with ⟨loaded, older, wait⟩
    have recently : state.Recent party → state.increments < stamp + 2 ^ 32 := by
      intro recent
      unfold State.Recent at recent
      rw [place] at recent
      exact recent stamp rfl
    constructor
    case awake =>
      intro asleep
      cases now : state.waits party with
      | asleep own =>
          rw [now] at wait
          have late := wait.2 announcement member meets
          omega
      | idle | queued _ _ | returned _ =>
          rw [now] at asleep
          cases asleep
    case stays_awake =>
      intro queued recent
      have changed := inv.changed member loaded older before (recently recent)
      cases now : state.waits party with
      | queued expected own =>
          rw [now] at wait
          exact Futex.Wait.not_isAsleep_compare (fun same => changed (same.trans wait.1)) own
      | idle | asleep _ | returned _ =>
          rw [now] at queued
          cases queued
    case returns =>
      intro returned recent
      have changed := inv.changed member loaded older before (recently recent)
      exact state.recheck_outside place returned changed

theorem announced_next (state : State Party) (action : Action Party) :
    state.announced ⊆ (next state action).announced := by
  intro announcement member
  cases action with
  | wake party woken =>
      change announcement ∈ (state.wake party woken).announced
      unfold State.wake
      split
      · rename_i mask all index place
        cases all with
        | false => exact member
        | true => exact List.mem_cons_of_mem _ member
      · exact member
  | submit party =>
      change announcement ∈ (state.submit party).announced
      unfold State.submit
      split <;> exact member
  | recheck party =>
      change announcement ∈ (state.recheck party).announced
      unfold State.recheck
      split
      · split <;> exact member
      · split <;> exact member
      · exact member
  | load _ _ | compare _ | cancel _ | spurious _ | increment _ _ _ => exact member

theorem announced_after (available : Bool) (state : State Party) (actions : List (Action Party)) :
    state.announced ⊆ ((machine Party available).after state actions).announced := by
  induction actions generalizing state with
  | nil => exact List.Subset.refl _
  | cons action rest ih => exact List.Subset.trans (announced_next state action) (ih _)

/-- Any number of parties, any masks, any order of their steps, a kernel with futex_wake or
one without: where no futex_notify of a notify_all misses a sleeper, each notify_all that
has added and woken is heard, then and later, by every waiter that had loaded the word
before it. -/
theorem notify_all_is_heard (Party : Type) [DecidableEq Party] (available : Bool)
    (front back : List (Action Party))
    (runs : (machine Party available).Runs .initial (front ++ back))
    (noWrap : (machine Party available).Along NoWrap .initial (front ++ back))
    (reaches : (machine Party available).Along (Reaches available) .initial (front ++ back)) :
    ∀ announcement ∈ ((machine Party available).after .initial front).announced, ∀ party,
      Told ((machine Party available).after .initial (front ++ back)) announcement party →
        Heard ((machine Party available).after .initial (front ++ back)) party := by
  have keeps : ∀ state action, Inv state → (machine Party available).Enabled state action →
      NoWrap state action ∧ Reaches available state action →
      Inv ((machine Party available).next state action) := by
    intro state action inv enabled meets
    exact inv.next enabled meets.1 meets.2
  have inv := Machine.invariant_along Inv keeps Inv.initial runs (noWrap.and reaches)
  intro announcement member party told
  apply inv.heard ?_ told
  rw [Machine.after_append]
  exact announced_after available _ back member

/-- One waiter sleeps and is woken; another has loaded the word and not yet submitted its
wait when they are notified. -/
theorem notify_all_is_heard_late :
    Heard ((machine (Fin 3) true).after .initial
      ([.load 1 1, .submit 1, .compare 1, .load 0 1, .increment 2 1 true, .wake 2 [1]] ++
        [.submit 0])) 0 :=
  notify_all_is_heard (Fin 3) true
    [.load 1 1, .submit 1, .compare 1, .load 0 1, .increment 2 1 true, .wake 2 [1]] [.submit 0]
    (by decide +kernel) (by decide +kernel)
    ⟨trivial, trivial, trivial, trivial, trivial, fun mask index place => by
      cases place
      refine .inr ⟨rfl, ?_, [1], by decide, ?_⟩
      · intro party asleep told
        clear told
        revert party
        decide +kernel
      · decide +kernel, trivial, trivial⟩
    { index := 1
      mask := 1 }
    (by decide +kernel) 0 ⟨0, 1, 0, .inr rfl, by decide, by decide⟩

/-- Two waiters sleep, and notify_all asks the kernel to wake one. -/
theorem notify_all_misses_second :
    ¬∀ (available : Bool) (front back : List (Action (Fin 3))),
      (machine (Fin 3) available).Runs .initial (front ++ back) →
      (machine (Fin 3) available).Along NoWrap .initial (front ++ back) →
      ∀ announcement ∈ ((machine (Fin 3) available).after .initial front).announced, ∀ party,
        Told ((machine (Fin 3) available).after .initial (front ++ back)) announcement party →
          Heard ((machine (Fin 3) available).after .initial (front ++ back)) party := by
  intro claimed
  have heard := claimed true
    [.load 0 Futex.matchAny, .submit 0, .compare 0, .load 1 Futex.matchAny, .submit 1, .compare 1,
      .increment 2 Futex.matchAny true, .wake 2 [0]] []
    (by decide +kernel) (by decide +kernel)
    { index := 1
      mask := Futex.matchAny }
    (by decide +kernel) 1 ⟨0, Futex.matchAny, 0, .inr rfl, by decide, by decide⟩
  exact heard.awake trivial

end MCoro.ConditionVariable
