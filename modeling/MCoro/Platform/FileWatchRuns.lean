/-
Runs of a FileWatch and of the kernel behind it.

Between the calls of the FileWatch the kernel queues events, ends watches by itself and
may find its queue full. Every event is kept with the path of its watch, and every
removal with the number of events up to its IN_IGNORED.
-/

import MCoro.Library.Machine
import MCoro.Platform.FileWatch

namespace MCoro.FileWatches

open StreamReads

/-- `path` is the one that the watch was made with; the overflow is of no watch. -/
structure Event where
  record : Record
  path : Option Path
  deriving DecidableEq

structure Removal where
  wd : Int32
  behind : Nat
  deriving DecidableEq

structure State where
  files : FileWatch := .new
  events : List Event := []
  removals : List Removal := []
  waits : List (Except BufferFault Waited) := []

inductive Action where
  | add (path : Path) (res : Int32)
  | watch (path : Path × Int32) (recursive isDirectory : Bool) (entries : List (Path × Int32))
  | remove (wd : Int32)
  | event (record : Record)
  /-- The kernel ends a watch whose file is gone. -/
  | expire (wd : Int32)
  | overflow
  /-- `limit` is the kernel's choice for the read. -/
  | wait (limit : Nat)
  deriving DecidableEq

namespace State

def watches (state : State) : Int32 → Option Path :=
  state.files.inotify.watches

def push (state : State) (record : Record) (path : Option Path)
    (watches : Int32 → Option Path) : State :=
  { state with
    files := state.files.setInotify { state.files.inotify with
      queue := state.files.inotify.queue ++ [record]
      watches := watches }
    events := state.events ++ [⟨record, path⟩] }

def upcoming (state : State) : Option Event :=
  state.events[state.waits.length]?

/-- No removal of the watch came behind the event at that index. -/
def Intact (state : State) (index : Nat) (wd : Int32) : Prop :=
  ∀ removal ∈ state.removals, removal.wd = wd → removal.behind ≤ index

end State

def next (fuel : Nat) (state : State) : Action → State
  | .add path res => { state with files := (state.files.add path res).2 }
  | .watch path recursive isDirectory entries =>
      { state with files := (state.files.watch path recursive isDirectory entries).2 }
  | .remove wd =>
      match state.watches wd with
      | none => { state with files := (state.files.remove wd).2 }
      | some path =>
          { state with
            files := (state.files.remove wd).2
            events := state.events ++ [⟨.ignored wd, some path⟩]
            removals := state.removals ++ [⟨wd, state.events.length + 1⟩] }
  | .event record => state.push record (state.watches record.wd) state.watches
  | .expire wd =>
      state.push (.ignored wd) (state.watches wd) (Function.update state.watches wd none)
  | .overflow => state.push .overflow none state.watches
  | .wait limit =>
      let files := state.files.setInotify { state.files.inotify with limit := limit }
      match files.wait fuel with
      | .ok (waited, files) =>
          { state with
            files := files
            waits := state.waits ++ [.ok waited] }
      | .error fault => { state with waits := state.waits ++ [.error fault] }

def Enabled (state : State) : Action → Prop
  | .event record => (state.watches record.wd).isSome ∧ record.WellFormed
  | .expire wd => (state.watches wd).isSome
  | .wait _ => state.waits.length < state.events.length
  | _ => True

def machine (fuel : Nat) : Machine State Action where
  initial := {}
  Enabled := Enabled
  next := next fuel

/-- The number of a watch that the kernel ended is not used again for another path. -/
def NewNumber (files : FileWatch) (path : Path) (res : Int32) : Prop :=
  res ≠ -1 → files.inotify.watches res = none →
    files.mWatches res = none ∨ files.mWatches res = some path

def NewNumbers : FileWatch → List (Path × Int32) → Prop
  | _, [] => True
  | files, (path, res) :: rest =>
      NewNumber files path res ∧
        match files.add path res with
        | (.error _, _) => True
        | (.ok _, files) => NewNumbers files rest

/-- No wait comes to an event whose watch was removed, and none to an overflow. -/
def Kept (state : State) : Action → Prop
  | .add path res => NewNumber state.files path res
  | .watch path recursive isDirectory entries =>
      NewNumbers state.files (FileWatch.watched path recursive isDirectory entries)
  | .wait _ =>
      match state.upcoming with
      | none => True
      | some event =>
          event.path.isSome ∧ state.Intact state.waits.length event.record.wd
  | _ => True

/-- A wait returned the event with the path of its watch. -/
def Returns (event : Event) (waited : Except BufferFault Waited) : Prop :=
  ∃ path, event.path = some path ∧ waited = .ok (.value (event.record.result path))

/-- The waits have returned the first events, each once and in order. -/
def InOrder (state : State) : Prop :=
  List.Forall₂ Returns (state.events.take state.waits.length) state.waits

/-! ### Adding -/

/-- The map has the path of every watch of the kernel. -/
def Known (files : FileWatch) : Prop :=
  ∀ wd path, files.inotify.watches wd = some path → files.mWatches wd = some path

/-- What calls of add leave as it is. -/
structure Adds (files after : FileWatch) : Prop where
  known : Known after
  entries : ∀ wd path, files.mWatches wd = some path → after.mWatches wd = some path
  unread : ∀ records, Unread files records → Unread after records

theorem emplace_cases (entries : Int32 → Option Path) (key : Int32) (path : Path) :
    (∃ old, entries key = some old ∧ emplace entries key path = entries) ∨
      entries key = none ∧ emplace entries key path = Function.update entries key (some path) := by
  unfold emplace
  cases found : entries key with
  | none => exact Or.inr ⟨rfl, rfl⟩
  | some old => exact Or.inl ⟨old, rfl, rfl⟩

theorem emplace_of_some {entries : Int32 → Option Path} {wd key : Int32} {path old : Path}
    (found : entries wd = some old) : emplace entries key path wd = some old := by
  rcases emplace_cases entries key path with ⟨_, _, same⟩ | ⟨empty, same⟩
  · rw [same]
    exact found
  · have differs : wd ≠ key := by
      rintro rfl
      rw [found] at empty
      cases empty
    rw [same, Function.update_of_ne differs]
    exact found

theorem adds_add {files : FileWatch} (known : Known files) {path : Path} {res : Int32}
    (fresh : NewNumber files path res) : Adds files (files.add path res).2 := by
  by_cases failed : res = -1
  · have same : (files.add path res).2 = files := by
      unfold FileWatch.add Inotify.addWatch throwingErrorErrno
      rw [if_pos failed, if_pos failed]
      rfl
    rw [same]
    exact ⟨known, fun _ _ found => found, fun _ unread => unread⟩
  · have after : (files.add path res).2 =
        { files.setInotify { files.inotify with
            watches := emplace files.inotify.watches res path } with
          mWatches := emplace files.mWatches res path } := by
      unfold FileWatch.add Inotify.addWatch throwingErrorErrno
      rw [if_neg failed, if_neg failed]
      rfl
    rw [after]
    constructor
    case known =>
      intro wd stored
      change emplace files.inotify.watches res path wd = some stored →
        emplace files.mWatches res path wd = some stored
      intro found
      rcases emplace_cases files.inotify.watches res path with ⟨_, _, same⟩ | ⟨free, same⟩
      · rw [same] at found
        exact emplace_of_some (known wd stored found)
      · rw [same] at found
        by_cases other : wd = res
        · subst other
          rw [Function.update_self] at found
          cases found
          rcases fresh failed free with absent | present
          · rcases emplace_cases files.mWatches wd path with ⟨_, present, _⟩ | ⟨_, makes⟩
            · rw [absent] at present
              cases present
            · rw [makes, Function.update_self]
          · exact emplace_of_some present
        · rw [Function.update_of_ne other] at found
          exact emplace_of_some (known wd stored found)
    case entries =>
      intro wd stored found
      exact emplace_of_some found
    case unread =>
      intro records unread
      have still := unread.setInotify { files.inotify with
        watches := emplace files.inotify.watches res path } (List.append_nil _).symm
        (fun _ => nofun)
      rw [List.append_nil] at still
      exact still.setWatches _

theorem adds_addAll {files : FileWatch} (known : Known files) {adds : List (Path × Int32)}
    (fresh : NewNumbers files adds) : Adds files (files.addAll adds).2 := by
  induction adds generalizing files with
  | nil => exact ⟨known, fun _ _ found => found, fun _ unread => unread⟩
  | cons first rest ih =>
      obtain ⟨path, res⟩ := first
      obtain ⟨now, later⟩ := fresh
      have step := adds_add known now
      unfold FileWatch.addAll
      cases added : files.add path res with
      | mk result after =>
          rw [added] at step later
          cases result with
          | error e => exact step
          | ok wd =>
              have more := ih step.known later
              constructor
              case known => exact more.known
              case entries =>
                intro wd stored found
                exact more.entries wd stored (step.entries wd stored found)
              case unread =>
                intro records unread
                exact more.unread records (step.unread records unread)

/-! ### The invariant -/

structure Holds (state : State) : Prop where
  known : Known state.files
  unread : Unread state.files ((state.events.drop state.waits.length).map Event.record)
  entries : ∀ index event path, state.waits.length ≤ index → state.events[index]? = some event →
    event.path = some path → state.Intact index event.record.wd →
    state.files.mWatches event.record.wd = some path
  removed : ∀ removal ∈ state.removals, removal.behind ≤ state.events.length
  inOrder : InOrder state

variable {state : State}

theorem Holds.waited (holds : Holds state) : state.waits.length ≤ state.events.length := by
  have lengths := holds.inOrder.length_eq
  rw [List.length_take] at lengths
  omega

theorem Holds.adds {files : FileWatch} (holds : Holds state) (adds : Adds state.files files) :
    Holds { state with files := files } where
  known := adds.known
  unread := adds.unread _ holds.unread
  entries index event path later found path_ intact :=
    adds.entries _ _ (holds.entries index event path later found path_ intact)
  removed := holds.removed
  inOrder := holds.inOrder

theorem Holds.push (holds : Holds state) {record : Record} (formed : record.WellFormed)
    {path : Option Path} (watched : ∀ stored, path = some stored →
      state.files.mWatches record.wd = some stored)
    {watches : Int32 → Option Path}
    (fewer : ∀ wd stored, watches wd = some stored → state.watches wd = some stored) :
    Holds (state.push record path watches) := by
  have waited := holds.waited
  constructor
  case known =>
    intro wd stored found
    exact holds.known wd stored (fewer wd stored found)
  case unread =>
    have queued := holds.unread.setInotify { state.files.inotify with
      queue := state.files.inotify.queue ++ [record]
      watches := watches } rfl (fun other member => by
        rw [List.mem_singleton.1 member]
        exact formed)
    change Unread _ (((state.events ++ [(⟨record, path⟩ : Event)]).drop state.waits.length).map _)
    rw [List.drop_append_of_le_length waited, List.map_append]
    exact queued
  case entries =>
    intro index event stored later found path_ intact
    change (state.events ++ [(⟨record, path⟩ : Event)])[index]? = some event at found
    rcases Nat.lt_or_ge index state.events.length with old | new
    · rw [List.getElem?_append_left old] at found
      exact holds.entries index event stored later found path_ intact
    · rw [List.getElem?_append_right new] at found
      have same := List.mem_singleton.1 (List.mem_of_getElem? found)
      subst same
      exact watched stored path_
  case removed =>
    intro removal member
    have bound := holds.removed removal member
    change _ ≤ (state.events ++ [_]).length
    rw [List.length_append]
    exact Nat.le_add_right_of_le bound
  case inOrder =>
    change List.Forall₂ Returns ((state.events ++ [_]).take state.waits.length) state.waits
    rw [List.take_append_of_le_length waited]
    exact holds.inOrder

theorem ignored_wellFormed (wd : Int32) : (Record.ignored wd).WellFormed where
  small := by
    unfold Record.encode
    rw [List.length_append, Record.length_header]
    exact (by decide : 16 ≤ kStreamBufferSize)
  named := nofun

theorem overflow_wellFormed : Record.overflow.WellFormed where
  small := by decide
  named := nofun

/-- The end of the entry of a watch that the kernel no longer has, behind all events. -/
theorem Holds.forget (holds : Holds state) {wd : Int32} (ended : state.watches wd = none) :
    Holds { state with
      files := { state.files with mWatches := Function.update state.files.mWatches wd none }
      removals := state.removals ++ [⟨wd, state.events.length⟩] } := by
  constructor
  case known =>
    intro other stored found
    have differs : other ≠ wd := by
      rintro rfl
      have none_ : some stored = none := found.symm.trans ended
      cases none_
    exact (Function.update_of_ne differs _ _).trans (holds.known other stored found)
  case unread => exact holds.unread.setWatches _
  case entries =>
    intro index event stored later found path_ intact
    have inside : index < state.events.length := (List.getElem?_eq_some_iff.1 found).1
    have differs : event.record.wd ≠ wd := by
      intro same
      have last := intact ⟨wd, state.events.length⟩
        (List.mem_append_right _ (List.mem_singleton.2 rfl)) same.symm
      exact absurd inside (Nat.not_lt.2 last)
    have earlier : state.Intact index event.record.wd := by
      intro removal member same
      exact intact removal (List.mem_append_left _ member) same
    exact (Function.update_of_ne differs _ _).trans
      (holds.entries index event stored later found path_ earlier)
  case removed =>
    intro removal member
    rcases List.mem_append.1 member with earlier | last
    · exact holds.removed removal earlier
    · rw [List.mem_singleton.1 last]
  case inOrder => exact holds.inOrder

theorem fewer_of_update {entries : Int32 → Option Path} {key : Int32} (wd : Int32) (path : Path)
    (found : Function.update entries key none wd = some path) : entries wd = some path := by
  by_cases same : wd = key
  · subst same
    rw [Function.update_self] at found
    cases found
  · rw [Function.update_of_ne same] at found
    exact found

theorem holds_remove {fuel : Nat} (holds : Holds state) (wd : Int32) :
    Holds (next fuel state (.remove wd)) := by
  cases found : state.watches wd with
  | none =>
      have same : next fuel state (.remove wd) = state := by
        unfold next FileWatch.remove Inotify.rmWatch
        unfold State.watches at found
        dsimp only
        rw [State.watches, found]
        rfl
      rw [same]
      exact holds
  | some path =>
      have pushed : Holds (state.push (.ignored wd) (some path)
          (Function.update state.watches wd none)) := by
        apply holds.push (ignored_wellFormed wd) _ fewer_of_update
        rintro stored ⟨⟩
        exact holds.known wd path found
      have ended : (state.push (.ignored wd) (some path)
          (Function.update state.watches wd none)).watches wd = none :=
        Function.update_self ..
      have forgotten := pushed.forget ended
      have same : next fuel state (.remove wd) = { state.push (.ignored wd) (some path)
            (Function.update state.watches wd none) with
          files := { (state.push (.ignored wd) (some path)
              (Function.update state.watches wd none)).files with
            mWatches := Function.update state.files.mWatches wd none }
          removals := state.removals ++
            [⟨wd, (state.events ++ [(⟨.ignored wd, some path⟩ : Event)]).length⟩] } := by
        unfold next FileWatch.remove Inotify.rmWatch
        unfold State.watches at found
        dsimp only
        rw [State.watches, found, List.length_append]
        rfl
      rw [same]
      exact forgotten

/-! ### Waiting -/

theorem wait_upcoming {fuel : Nat} (enough : 2 ≤ fuel) (holds : Holds state) {event : Event}
    (found : state.upcoming = some event) (limit : Nat) :
    ∃ files, next fuel state (.wait limit) =
        { state with
          files := files
          waits := state.waits ++
            [.ok (event.record.outcome (state.files.mWatches event.record.wd))] } ∧
      Known files ∧ files.mWatches = state.files.mWatches ∧
      Unread files ((state.events.drop (state.waits.length + 1)).map Event.record) := by
  obtain ⟨inside, same⟩ := List.getElem?_eq_some_iff.1 found
  have split : (state.events.drop state.waits.length).map Event.record =
      event.record :: (state.events.drop (state.waits.length + 1)).map Event.record := by
    rw [List.drop_eq_getElem_cons inside, same]
    rfl
  have unread := holds.unread.setInotify { state.files.inotify with limit := limit }
    (List.append_nil _).symm (fun _ => nofun)
  rw [List.append_nil, split] at unread
  obtain ⟨files, takes, left, entries, watches⟩ := wait_takes unread enough
  refine ⟨files, ?_, ?_, entries, left⟩
  · unfold next
    dsimp only
    rw [takes]
    rfl
  · intro wd path stored
    rw [watches] at stored
    rw [entries]
    exact holds.known wd path stored

theorem upcoming_of_enabled {limit : Nat} (enabled : Enabled state (.wait limit)) :
    ∃ event, state.upcoming = some event :=
  ⟨_, List.getElem?_eq_getElem enabled⟩

theorem holds_wait {fuel : Nat} (enough : 2 ≤ fuel) (holds : Holds state) {limit : Nat}
    (enabled : Enabled state (.wait limit)) (kept : Kept state (.wait limit)) :
    Holds (next fuel state (.wait limit)) := by
  obtain ⟨event, found⟩ := upcoming_of_enabled enabled
  obtain ⟨inside, same⟩ := List.getElem?_eq_some_iff.1 found
  unfold Kept at kept
  dsimp only at kept
  rw [found] at kept
  obtain ⟨ofWatch, intact⟩ := kept
  obtain ⟨path, path_⟩ := Option.isSome_iff_exists.1 ofWatch
  have entry := holds.entries _ event path (Nat.le_refl _) found path_ intact
  obtain ⟨files, step, known, entries, unread⟩ := wait_upcoming enough holds found limit
  rw [step, entry]
  constructor
  case known => exact known
  case unread =>
    change Unread files ((state.events.drop (state.waits ++ [_]).length).map Event.record)
    rw [List.length_append]
    exact unread
  case entries =>
    intro index other stored later at_ otherPath still
    change files.mWatches other.record.wd = some stored
    rw [entries]
    apply holds.entries index other stored _ at_ otherPath still
    change (state.waits ++ [_]).length ≤ index at later
    rw [List.length_append] at later
    exact Nat.le_of_succ_le later
  case removed => exact holds.removed
  case inOrder =>
    have returns : Returns event (.ok (event.record.outcome (some path))) :=
      ⟨path, path_, rfl⟩
    change List.Forall₂ Returns (state.events.take (state.waits ++ [_]).length) (state.waits ++ [_])
    rw [List.length_append, List.length_singleton, List.take_succ_eq_append_getElem inside, same]
    exact List.rel_append holds.inOrder (.cons returns .nil)

theorem holds_next {fuel : Nat} (enough : 2 ≤ fuel) {action : Action} (holds : Holds state)
    (enabled : Enabled state action) (kept : Kept state action) :
    Holds (next fuel state action) := by
  cases action with
  | add path res => exact holds.adds (adds_add holds.known kept)
  | watch path recursive isDirectory entries => exact holds.adds (adds_addAll holds.known kept)
  | remove wd => exact holds_remove holds wd
  | event record =>
      apply holds.push enabled.2 _ (fun _ _ => id)
      intro stored found
      exact holds.known _ stored found
  | expire wd =>
      apply holds.push (ignored_wellFormed wd) _ fewer_of_update
      intro stored found
      exact holds.known _ stored found
  | overflow =>
      apply holds.push overflow_wellFormed _ (fun _ _ => id)
      intro stored impossible
      cases impossible
  | wait limit => exact holds_wait enough holds enabled kept

theorem holds_initial : Holds {} where
  known := fun _ _ => nofun
  unread := unread_new
  entries index event path _ found := by
    cases found
  removed := fun _ => nofun
  inOrder := .nil

theorem holds_after {fuel : Nat} (enough : 2 ≤ fuel) {actions : List Action}
    (runs : (machine fuel).Runs {} actions) (kept : (machine fuel).Along Kept {} actions) :
    Holds ((machine fuel).after {} actions) :=
  Machine.invariant_along Holds (fun _ _ => holds_next enough) holds_initial runs kept

/-- In every run in which no wait comes to an event of a removed watch, the waits return the
events in order, each once, with their paths, and throw nothing. -/
theorem waits_inOrder {fuel : Nat} (enough : 2 ≤ fuel) {actions : List Action}
    (runs : (machine fuel).Runs (machine fuel).initial actions)
    (kept : (machine fuel).Along Kept (machine fuel).initial actions) :
    InOrder ((machine fuel).after (machine fuel).initial actions) :=
  (holds_after enough runs kept).inOrder

/-- A directory and an entry of it, with an event for each and one wait. -/
theorem waits_inOrder_recursive :
    InOrder ((machine 2).after (machine 2).initial
      [.watch ([100], 1) true true [([100, 47, 97], 2)],
        .event ⟨1, 2, 0, [97], 15⟩, .event ⟨2, 2, 0, [], 0⟩, .wait 1]) := by
  apply waits_inOrder (by decide)
  · refine ⟨trivial, ⟨rfl, by decide, by decide⟩, ⟨rfl, by decide, by decide⟩, ?_, trivial⟩
    exact (by decide : (0 : Nat) < 2)
  · refine ⟨⟨fun _ _ => Or.inl rfl, fun _ _ => Or.inl rfl, trivial⟩, trivial, trivial, ?_, trivial⟩
    exact ⟨rfl, fun _ => nofun⟩

/-- The IN_IGNORED of a removed watch. -/
theorem not_inOrder_removed :
    ¬∀ actions, (machine 2).Runs (machine 2).initial actions →
      InOrder ((machine 2).after (machine 2).initial actions) := by
  intro all
  let front : List Action := [.add [97] 1, .remove 1]
  have holds : Holds ((machine 2).after {} front) := by
    apply holds_after (by decide)
    · exact ⟨trivial, trivial, trivial⟩
    · exact ⟨fun _ _ => Or.inl rfl, trivial, trivial⟩
  have runs : (machine 2).Runs (machine 2).initial (front ++ [.wait 0]) :=
    ⟨trivial, trivial, (by decide : (0 : Nat) < 1), trivial⟩
  have last (state : State) : (machine 2).after state [.wait 0] = next 2 state (.wait 0) := rfl
  have upcoming : ((machine 2).after {} front).upcoming = some ⟨.ignored 1, some [97]⟩ := rfl
  obtain ⟨files, step, _⟩ := wait_upcoming (by decide : 2 ≤ 2) holds upcoming 0
  have inOrder := all (front ++ [.wait 0]) runs
  rw [Machine.after_append, last] at inOrder
  have thrown : InOrder (next 2 ((machine 2).after {} front) (.wait 0)) := inOrder
  rw [step] at thrown
  obtain ⟨returns, _⟩ := List.forall₂_cons.1 thrown
  obtain ⟨path, _, impossible⟩ := returns
  cases impossible

end MCoro.FileWatches
