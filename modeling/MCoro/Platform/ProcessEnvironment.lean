/-
The environment that a ProcessBuilder passes on, as the child looks it up.

Entries are only appended and the first one counts, so a variable keeps the value of
the copied environment, or the value it was given first. A store that is empty stands
for the whole environment of the parent, also after an opt-out.
-/

import MCoro.Platform.Process

namespace MCoro.ProcessBuilder

open StringUtils

inductive EnvCall where
  | inheritEnv (inherit : Bool)
  | env (key val : Text)
  deriving DecidableEq, Repr

def EnvCall.apply (environ : List Text) (builder : ProcessBuilder) : EnvCall → ProcessBuilder
  | .inheritEnv inherit => builder.inheritEnv environ inherit
  | .env key val => builder.env environ key val

/-- The environment array of a spawn after the calls on a fresh builder. -/
def passed (environ : List Text) (calls : List EnvCall) : List Text :=
  ((calls.foldl (EnvCall.apply environ) {}).spawnCall environ).envp

/-- What an entry says of the key, if it is one of the key. -/
def entryValue (key entry : Text) : Option Text :=
  if (key ++ [equalsSign]).isPrefixOf (cStr entry) then some ((cStr entry).drop (key.length + 1))
  else none

/-- getenv: the first entry of the key counts. -/
def getenv (envp : List Text) (key : Text) : Option Text :=
  envp.findSome? (entryValue key)

/-! ### What the child is meant to find -/

/-- The value of a call of env for the key. -/
def EnvCall.valueFor (key : Text) : EnvCall → Option Text
  | .inheritEnv _ => none
  | .env other val => if other = key then some val else none

def lastValue (key : Text) (calls : List EnvCall) : Option Text :=
  calls.reverse.findSome? (EnvCall.valueFor key)

def Inherits (calls : List EnvCall) : Prop :=
  .inheritEnv true ∈ calls ∨ .inheritEnv false ∉ calls

instance (calls : List EnvCall) : Decidable (Inherits calls) :=
  inferInstanceAs (Decidable (_ ∨ _))

/-- The last value given, else the inherited one. -/
def meant (environ : List Text) (calls : List EnvCall) (key : Text) : Option Text :=
  match lastValue key calls with
  | some val => some val
  | none => if Inherits calls then getenv environ key else none

/-! ### What it finds -/

/-- The first call of env whose entry is one of the key: the calls before it, and what
the entry says. -/
def firstSetter (key : Text) : List EnvCall → Option (List EnvCall × Text)
  | [] => none
  | .inheritEnv inherit :: calls =>
      (firstSetter key calls).map fun found => (.inheritEnv inherit :: found.1, found.2)
  | .env other val :: calls =>
      match entryValue key (other ++ [equalsSign] ++ val) with
      | some said => some ([], said)
      | none => (firstSetter key calls).map fun found => (.env other val :: found.1, found.2)

/-- The first of the calls is one of env, which copies the environment by default. -/
def startsWithEnv : List EnvCall → Bool
  | .env _ _ :: _ => true
  | _ => false

def EnvCall.isEnv : EnvCall → Bool
  | .env _ _ => true
  | .inheritEnv _ => false

/-- The environment was copied in front of what comes behind these of the calls. -/
def Copied (calls front : List EnvCall) : Prop :=
  startsWithEnv calls = true ∨ .inheritEnv true ∈ front

instance (calls front : List EnvCall) : Decidable (Copied calls front) :=
  inferInstanceAs (Decidable (_ ∨ _))

/-- Where the first entry of the key says what is meant. The last two rows are for keys
with a null character or an equals sign, which the entries of no or of other keys hold. -/
def FirstEntryFits (environ : List Text) (calls : List EnvCall) (key : Text) : Prop :=
  match lastValue key calls, firstSetter key calls with
  | none, none =>
      getenv environ key = none ∨ Inherits calls ∨
        (startsWithEnv calls = false ∧ calls.any EnvCall.isEnv = true)
  | some val, some (front, said) =>
      if (getenv environ key).isSome = true ∧ Copied calls front then
        getenv environ key = some val
      else said = val
  | some _, none => False
  | none, some (front, said) =>
      Inherits calls ∧
        if (getenv environ key).isSome = true ∧ Copied calls front then True
        else getenv environ key = some said

/-- What the calls append, from a builder on that has inherited or not. -/
def appended (environ : List Text) : Bool → List EnvCall → List Text
  | _, [] => []
  | _, .inheritEnv inherit :: calls =>
      (if inherit then environ.map cStr else []) ++ appended environ true calls
  | inherited, .env key val :: calls =>
      (if inherited then [] else environ.map cStr) ++
        (key ++ [equalsSign] ++ val) :: appended environ true calls

theorem env_leaves (environ : List Text) (builder : ProcessBuilder) (key val : Text) :
    (builder.env environ key val).mEnvpStore =
        builder.mEnvpStore ++ ((if builder.mEnvInherited then [] else environ.map cStr) ++
          [key ++ [equalsSign] ++ val]) ∧
      (builder.env environ key val).mEnvInherited = true := by
  unfold env
  cases inherited : builder.mEnvInherited with
  | true => exact ⟨rfl, inherited⟩
  | false => exact ⟨List.append_assoc _ _ _, rfl⟩

theorem foldl_store (environ : List Text) (calls : List EnvCall) (builder : ProcessBuilder) :
    (calls.foldl (EnvCall.apply environ) builder).mEnvpStore =
      builder.mEnvpStore ++ appended environ builder.mEnvInherited calls := by
  induction calls generalizing builder with
  | nil => exact (List.append_nil _).symm
  | cons call calls ih =>
      rw [List.foldl_cons, ih]
      cases call with
      | inheritEnv inherit =>
          cases inherit with
          | false => rfl
          | true => exact List.append_assoc _ _ _
      | env key val =>
          obtain ⟨store, inherited⟩ := env_leaves environ builder key val
          change (builder.env environ key val).mEnvpStore ++ appended environ
            (builder.env environ key val).mEnvInherited calls = _
          rw [store, inherited, appended, List.append_assoc, List.append_assoc]
          rfl

theorem passed_eq (environ : List Text) (calls : List EnvCall) :
    passed environ calls =
      if appended environ false calls = [] then environ else appended environ false calls := by
  have store := foldl_store environ calls {}
  rw [List.nil_append] at store
  unfold passed spawnCall
  rw [store]

/-! ### Entries -/

theorem getenv_append (front back : List Text) (key : Text) :
    getenv (front ++ back) key = (getenv front key).or (getenv back key) :=
  List.findSome?_append

theorem entryValue_cStr (key entry : Text) : entryValue key (cStr entry) = entryValue key entry := by
  have again : cStr (cStr entry) = cStr entry := List.takeWhile_idem
  unfold entryValue
  rw [again]

theorem getenv_map_cStr (environ : List Text) (key : Text) :
    getenv (environ.map cStr) key = getenv environ key := by
  unfold getenv
  rw [List.findSome?_map]
  congr 1
  funext entry
  exact entryValue_cStr key entry

theorem getenv_copied (copies : Prop) [Decidable copies] (environ rest : List Text) (key : Text) :
    getenv ((if copies then environ.map cStr else []) ++ rest) key =
      if copies then (getenv environ key).or (getenv rest key) else getenv rest key := by
  by_cases copied : copies
  · rw [if_pos copied, if_pos copied, getenv_append, getenv_map_cStr]
  · rw [if_neg copied, if_neg copied, List.nil_append]

theorem cStr_append_cons {front : Text} (plain : (0 : UInt8) ∉ front) {c : UInt8} (other : c ≠ 0)
    (back : Text) : cStr (front ++ c :: back) = front ++ c :: cStr back := by
  have kept : ∀ d ∈ front, decide (d ≠ 0) = true := by
    intro d member
    apply decide_eq_true
    intro zero
    rw [zero] at member
    exact plain member
  unfold cStr
  rw [List.takeWhile_append_of_pos kept, List.takeWhile_cons, if_pos (decide_eq_true other)]

theorem not_mem_of_entryValue {key entry said : Text} (found : entryValue key entry = some said) :
    (0 : UInt8) ∉ key := by
  intro member
  unfold entryValue at found
  by_cases starts : (key ++ [equalsSign]).isPrefixOf (cStr entry) = true
  · have inside : (0 : UInt8) ∈ cStr entry :=
      (List.isPrefixOf_iff_prefix.1 starts).subset (List.mem_append_left _ member)
    exact absurd (List.mem_takeWhile_imp inside) (by decide)
  · rw [if_neg starts] at found
    cases found

theorem entryValue_self {key : Text} (plain : (0 : UInt8) ∉ key) (val : Text) :
    entryValue key (key ++ [equalsSign] ++ val) = some (cStr val) := by
  have read : cStr (key ++ [equalsSign] ++ val) = key ++ [equalsSign] ++ cStr val := by
    rw [List.append_assoc, List.append_assoc]
    exact cStr_append_cons plain (by decide) val
  have length : (key ++ [equalsSign]).length = key.length + 1 := List.length_append
  unfold entryValue
  rw [read, if_pos (List.isPrefixOf_iff_prefix.2 (List.prefix_append _ _)), ← length,
    List.drop_left]

/-! ### The first entry of a key -/

theorem mem_cons_opted_out {calls : List EnvCall} :
    EnvCall.inheritEnv true ∈ .inheritEnv false :: calls ↔ .inheritEnv true ∈ calls := by
  rw [List.mem_cons]
  exact or_iff_right (by decide)

theorem mem_cons_env {key val : Text} {inherit : Bool} {calls : List EnvCall} :
    EnvCall.inheritEnv inherit ∈ .env key val :: calls ↔ .inheritEnv inherit ∈ calls := by
  rw [List.mem_cons]
  exact or_iff_right EnvCall.noConfusion

/-- The calls before the first setter of the key, all of them if there is none. -/
def ahead (key : Text) (calls : List EnvCall) : List EnvCall :=
  ((firstSetter key calls).map Prod.fst).getD calls

theorem ahead_cons {key : Text} {call : EnvCall} {calls : List EnvCall}
    (later : firstSetter key (call :: calls) =
      (firstSetter key calls).map fun found => (call :: found.1, found.2)) :
    ahead key (call :: calls) = call :: ahead key calls ∧
      (firstSetter key (call :: calls)).map Prod.snd = (firstSetter key calls).map Prod.snd := by
  unfold ahead
  rw [later]
  cases firstSetter key calls with
  | none => exact ⟨rfl, rfl⟩
  | some found => exact ⟨rfl, rfl⟩

theorem or_copied (copies : Prop) [Decidable copies] (value said : Option Text) :
    value.or (if copies then value.or said else said) = value.or said := by
  cases value with
  | none =>
      rw [Option.none_or, Option.none_or]
      exact ite_self _
  | some value => rfl

theorem getenv_appended (environ : List Text) (key : Text) (calls : List EnvCall) :
    getenv (appended environ true calls) key =
      if .inheritEnv true ∈ ahead key calls then
        (getenv environ key).or ((firstSetter key calls).map Prod.snd)
      else (firstSetter key calls).map Prod.snd := by
  induction calls with
  | nil => rfl
  | cons call calls ih =>
      cases call with
      | inheritEnv inherit =>
          have later : firstSetter key (.inheritEnv inherit :: calls) =
              (firstSetter key calls).map fun found => (.inheritEnv inherit :: found.1, found.2) :=
            rfl
          obtain ⟨before, said⟩ := ahead_cons later
          rw [appended, getenv_copied, ih, before, said]
          cases inherit with
          | false =>
              rw [if_neg Bool.false_ne_true]
              exact if_congr mem_cons_opted_out.symm rfl rfl
          | true =>
              rw [if_pos rfl, if_pos List.mem_cons_self]
              exact or_copied _ _ _
      | env other val =>
          rw [appended, if_pos rfl, List.nil_append]
          unfold getenv
          rw [List.findSome?_cons]
          cases value : entryValue key (other ++ [equalsSign] ++ val) with
          | some said =>
              have found : firstSetter key (.env other val :: calls) = some ([], said) := by
                rw [firstSetter, value]
              unfold ahead
              rw [found]
              exact (if_neg List.not_mem_nil).symm
          | none =>
              have later : firstSetter key (.env other val :: calls) =
                  (firstSetter key calls).map fun found => (.env other val :: found.1, found.2) := by
                rw [firstSetter, value]
              obtain ⟨before, said⟩ := ahead_cons later
              rw [before, said]
              exact ih.trans (if_congr mem_cons_env.symm rfl rfl)

theorem getenv_setter {environ : List Text} {key said : Text} {calls front : List EnvCall}
    (found : firstSetter key calls = some (front, said)) :
    getenv (appended environ true calls) key =
      if .inheritEnv true ∈ front then (getenv environ key).or (some said) else some said := by
  have first := getenv_appended environ key calls
  unfold ahead at first
  rw [found] at first
  exact first

theorem getenv_no_setter {environ : List Text} {key : Text} {calls : List EnvCall}
    (absent : firstSetter key calls = none) :
    getenv (appended environ true calls) key =
      if .inheritEnv true ∈ calls then (getenv environ key).or none else none := by
  have first := getenv_appended environ key calls
  unfold ahead at first
  rw [absent] at first
  exact first

/-! ### What the child finds -/

theorem appended_eq_nil {environ : List Text} {inherited : Bool} {calls : List EnvCall}
    (empty : appended environ inherited calls = []) :
    calls.any EnvCall.isEnv = false ∧ (.inheritEnv true ∈ calls → environ = []) := by
  induction calls generalizing inherited with
  | nil => exact ⟨rfl, fun member => (by cases member)⟩
  | cons call calls ih =>
      cases call with
      | inheritEnv inherit =>
          obtain ⟨first, rest⟩ := List.append_eq_nil_iff.1 empty
          obtain ⟨noEnv, nothing⟩ := ih rest
          refine ⟨noEnv, fun member => ?_⟩
          cases inherit with
          | true => exact List.map_eq_nil_iff.1 first
          | false => exact nothing (mem_cons_opted_out.1 member)
      | env key val =>
          exact absurd (List.append_eq_nil_iff.1 empty).2 (List.cons_ne_nil _ _)

theorem firstSetter_eq_none {key : Text} {calls : List EnvCall}
    (noEnv : calls.any EnvCall.isEnv = false) : firstSetter key calls = none := by
  induction calls with
  | nil => rfl
  | cons call calls ih =>
      rw [List.any_cons, Bool.or_eq_false_iff] at noEnv
      cases call with
      | inheritEnv inherit =>
          rw [firstSetter, ih noEnv.2]
          rfl
      | env other val => cases noEnv.1

theorem appended_false (environ : List Text) (calls : List EnvCall) :
    appended environ false calls =
      (if startsWithEnv calls = true then environ.map cStr else []) ++
        appended environ true calls := by
  cases calls with
  | nil => rfl
  | cons call calls =>
      cases call with
      | inheritEnv inherit => rfl
      | env key val => rfl

theorem appended_opted_out (environ : List Text) {calls : List EnvCall} (inherited : Bool)
    (noEnv : calls.any EnvCall.isEnv = false) (noCopy : .inheritEnv true ∉ calls) :
    appended environ inherited calls = [] := by
  induction calls generalizing inherited with
  | nil => rfl
  | cons call calls ih =>
      rw [List.any_cons, Bool.or_eq_false_iff] at noEnv
      cases call with
      | inheritEnv inherit =>
          cases inherit with
          | true => exact absurd List.mem_cons_self noCopy
          | false => exact ih true noEnv.2 fun member => noCopy (mem_cons_opted_out.2 member)
      | env key val => cases noEnv.1

theorem getenv_passed_setter {environ : List Text} {key said : Text} {calls front : List EnvCall}
    (found : firstSetter key calls = some (front, said)) :
    getenv (passed environ calls) key =
      if Copied calls front then (getenv environ key).or (some said) else some said := by
  have filled : appended environ false calls ≠ [] := by
    intro empty
    rw [firstSetter_eq_none (appended_eq_nil empty).1] at found
    cases found
  rw [passed_eq, if_neg filled, appended_false, getenv_copied, getenv_setter found]
  by_cases starts : startsWithEnv calls = true
  · have copied : Copied calls front := .inl starts
    rw [if_pos starts, if_pos copied]
    exact or_copied _ _ _
  · rw [if_neg starts]
    exact if_congr (or_iff_right starts).symm rfl rfl

theorem getenv_passed_no_setter {environ : List Text} {key : Text} {calls : List EnvCall}
    (absent : firstSetter key calls = none) :
    getenv (passed environ calls) key =
      if Copied calls calls ∨ calls.any EnvCall.isEnv = false then getenv environ key
      else none := by
  rw [passed_eq]
  by_cases empty : appended environ false calls = []
  · rw [if_pos empty, if_pos (.inr (appended_eq_nil empty).1)]
  · rw [if_neg empty, appended_false, getenv_copied, getenv_no_setter absent]
    by_cases starts : startsWithEnv calls = true
    · have kept : Copied calls calls ∨ calls.any EnvCall.isEnv = false := .inl (.inl starts)
      rw [if_pos starts, if_pos kept, or_copied, Option.or_none]
    · rw [if_neg starts, Option.or_none]
      by_cases member : .inheritEnv true ∈ calls
      · have kept : Copied calls calls ∨ calls.any EnvCall.isEnv = false := .inl (.inr member)
        rw [if_pos member, if_pos kept]
      · have uncopied : ¬Copied calls calls := not_or.2 ⟨starts, member⟩
        have someEnv : ¬calls.any EnvCall.isEnv = false := by
          intro noEnv
          exact empty (appended_opted_out environ false noEnv member)
        rw [if_neg member, if_neg (not_or.2 ⟨uncopied, someEnv⟩)]

theorem firstSetter_isSome {key val : Text} {calls : List EnvCall} (plain : (0 : UInt8) ∉ key)
    (member : .env key val ∈ calls) : firstSetter key calls ≠ none := by
  induction calls with
  | nil => cases member
  | cons call calls ih =>
      intro absent
      rcases List.mem_cons.1 member with rfl | later
      · rw [firstSetter, entryValue_self plain] at absent
        cases absent
      · cases call with
        | inheritEnv inherit => exact ih later (Option.map_eq_none_iff.1 absent)
        | env other val' =>
            rw [firstSetter] at absent
            cases value : entryValue key (other ++ [equalsSign] ++ val') with
            | some said =>
                rw [value] at absent
                cases absent
            | none =>
                rw [value] at absent
                exact ih later (Option.map_eq_none_iff.1 absent)

theorem mem_of_lastValue {key val : Text} {calls : List EnvCall}
    (given : lastValue key calls = some val) : .env key val ∈ calls := by
  obtain ⟨call, member, values⟩ := List.exists_of_findSome?_eq_some given
  cases call with
  | inheritEnv inherit => cases values
  | env other val' =>
      change (if other = key then some val' else none) = some val at values
      by_cases same : other = key
      · rw [if_pos same] at values
        cases values
        rw [← same]
        exact List.mem_reverse.1 member
      · rw [if_neg same] at values
        cases values

/-- A key that is set without an entry has a null character, so no lookup finds it. -/
theorem getenv_of_no_setter {environ : List Text} {key val : Text} {calls : List EnvCall}
    (given : lastValue key calls = some val) (absent : firstSetter key calls = none) :
    getenv environ key = none := by
  unfold getenv
  rw [List.findSome?_eq_none_iff]
  intro entry member
  cases found : entryValue key entry with
  | none => rfl
  | some said =>
      exact absurd absent (firstSetter_isSome (not_mem_of_entryValue found) (mem_of_lastValue given))

/-- Where the environment is meant to be inherited, it is copied or passed as it is. -/
theorem copied_of_inherits {calls : List EnvCall} (inherits : Inherits calls) :
    Copied calls calls ∨ calls.any EnvCall.isEnv = false := by
  rcases inherits with copies | never
  · exact .inl (.inr copies)
  · cases calls with
    | nil => exact .inr rfl
    | cons call calls =>
        cases call with
        | inheritEnv inherit =>
            cases inherit with
            | true => exact .inl (.inr List.mem_cons_self)
            | false => exact absurd List.mem_cons_self never
        | env key val => exact .inl (.inl rfl)

theorem first_eq_iff (copied : Prop) [Decidable copied] (value : Option Text) (said val : Text) :
    (if copied then value.or (some said) else some said) = some val ↔
      if value.isSome = true ∧ copied then value = some val else said = val := by
  by_cases before : copied
  · cases value with
    | none => rw [if_pos before, if_neg (by simp), Option.none_or, Option.some.injEq]
    | some value => rw [if_pos before, if_pos ⟨rfl, before⟩, Option.some_or]
  · rw [if_neg before, if_neg fun both => before both.2, Option.some.injEq]

theorem first_ne_none (copied : Prop) [Decidable copied] (value : Option Text) (said : Text) :
    (if copied then value.or (some said) else some said) ≠ none := by
  split
  · cases value <;> exact Option.some_ne_none _
  · exact Option.some_ne_none _

/-- A lookup in the child finds what is meant just where the first entry says it. -/
theorem getenv_passed_iff (environ : List Text) (calls : List EnvCall) (key : Text) :
    getenv (passed environ calls) key = meant environ calls key ↔
      FirstEntryFits environ calls key := by
  unfold meant FirstEntryFits
  cases given : lastValue key calls with
  | none =>
      cases found : firstSetter key calls with
      | none =>
          dsimp only
          rw [getenv_passed_no_setter found]
          by_cases inherits : Inherits calls
          · rw [if_pos (copied_of_inherits inherits), if_pos inherits]
            exact iff_of_true rfl (.inr (.inl inherits))
          · rw [if_neg inherits]
            by_cases kept : Copied calls calls ∨ calls.any EnvCall.isEnv = false
            · rw [if_pos kept]
              constructor
              · exact .inl
              · rintro (nothing | inherits' | ⟨starts, someEnv⟩)
                · exact nothing
                · exact absurd inherits' inherits
                · rcases kept with (starts' | copies) | noEnv
                  · rw [starts] at starts'
                    cases starts'
                  · exact absurd (.inl copies) inherits
                  · rw [someEnv] at noEnv
                    cases noEnv
            · obtain ⟨uncopied, someEnv⟩ := not_or.1 kept
              rw [if_neg kept]
              exact iff_of_true rfl (.inr (.inr ⟨Bool.eq_false_of_not_eq_true
                fun starts => uncopied (.inl starts), Bool.eq_true_of_not_eq_false someEnv⟩))
      | some setter =>
          obtain ⟨front, said⟩ := setter
          dsimp only
          rw [getenv_passed_setter found]
          by_cases inherits : Inherits calls
          · rw [if_pos inherits, and_iff_right inherits]
            cases getenv environ key with
            | none =>
                apply iff_of_false (first_ne_none _ none said)
                rw [if_neg fun both => Bool.false_ne_true both.1]
                exact (Option.some_ne_none said).symm
            | some value =>
                rw [first_eq_iff]
                by_cases before : Copied calls front
                · rw [if_pos ⟨rfl, before⟩, if_pos ⟨rfl, before⟩]
                  exact iff_of_true rfl trivial
                · rw [if_neg fun both => before both.2, if_neg fun both => before both.2,
                    Option.some.injEq]
                  exact eq_comm
          · rw [if_neg inherits]
            exact iff_of_false (first_ne_none _ _ said) fun both => inherits both.1
  | some val =>
      cases found : firstSetter key calls with
      | none =>
          dsimp only
          rw [getenv_passed_no_setter found, getenv_of_no_setter given found, ite_self]
          exact iff_of_false (by intro impossible; cases impossible) not_false
      | some setter =>
          obtain ⟨front, said⟩ := setter
          dsimp only
          rw [getenv_passed_setter found]
          exact first_eq_iff (Copied calls front) (getenv environ key) said val

/-- `inherit_env(false)` alone, with A=1 in the parent; and `env("A", "2")` there. -/
theorem getenv_passed_wrong :
    getenv (passed [[65, 61, 49]] [.inheritEnv false]) [65] ≠
        meant [[65, 61, 49]] [.inheritEnv false] [65] ∧
      getenv (passed [[65, 61, 49]] [.env [65] [50]]) [65] ≠
        meant [[65, 61, 49]] [.env [65] [50]] [65] := by
  decide

end MCoro.ProcessBuilder
