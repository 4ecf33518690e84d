/-
Totals over a population.

Members of a list of distinct names are each in some phase, and every phase has a
weight. A member that changes its phase changes the total by its own weight only.
-/

import Mathlib

namespace MCoro.Population

variable {Name Phase : Type}

def total (weight : Phase → Nat) (names : List Name) (phase : Name → Phase) : Nat :=
  (names.map fun name => weight (phase name)).sum

variable {weight : Phase → Nat} {names : List Name} {phase : Name → Phase}

@[simp]
theorem total_nil : total weight [] phase = 0 :=
  rfl

@[simp]
theorem total_cons (name : Name) :
    total weight (name :: names) phase = weight (phase name) + total weight names phase :=
  List.sum_cons

theorem total_append (front back : List Name) :
    total weight (front ++ back) phase = total weight front phase + total weight back phase := by
  unfold total
  rw [List.map_append, List.sum_append]

theorem total_eq_length (one : ∀ name ∈ names, weight (phase name) = 1) :
    total weight names phase = names.length := by
  induction names with
  | nil => rfl
  | cons name rest ih =>
      rw [List.forall_mem_cons] at one
      rw [total_cons, one.1, ih one.2, List.length_cons]
      exact Nat.add_comm ..

theorem total_congr {other : Name → Phase}
    (same : ∀ name ∈ names, weight (other name) = weight (phase name)) :
    total weight names other = total weight names phase := by
  unfold total
  exact congrArg List.sum (List.map_congr_left same)

theorem total_eq_zero_iff : total weight names phase = 0 ↔ ∀ name ∈ names, weight (phase name) = 0 := by
  induction names with
  | nil => simp
  | cons name rest ih => rw [total_cons, Nat.add_eq_zero_iff, ih, List.forall_mem_cons]

/-! ### Events

Every event concerns one member, whose weight it can lower by one. -/

theorem total_le_add {after : Name → Phase} {events : Name → Nat}
    (each : ∀ name ∈ names, weight (phase name) ≤ weight (after name) + events name) :
    total weight names phase ≤ total weight names after + total id names events := by
  induction names with
  | nil => exact Nat.le_refl _
  | cons name rest ih =>
      rw [List.forall_mem_cons] at each
      have tail := ih each.2
      have head := each.1
      rw [total_cons, total_cons, total_cons]
      change _ ≤ _ + (events name + _)
      omega

theorem total_lt_add {after : Name → Phase} {events : Name → Nat}
    (each : ∀ name ∈ names, weight (phase name) ≤ weight (after name) + events name)
    {name : Name} (member : name ∈ names)
    (strict : weight (phase name) < weight (after name) + events name) :
    total weight names phase < total weight names after + total id names events := by
  induction names with
  | nil => cases member
  | cons first rest ih =>
      rw [List.forall_mem_cons] at each
      have head := each.1
      have tail := total_le_add each.2
      rw [total_cons, total_cons, total_cons]
      change _ < _ + (events first + _)
      rcases List.mem_cons.1 member with same | later
      · subst same
        omega
      · have less := ih each.2 later
        omega

theorem total_le {before : Name → Phase}
    (each : ∀ name ∈ names, weight (phase name) ≤ weight (before name)) :
    total weight names phase ≤ total weight names before :=
  List.sum_le_sum each

theorem total_lt {before : Name → Phase}
    (each : ∀ name ∈ names, weight (phase name) ≤ weight (before name)) {name : Name}
    (member : name ∈ names) (strict : weight (phase name) < weight (before name)) :
    total weight names phase < total weight names before := by
  have none_ : total id names (fun _ => 0) = 0 := total_eq_zero_iff.2 fun _ _ => rfl
  have less : total weight names phase < total weight names before + total id names fun _ => 0 :=
    total_lt_add each member strict
  rw [none_] at less
  exact less

theorem total_eq_add {after : Name → Phase} {events : Name → Nat}
    (each : ∀ name ∈ names, weight (phase name) = weight (after name) + events name) :
    total weight names phase = total weight names after + total id names events := by
  induction names with
  | nil => rfl
  | cons name rest ih =>
      rw [List.forall_mem_cons] at each
      rw [total_cons, total_cons, total_cons, ih each.2, each.1]
      change _ = _ + (events name + _)
      omega

variable [DecidableEq Name]

theorem total_update_absent {name : Name} (absent : name ∉ names) (moved : Phase) :
    total weight names (Function.update phase name moved) = total weight names phase := by
  apply total_congr
  intro other member
  have different : other ≠ name := fun same => absent (same ▸ member)
  rw [Function.update_of_ne different]

variable (weight phase) in
/-- The old weight goes and the new one comes. -/
theorem total_update (distinct : names.Nodup) {name : Name} (member : name ∈ names)
    (moved : Phase) :
    total weight names (Function.update phase name moved) + weight (phase name) =
      total weight names phase + weight moved := by
  induction names with
  | nil => cases member
  | cons head rest ih =>
      rw [List.nodup_cons] at distinct
      rw [total_cons, total_cons]
      by_cases same : name = head
      · subst same
        rw [Function.update_self, total_update_absent distinct.1]
        omega
      · have later : name ∈ rest := (List.mem_cons.1 member).resolve_left same
        have tail := ih distinct.2 later
        have different : head ≠ name := fun equal => same equal.symm
        rw [Function.update_of_ne different]
        omega

variable (weight phase) in
theorem total_enter {name : Name} (absent : name ∉ names) (moved : Phase) :
    total weight (name :: names) (Function.update phase name moved) =
      total weight names phase + weight moved := by
  rw [total_cons, Function.update_self, total_update_absent absent]
  exact Nat.add_comm ..

theorem total_count (distinct : names.Nodup) {events : List Name}
    (within : ∀ event ∈ events, event ∈ names) :
    total id names (fun name => events.count name) = events.length := by
  induction events with
  | nil => exact total_eq_zero_iff.2 fun _ _ => rfl
  | cons event rest ih =>
      rw [List.forall_mem_cons] at within
      have one : (fun name => (event :: rest).count name) =
          Function.update (fun name => rest.count name) event (rest.count event + 1) := by
        funext name
        by_cases same : name = event
        · subst same
          rw [Function.update_self, List.count_cons_self]
        · rw [Function.update_of_ne same, List.count_cons_of_ne (Ne.symm same)]
      have more := total_update id (fun name => rest.count name) distinct within.1
        (rest.count event + 1)
      rw [ih within.2] at more
      rw [one, List.length_cons]
      change _ + rest.count event = _ + (rest.count event + 1) at more
      omega

end MCoro.Population
