/-
co_async/utils/string_utils.hpp: the rest of a text behind the pieces that were cut off.

rest() adds the lengths of the current piece and of what is still to be searched, and
takes that many characters from the beginning of the current piece. The delimiter
between the two is not counted, so characters are missing at the end.
-/

import MCoro.Utils.StringUtils

namespace MCoro

namespace StringUtils

open Delimiters

namespace SplitString

/-- The loop of `collect<N>`, with the array that it fills. -/
def collectArrayLoop (N : Nat) : Nat → Iterator → Nat → List Text → Option (List Text)
  | 0, _, _, _ => none
  | fuel + 1, it, i, result =>
      if it.ended then some result
      else if N ≤ i + 1 then some (result.set i it.rest.chars)
      else collectArrayLoop N fuel it.findNext (i + 1) (result.set i it.current.chars)

/-- `collect<N>`, from an array of N empty strings on. -/
def collectArray (split : SplitString) (N fuel : Nat) : Option (List Text) :=
  collectArrayLoop N fuel split.begin 0 (List.replicate N [])

/-- The iterator behind that many `++it`. -/
def position (split : SplitString) (i : Nat) : Iterator :=
  Iterator.findNext^[i] split.begin

end SplitString

/-- The suffix of the text that begins with the piece of that number. -/
def suffixFrom (delimiter : Delim) (pieces : List Text) (i : Nat) : Text :=
  delimiter.chars.intercalate (pieces.drop i)

/-! ### What rest() gives -/

theorem Iterator.rest_last {it : Iterator} (absent : ¬it.delimiter.chars <:+: it.s.chars) :
    it.findNext.rest.chars = it.s.chars := by
  rw [findNext_none absent]
  exact List.take_left

theorem Iterator.rest_inner {it : Iterator} {line after : Text}
    (found : First it.delimiter.chars it.s.chars line after) :
    it.findNext.rest.chars = it.s.chars.take (line.length + after.length) := by
  rcases find_cases it.delimiter.chars it.s.chars with ⟨_, nowhere⟩ | ⟨front, back, place, first⟩
  · exact absurd found.occurs nowhere
  · obtain ⟨same, _⟩ := found.unique first
    subst same
    obtain ⟨current, behind, _⟩ := findNext_some found
    have view : it.findNext.current.chars ++ it.findNext.current.behind =
        it.s.chars ++ it.s.behind := by
      unfold findNext
      rw [place]
      change it.s.chars.take line.length ++ (it.s.chars.drop line.length ++ it.s.behind) = _
      rw [← List.append_assoc, List.take_append_drop]
    have whole := congrArg List.length found.split
    rw [List.length_append, List.length_append] at whole
    change (it.findNext.current.chars ++ it.findNext.current.behind).take
      (it.findNext.current.chars.length + it.findNext.s.chars.length) = _
    rw [view, current, behind, List.take_append_of_le_length (by omega)]

/-- At the last piece all of it is given, before it as many characters too few as the
delimiter has. -/
def RestAt (delimiter : Delim) (pieces : List Text) (i : Nat) (it : Iterator) : Prop :=
  it.rest.chars =
    if i + 1 = pieces.length then suffixFrom delimiter pieces i
    else (suffixFrom delimiter pieces i).take
      ((suffixFrom delimiter pieces i).length - delimiter.size)

theorem Iterator.position_cut {eol s : Text} {pieces : List Text} (cut : Pieces eol s pieces)
    {delimiter : Delim} (chars : delimiter.chars = eol) {it : Iterator}
    (searched : it.delimiter = delimiter) (front : it.s.chars = s) (going : it.ended = false)
    (more : it.toBeEnded = false) (i : Nat) (inside : i < pieces.length) :
    (findNext^[i] it.findNext).ended = false ∧
      (findNext^[i] it.findNext).current.chars = pieces[i] ∧
      RestAt delimiter pieces i (findNext^[i] it.findNext) := by
  induction cut generalizing it i with
  | @last cells absent =>
      have zero : i = 0 := Nat.lt_one_iff.1 inside
      subst zero
      rw [← chars, ← searched, ← front] at absent
      refine ⟨?_, ?_, ?_⟩
      · change it.findNext.ended = false
        rw [findNext_none absent]
        exact more
      · change it.findNext.current.chars = _
        rw [findNext_none absent]
        exact front
      · unfold RestAt
        rw [if_pos (List.length_singleton (a := cells)).symm]
        change it.findNext.rest.chars = _
        rw [rest_last absent, front]
        exact List.intercalate_singleton.symm
  | @cut cells line after others found rest ih =>
      have whole := congrArg List.length found.split
      rw [List.length_append, List.length_append] at whole
      have several := List.length_pos_of_ne_nil rest.ne_nil
      have here := found
      rw [← chars, ← searched, ← front] at here
      obtain ⟨current, behind, same, ended, toBeEnded⟩ := findNext_some here
      cases i with
      | zero =>
          refine ⟨ended.trans going, current, ?_⟩
          have inner : ¬(0 + 1 = (line :: others).length) := by
            rw [List.length_cons]
            omega
          have suffix : suffixFrom delimiter (line :: others) 0 = cells := by
            rw [suffixFrom, chars, List.drop_zero, (Pieces.cut found rest).intercalate]
          unfold RestAt
          rw [if_neg inner, suffix]
          change it.findNext.rest.chars = _
          rw [rest_inner here, front]
          congr 1
          rw [delimiter.size_eq, chars]
          omega
      | succ i =>
          obtain ⟨running, text, remaining⟩ := ih (same.trans searched) behind (ended.trans going)
            (toBeEnded.trans more) i (Nat.lt_of_succ_lt_succ inside)
          refine ⟨running, text, ?_⟩
          unfold RestAt suffixFrom at remaining ⊢
          rw [List.drop_succ_cons, List.length_cons]
          change (findNext^[i] it.findNext.findNext).rest.chars = _
          rw [remaining]
          congr 1
          exact propext (Nat.succ_inj (a := i + 1)).symm

theorem RestAt.length_lt {delimiter : Delim} {pieces : List Text} {i : Nat} {it : Iterator}
    (given : RestAt delimiter pieces i it) (nonempty : delimiter.chars ≠ [])
    (inner : i + 1 < pieces.length) :
    it.rest.chars.length < (suffixFrom delimiter pieces i).length := by
  have positive := List.length_pos_of_ne_nil nonempty
  have several : pieces.drop (i + 1) ≠ [] := by
    intro nothing
    rw [List.drop_eq_nil_iff] at nothing
    omega
  have split : suffixFrom delimiter pieces i =
      pieces[i] ++ delimiter.chars ++ suffixFrom delimiter pieces (i + 1) := by
    unfold suffixFrom
    rw [List.drop_eq_getElem_cons (by omega), List.intercalate_cons_of_ne_nil several]
  have long : delimiter.size ≤ (suffixFrom delimiter pieces i).length := by
    rw [split, delimiter.size_eq, List.length_append, List.length_append]
    omega
  unfold RestAt at given
  rw [given, if_neg (by omega), List.length_take, delimiter.size_eq]
  rw [delimiter.size_eq] at long
  omega

theorem RestAt.right_iff {delimiter : Delim} {pieces : List Text} {i : Nat} {it : Iterator}
    (given : RestAt delimiter pieces i it) (nonempty : delimiter.chars ≠ [])
    (inside : i < pieces.length) :
    it.rest.chars = suffixFrom delimiter pieces i ↔ i + 1 = pieces.length := by
  constructor
  · intro right
    by_contra inner
    have shorter := given.length_lt nonempty (by omega)
    rw [right] at shorter
    exact Nat.lt_irrefl _ shorter
  · intro last
    unfold RestAt at given
    rw [given, if_pos last]

/-! ### collect<N> -/

namespace SplitString

theorem collectArrayLoop_eq (count : Nat) (it : Iterator) (filled : List Text)
    (running : ∀ j ≤ count, (Iterator.findNext^[j] it).ended = false) {fuel : Nat}
    (enough : count < fuel) :
    collectArrayLoop (filled.length + count + 1) fuel it filled.length
        (filled ++ List.replicate (count + 1) []) =
      some (filled ++
        (List.range count).map (fun j => (Iterator.findNext^[j] it).current.chars) ++
        [(Iterator.findNext^[count] it).rest.chars]) := by
  induction count generalizing it filled fuel with
  | zero =>
      obtain ⟨fuel, rfl⟩ := Nat.exists_eq_add_of_lt enough
      have here := running 0 (Nat.le_refl 0)
      rw [Function.iterate_zero_apply] at here
      rw [collectArrayLoop, here, if_neg Bool.false_ne_true, if_pos (by omega),
        List.set_append_right _ _ (Nat.le_refl _), Nat.sub_self]
      simp
  | succ count ih =>
      obtain ⟨fuel, rfl⟩ := Nat.exists_eq_add_of_lt enough
      have here := running 0 (Nat.zero_le _)
      rw [Function.iterate_zero_apply] at here
      have next := ih it.findNext (filled ++ [it.current.chars])
        (fun j bound => running (j + 1) (Nat.succ_le_succ bound))
        (by omega : count < count + 1 + fuel)
      have total : filled.length + 1 + count = filled.length + (count + 1) := by omega
      have array : filled ++ (List.replicate (count + 1 + 1) []).set 0 it.current.chars =
          filled ++ [it.current.chars] ++ List.replicate (count + 1) [] := by
        rw [List.replicate_succ, List.set_cons_zero, List.append_assoc]
        rfl
      rw [List.length_append, List.length_singleton, total, ← array] at next
      rw [collectArrayLoop, here, if_neg Bool.false_ne_true, if_neg (by omega),
        List.set_append_right _ _ (Nat.le_refl _), Nat.sub_self, next, List.range_succ_eq_map,
        List.map_cons, List.map_map, List.append_assoc filled]
      rfl

theorem collectArray_eq {split : SplitString} {pieces : List Text}
    (reached : ∀ i, (inside : i < pieces.length) →
      (split.position i).ended = false ∧ (split.position i).current.chars = pieces[i])
    {N fuel : Nat} (positive : 0 < N) (several : N ≤ pieces.length) (enough : N ≤ fuel) :
    split.collectArray N fuel =
      some (pieces.take (N - 1) ++ [(split.position (N - 1)).rest.chars]) := by
  obtain ⟨count, rfl⟩ := Nat.exists_eq_succ_of_ne_zero (Nat.ne_of_gt positive)
  have filled := collectArrayLoop_eq count split.begin []
    (fun j bound => (reached j (by omega)).1) enough
  rw [List.length_nil, Nat.zero_add, List.nil_append, List.nil_append] at filled
  unfold collectArray
  rw [Nat.succ_eq_add_one, Nat.add_sub_cancel, filled]
  congr 2
  apply List.ext_getElem
  · rw [List.length_map, List.length_range, List.length_take]
    omega
  · intro i inside _
    rw [List.length_map, List.length_range] at inside
    rw [List.getElem_map, List.getElem_range, List.getElem_take]
    exact (reached i (by omega)).2

end SplitString

/-! ### When the rest is right -/

/-- Every position before the end is at its piece. The rest from there is the suffix just
at the last piece; collect<N> leaves out nothing just for N the number of pieces. -/
theorem rest_iff (s : StringView) (delimiter : Delim) (nonempty : delimiter.chars ≠ [])
    {pieces : List Text} (cut : Pieces delimiter.chars s.chars pieces) :
    (∀ i, (inside : i < pieces.length) →
      ((splitString s delimiter).position i).ended = false ∧
      ((splitString s delimiter).position i).current.chars = pieces[i] ∧
      (((splitString s delimiter).position i).rest.chars = suffixFrom delimiter pieces i ↔
        i + 1 = pieces.length)) ∧
    ∀ N fuel, 0 < N → N ≤ pieces.length → N ≤ fuel →
      ∃ results, (splitString s delimiter).collectArray N fuel = some results ∧
        results.length = N ∧ results.take (N - 1) = pieces.take (N - 1) ∧
        (results = pieces.take (N - 1) ++ [suffixFrom delimiter pieces (N - 1)] ↔
          N = pieces.length) ∧
        (delimiter.chars.intercalate results = s.chars ↔ N = pieces.length) := by
  have position : ∀ i, (inside : i < pieces.length) →
      ((splitString s delimiter).position i).ended = false ∧
      ((splitString s delimiter).position i).current.chars = pieces[i] ∧
      RestAt delimiter pieces i ((splitString s delimiter).position i) :=
    Iterator.position_cut cut rfl rfl rfl rfl rfl
  constructor
  case left =>
    intro i inside
    obtain ⟨running, text, remaining⟩ := position i inside
    exact ⟨running, text, remaining.right_iff nonempty inside⟩
  case right =>
    intro N fuel positive several enough
    have inside : N - 1 < pieces.length := by omega
    obtain ⟨_, _, remaining⟩ := position (N - 1) inside
    have right := remaining.right_iff nonempty inside
    rw [Nat.sub_add_cancel positive] at right
    have whole : delimiter.chars.intercalate
        (pieces.take (N - 1) ++ [suffixFrom delimiter pieces (N - 1)]) = s.chars := by
      have left : pieces.drop (N - 1) ≠ [] := by
        intro nothing
        rw [List.drop_eq_nil_iff] at nothing
        omega
      rw [suffixFrom, intercalate_join _ _ left, List.take_append_drop, cut.intercalate]
    refine ⟨_, SplitString.collectArray_eq (fun i bound => ⟨(position i bound).1,
      (position i bound).2.1⟩) positive several enough, ?_, ?_, ?_, ?_⟩
    · rw [List.length_append, List.length_take, List.length_singleton]
      omega
    · rw [List.take_append_of_le_length (by rw [List.length_take]; omega), List.take_take,
        Nat.min_self]
    · rw [List.append_cancel_left_eq, List.cons.injEq, and_iff_left rfl]
      exact right
    · rw [← right, ← whole]
      constructor
      · exact intercalate_cancel _ _
      · intro same
        rw [same]

theorem pieces_abc : Pieces (Delim.char 61).chars [97, 61, 98, 61, 99] [[97], [98], [99]] := by
  have third : Pieces (Delim.char 61).chars [99] [[99]] := .last (by decide)
  have second : Pieces (Delim.char 61).chars [98, 61, 99] [[98], [99]] :=
    .cut ⟨rfl, by decide⟩ third
  exact .cut ⟨rfl, by decide⟩ second

theorem rest_iff_abc :
    ((splitString { chars := [97, 61, 98, 61, 99], behind := [0] } (.char 61)).position 2).rest.chars =
        suffixFrom (.char 61) [[97], [98], [99]] 2 ∧
      (splitString { chars := [97, 61, 98, 61, 99], behind := [0] } (.char 61)).collectArray 3 3 =
        some [[97], [98], [99]] := by
  have both := rest_iff { chars := [97, 61, 98, 61, 99], behind := [0] } (.char 61)
    (List.cons_ne_nil _ _) pieces_abc
  obtain ⟨results, collected, _, _, whole, _⟩ := both.2 3 3 (by omega) (Nat.le_refl 3) (Nat.le_refl 3)
  refine ⟨(both.1 2 (by decide)).2.2.2 rfl, ?_⟩
  rw [collected, whole.2 rfl]
  rfl

/-- The first two places of "a=b=c" are "a" and "b=", and at "a" the rest is "a=b=". -/
theorem rest_abc_truncated :
    Pieces (Delim.char 61).chars [97, 61, 98, 61, 99] [[97], [98], [99]] ∧
      ((splitString { chars := [97, 61, 98, 61, 99], behind := [0] } (.char 61)).position 0).rest.chars =
        [97, 61, 98, 61] ∧
      suffixFrom (.char 61) [[97], [98], [99]] 0 = [97, 61, 98, 61, 99] ∧
      (splitString { chars := [97, 61, 98, 61, 99], behind := [0] } (.char 61)).collectArray 2 2 =
        some [[97], [98, 61]] ∧
      (Delim.char 61).chars.intercalate [[97], [98, 61]] ≠ [97, 61, 98, 61, 99] := by
  refine ⟨pieces_abc, ?_, ?_, ?_, ?_⟩ <;> decide

end StringUtils

end MCoro
