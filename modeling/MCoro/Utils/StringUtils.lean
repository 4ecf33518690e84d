/-
co_async/utils/string_utils.hpp: numbers as text, and cutting a text at a delimiter.

A std::string is the list of its bytes. A std::string_view is that as well where
only its characters matter; SplitString, which goes beyond the end of one, has views
that know the memory behind them.
-/

import MCoro.Library.Splitting

namespace MCoro

/-- `std::string`, and the characters of a `std::string_view`. -/
abbrev Text := List UInt8

namespace StringUtils

/-- A string as its `c_str()` is read: up to the first null character. -/
def cStr (s : Text) : Text :=
  s.takeWhile (· ≠ 0)

/-! ### The standard library's searches -/

/-- `find`: the first position at which the pattern stands. -/
def find (pattern : Text) : Text → Option Nat
  | [] => if pattern = [] then some 0 else none
  | c :: s => if pattern.isPrefixOf (c :: s) then some 0 else (find pattern s).map (· + 1)

/-- `rfind`: the last such position. -/
def rfind (pattern : Text) : Text → Option Nat
  | [] => if pattern = [] then some 0 else none
  | c :: s =>
      match rfind pattern s with
      | some pos => some (pos + 1)
      | none => if pattern.isPrefixOf (c :: s) then some 0 else none

/-! ### Numbers -/

/-- An integral type: the bits of its values, one of them for the sign if it has one. -/
structure Integral where
  signed : Bool
  bits : Nat
  deriving DecidableEq, Repr

namespace Integral

/-- `std::numeric_limits<T>::digits`. -/
def digits (T : Integral) : Nat :=
  if T.signed then T.bits - 1 else T.bits

def min (T : Integral) : Int :=
  if T.signed then -(2 ^ T.digits : Nat) else 0

def max (T : Integral) : Int :=
  (2 ^ T.digits : Nat) - 1

/-- `std::numeric_limits<T>::digits10`: that many decimal digits always fit. -/
def digits10 (T : Integral) : Nat :=
  Nat.log 10 (2 ^ T.digits)

end Integral

def int : Integral :=
  { signed := true
    bits := 32 }

/-- The value of a digit or letter, upper or lower case. -/
def digitValue (c : UInt8) : Option Nat :=
  if 48 ≤ c.toNat ∧ c.toNat ≤ 57 then some (c.toNat - 48)
  else if 97 ≤ c.toNat ∧ c.toNat ≤ 122 then some (c.toNat - 87)
  else if 65 ≤ c.toNat ∧ c.toNat ≤ 90 then some (c.toNat - 55)
  else none

/-- The values of the digits that the text begins with, and what is behind them. -/
def scanDigits (base : Nat) : Text → List Nat × Text
  | [] => ([], [])
  | c :: s =>
      match digitValue c with
      | none => ([], c :: s)
      | some digit =>
          if digit < base then (digit :: (scanDigits base s).1, (scanDigits base s).2)
          else ([], c :: s)

def minus : UInt8 := 45

/-- `std::from_chars` behind the sign: none for an error code, else the value and the
characters from the returned pointer on. -/
def fromDigits (T : Integral) (negative : Bool) (base : Nat) (s : Text) : Option (Int × Text) :=
  match scanDigits base s with
  | ([], _) => none
  | (digits, rest) =>
      let magnitude : Int := digits.foldl (fun (value : Int) (digit : Nat) => value * base + digit) 0
      let value := if negative then -magnitude else magnitude
      if T.min ≤ value ∧ value ≤ T.max then some (value, rest) else none

def fromChars (T : Integral) (base : Nat) : Text → Option (Int × Text)
  | [] => none
  | c :: s =>
      if c = minus ∧ T.signed = true then fromDigits T true base s
      else fromDigits T false base (c :: s)

/-- `from_string_t<T>` of an integral type. -/
def fromString (T : Integral) (s : Text) (base : Nat) : Option Int :=
  match fromChars T base s with
  | none => none
  | some (result, rest) => if rest = [] then some result else none

/-- The digits of a number in base ten, the highest first. -/
def decimalDigits (n : Nat) : List Nat :=
  if n = 0 then [0] else (Nat.digits 10 n).reverse

def digitChar (digit : Nat) : UInt8 :=
  UInt8.ofNat (48 + digit)

/-- The characters that std::to_chars writes for a number in base ten. -/
def decimal (n : Nat) : Text :=
  (decimalDigits n).map digitChar

/-- `std::to_chars`: none for an error code, which says that the room is too small. -/
def toChars (room : Nat) (value : Int) : Option Text :=
  let text := if value < 0 then minus :: decimal value.natAbs else decimal value.natAbs
  if text.length ≤ room then some text else none

/-- `to_string_t<T>` of an integral type; none is the exception. -/
def toString (T : Integral) (value : Int) : Option Text :=
  toChars (T.digits10 + 2) value

/-! ### SplitString -/

/-- A view: its characters, and what the memory holds behind them. -/
structure StringView where
  chars : Text
  behind : Text
  deriving DecidableEq, Repr

namespace StringView

def size (view : StringView) : Nat :=
  view.chars.length

def empty : StringView :=
  { chars := []
    behind := [] }

/-- The view of that many characters from `data()` on. -/
def resized (view : StringView) (count : Nat) : StringView :=
  { chars := (view.chars ++ view.behind).take count
    behind := (view.chars ++ view.behind).drop count }

/-- `substr(0, count)`. -/
def front (view : StringView) (count : Nat) : StringView :=
  { chars := view.chars.take count
    behind := view.chars.drop count ++ view.behind }

/-- `substr(pos)`. -/
def from_ (view : StringView) (pos : Nat) : StringView :=
  { chars := view.chars.drop pos
    behind := view.behind }

end StringView

inductive Delim where
  | char (c : UInt8)
  | view (delimiter : Text)
  deriving DecidableEq, Repr

namespace Delim

/-- The text that is searched for; a search for a char is one for the view of it. -/
def chars : Delim → Text
  | .char c => [c]
  | .view delimiter => delimiter

def size : Delim → Nat
  | .char _ => 1
  | .view delimiter => delimiter.length

end Delim

structure Iterator where
  s : StringView
  delimiter : Delim
  current : StringView
  ended : Bool
  toBeEnded : Bool
  deriving DecidableEq, Repr

namespace Iterator

def findNext (it : Iterator) : Iterator :=
  match find it.delimiter.chars it.s.chars with
  | none =>
      { it with
        current := it.s
        s := .empty
        ended := it.toBeEnded
        toBeEnded := true }
  | some pos =>
      { it with
        current := it.s.front pos
        s := it.s.from_ (pos + it.delimiter.size) }

def construct (s : StringView) (delimiter : Delim) : Iterator :=
  findNext
    { s := s
      delimiter := delimiter
      current := .empty
      ended := false
      toBeEnded := false }

/-- The view from `current.data()` on. -/
def rest (it : Iterator) : StringView :=
  it.current.resized (it.current.size + it.s.size)

/-- A range-based for over what the iterator has still to give: the values of `*it`. -/
def each : Nat → Iterator → Option (List StringView)
  | 0, _ => none
  | fuel + 1, it =>
      if it.ended then some []
      else (each fuel it.findNext).map fun parts => it.current :: parts

end Iterator

structure SplitString where
  s : StringView
  delimiter : Delim

namespace SplitString

def begin (split : SplitString) : Iterator :=
  .construct split.s split.delimiter

/-- The loop of collect, from the iterator on; it appends to the result. -/
def collectLoop : Nat → Iterator → List Text → Option (List Text)
  | 0, _, _ => none
  | fuel + 1, it, result =>
      if it.ended then some result
      else collectLoop fuel it.findNext (result ++ [it.current.chars])

def collect (split : SplitString) (fuel : Nat) : Option (List Text) :=
  collectLoop fuel split.begin []

end SplitString

def splitString (s : StringView) (delimiter : Delim) : SplitString :=
  { s := s
    delimiter := delimiter }

/-! ### Decimal text -/

theorem digitChar_toNat {digit : Nat} (small : digit < 10) :
    (digitChar digit).toNat = 48 + digit := by
  unfold digitChar
  rw [UInt8.toNat_ofNat']
  exact Nat.mod_eq_of_lt (by omega)

theorem digitValue_digitChar {digit : Nat} (small : digit < 10) :
    digitValue (digitChar digit) = some digit := by
  unfold digitValue
  rw [digitChar_toNat small, if_pos (by omega), Nat.add_sub_cancel_left]

theorem decimalDigits_lt (n : Nat) : ∀ digit ∈ decimalDigits n, digit < 10 := by
  intro digit member
  unfold decimalDigits at member
  by_cases zero : n = 0
  · rw [if_pos zero, List.mem_singleton] at member
    omega
  · rw [if_neg zero, List.mem_reverse] at member
    exact Nat.digits_lt_base (by omega) member

theorem decimalDigits_ne_nil (n : Nat) : decimalDigits n ≠ [] := by
  unfold decimalDigits
  by_cases zero : n = 0
  · rw [if_pos zero]
    exact List.cons_ne_nil 0 []
  · rw [if_neg zero]
    intro empty
    exact zero (Nat.digits_eq_nil_iff_eq_zero.1 (List.reverse_eq_nil_iff.1 empty))

theorem decimal_mem {n : Nat} {c : UInt8} (member : c ∈ decimal n) :
    48 ≤ c.toNat ∧ c.toNat ≤ 57 := by
  obtain ⟨digit, among, rfl⟩ := List.mem_map.1 member
  have small := decimalDigits_lt n digit among
  rw [digitChar_toNat small]
  omega

theorem decimal_length (n : Nat) : (decimal n).length ≤ Nat.log 10 n + 1 := by
  unfold decimal decimalDigits
  rw [List.length_map]
  by_cases zero : n = 0
  · rw [if_pos zero]
    exact Nat.le_add_left 1 _
  · rw [if_neg zero, List.length_reverse, Nat.length_digits 10 n (by omega) zero]

theorem foldl_digits (base : Nat) (digits : List Nat) :
    digits.reverse.foldl (fun (value : Int) (digit : Nat) => value * base + digit) 0 =
      (Nat.ofDigits base digits : Nat) := by
  rw [List.foldl_reverse]
  induction digits with
  | nil => rfl
  | cons digit digits ih =>
      rw [List.foldr_cons, ih, Nat.ofDigits_cons]
      push_cast
      ring

theorem foldl_decimalDigits (n : Nat) :
    (decimalDigits n).foldl (fun (value : Int) (digit : Nat) => value * (10 : Nat) + digit) 0 = n := by
  unfold decimalDigits
  by_cases zero : n = 0
  · rw [if_pos zero, zero]
    rfl
  · rw [if_neg zero, foldl_digits, Nat.ofDigits_digits]

theorem scanDigits_digitChars {digits : List Nat} (small : ∀ digit ∈ digits, digit < 10) :
    scanDigits 10 (digits.map digitChar) = (digits, []) := by
  induction digits with
  | nil => rfl
  | cons digit digits ih =>
      have first := small digit List.mem_cons_self
      have others := ih fun other member => small other (List.mem_cons_of_mem digit member)
      rw [List.map_cons, scanDigits, digitValue_digitChar first, others]
      exact if_pos first

theorem fromDigits_of_scan {base : Nat} {s rest : Text} {digits : List Nat}
    (scanned : scanDigits base s = (digits, rest)) (nonempty : digits ≠ []) (T : Integral)
    (negative : Bool) {magnitude : Int}
    (folded : digits.foldl (fun (value : Int) (digit : Nat) => value * base + digit) 0 = magnitude) :
    fromDigits T negative base s =
      if T.min ≤ (if negative then -magnitude else magnitude) ∧
          (if negative then -magnitude else magnitude) ≤ T.max then
        some (if negative then -magnitude else magnitude, rest)
      else none := by
  cases digits with
  | nil => exact absurd rfl nonempty
  | cons digit digits =>
      unfold fromDigits
      rw [scanned]
      dsimp only
      rw [folded]

theorem Integral.min_le_zero (T : Integral) : T.min ≤ 0 := by
  unfold Integral.min
  split
  · exact Int.neg_nonpos_of_nonneg (Int.natCast_nonneg _)
  · exact Int.le_refl 0

theorem fromString_decimal (T : Integral) {n : Nat} (fits : (n : Int) ≤ T.max) :
    fromString T (decimal n) 10 = some (n : Int) := by
  have scanned : scanDigits 10 (decimal n) = (decimalDigits n, []) :=
    scanDigits_digitChars (decimalDigits_lt n)
  have read := fromDigits_of_scan scanned (decimalDigits_ne_nil n) T false (foldl_decimalDigits n)
  have lower := T.min_le_zero
  rw [if_neg Bool.false_ne_true, if_pos ⟨by omega, fits⟩] at read
  have unsigned : fromChars T 10 (decimal n) = fromDigits T false 10 (decimal n) := by
    cases text : decimal n with
    | nil => exact absurd (List.map_eq_nil_iff.1 text) (decimalDigits_ne_nil n)
    | cons c s =>
        have range := decimal_mem (text ▸ List.mem_cons_self : c ∈ decimal n)
        have other : c ≠ minus := by
          intro same
          rw [same] at range
          exact absurd range.1 (by decide)
        rw [fromChars, if_neg fun both => other both.1]
  unfold fromString
  rw [unsigned, read]
  rfl

theorem toString_ofNat (T : Integral) {n : Nat} (fits : (n : Int) ≤ T.max) :
    toString T n = some (decimal n) := by
  have length := decimal_length n
  have room : Nat.log 10 n ≤ T.digits10 := by
    apply Nat.log_mono_right
    unfold Integral.max at fits
    omega
  unfold toString toChars
  rw [if_neg (Int.not_lt.2 (Int.natCast_nonneg n)), Int.natAbs_natCast]
  exact if_pos (by omega)

/-! ### What the searches find -/

open Delimiters

theorem find_cases (pattern s : Text) :
    (find pattern s = none ∧ ¬pattern <:+: s) ∨
      ∃ line after, find pattern s = some line.length ∧ First pattern s line after := by
  induction s with
  | nil =>
      rw [find]
      by_cases empty : pattern = []
      · right
        rw [if_pos empty, empty]
        exact ⟨[], [], rfl, First.here [] []⟩
      · left
        rw [if_neg empty]
        exact ⟨rfl, fun occurs => empty (List.infix_nil.1 occurs)⟩
  | cons c s ih =>
      rw [find]
      by_cases starts : pattern <+: c :: s
      · right
        rw [if_pos (List.isPrefixOf_iff_prefix.2 starts)]
        obtain ⟨after, split⟩ := starts
        rw [← split]
        exact ⟨[], after, rfl, First.here pattern after⟩
      · rw [if_neg (fun computed => starts (List.isPrefixOf_iff_prefix.1 computed))]
        rcases ih with ⟨absent, nowhere⟩ | ⟨line, after, position, found⟩
        · left
          rw [absent]
          refine ⟨rfl, fun occurs => ?_⟩
          exact (List.infix_cons_iff.1 occurs).elim starts nowhere
        · right
          rw [position]
          exact ⟨c :: line, after, rfl, found.cons starts⟩

theorem rfind_eq_none {c : UInt8} {s : Text} (absent : c ∉ s) : rfind [c] s = none := by
  induction s with
  | nil => rfl
  | cons d s ih =>
      obtain ⟨other, later⟩ := not_or.1 fun member => absent (List.mem_cons.2 member)
      rw [rfind, ih later]
      exact if_neg fun starts => other (List.cons_prefix_cons.1
        (List.isPrefixOf_iff_prefix.1 starts)).1

theorem rfind_last {c : UInt8} {s : Text} (front : Text) (absent : c ∉ s) :
    rfind [c] (front ++ c :: s) = some front.length := by
  induction front with
  | nil =>
      have starts : [c].isPrefixOf (c :: s) = true :=
        List.isPrefixOf_iff_prefix.2 (List.cons_prefix_cons.2 ⟨rfl, List.nil_prefix⟩)
      rw [List.nil_append, rfind, rfind_eq_none absent]
      exact if_pos starts
  | cons d front ih =>
      rw [List.cons_append, rfind, ih]
      rfl

theorem find_eq_none {pattern s : Text} {c : UInt8} (member : c ∈ pattern) (absent : c ∉ s) :
    find pattern s = none := by
  rcases find_cases pattern s with ⟨nowhere, _⟩ | ⟨line, after, _, found⟩
  · exact nowhere
  · exact absurd (found.occurs.subset member) absent

/-! ### Splitting -/

theorem Delim.size_eq (delimiter : Delim) : delimiter.size = delimiter.chars.length := by
  cases delimiter <;> rfl

theorem Iterator.findNext_none {it : Iterator} (absent : ¬it.delimiter.chars <:+: it.s.chars) :
    it.findNext =
      { s := .empty
        delimiter := it.delimiter
        current := it.s
        ended := it.toBeEnded
        toBeEnded := true } := by
  rcases find_cases it.delimiter.chars it.s.chars with ⟨nowhere, _⟩ | ⟨line, after, _, found⟩
  · unfold Iterator.findNext
    rw [nowhere]
  · exact absurd found.occurs absent

theorem Iterator.findNext_some {it : Iterator} {line after : Text}
    (found : First it.delimiter.chars it.s.chars line after) :
    it.findNext.current.chars = line ∧ it.findNext.s.chars = after ∧
      it.findNext.delimiter = it.delimiter ∧ it.findNext.ended = it.ended ∧
      it.findNext.toBeEnded = it.toBeEnded := by
  rcases find_cases it.delimiter.chars it.s.chars with ⟨_, nowhere⟩ | ⟨front, back, position, first⟩
  · exact absurd found.occurs nowhere
  · obtain ⟨same, _⟩ := found.unique first
    subst same
    unfold Iterator.findNext
    rw [position]
    refine ⟨?_, ?_, rfl, rfl, rfl⟩
    · change it.s.chars.take line.length = line
      rw [found.split, List.take_left]
    · change it.s.chars.drop (line.length + it.delimiter.size) = after
      rw [it.delimiter.size_eq, found.split, ← List.drop_drop, List.drop_left, List.drop_left]

theorem Iterator.each_ended {it : Iterator} (ended : it.ended = true) (fuel : Nat) :
    it.each (fuel + 1) = some [] := by
  rw [each, if_pos ended]

theorem Iterator.each_going {it : Iterator} (going : it.ended = false) (fuel : Nat) :
    it.each (fuel + 1) = (it.findNext.each fuel).map fun parts => it.current :: parts := by
  rw [each, going, if_neg Bool.false_ne_true]

/-- The loop gives the pieces of what is in front of it, and one step more ends it. -/
theorem Iterator.each_pieces {eol s : Text} {pieces : List Text} (cut : Pieces eol s pieces)
    (nonempty : eol ≠ []) (it : Iterator) (delimiter : it.delimiter.chars = eol)
    (front : it.s.chars = s) (going : it.ended = false) (more : it.toBeEnded = false) {fuel : Nat}
    (enough : pieces.length < fuel) :
    ∃ parts, it.findNext.each fuel = some parts ∧ parts.map StringView.chars = pieces := by
  induction cut generalizing it fuel with
  | last absent =>
      obtain ⟨fuel, rfl⟩ := Nat.exists_eq_add_of_lt enough
      rw [← delimiter, ← front] at absent
      rw [findNext_none absent, more]
      have nothing : ¬it.delimiter.chars <:+: StringView.empty.chars := by
        intro occurs
        exact nonempty (delimiter.symm.trans (List.infix_nil.1 occurs))
      refine ⟨[it.s], ?_, congrArg (· :: []) front⟩
      rw [each_going rfl, findNext_none nothing, List.length_singleton, Nat.add_comm 1,
        each_ended rfl]
      rfl
  | cut found rest ih =>
      obtain ⟨fuel, rfl⟩ := Nat.exists_eq_add_of_lt enough
      rw [← delimiter, ← front] at found
      obtain ⟨current, behind, same, ended, toBeEnded⟩ := findNext_some found
      obtain ⟨parts, given, texts⟩ := ih it.findNext
        (delimiter ▸ congrArg Delim.chars same) behind (ended.trans going) (toBeEnded.trans more)
        (Nat.lt_succ_of_le (Nat.le_add_right _ fuel))
      refine ⟨it.findNext.current :: parts, ?_, ?_⟩
      · rw [each_going (ended.trans going), List.length_cons, Nat.add_right_comm, given]
        rfl
      · rw [List.map_cons, current, texts]

theorem SplitString.collectLoop_eq (fuel : Nat) (it : Iterator) (result : List Text) :
    collectLoop fuel it result =
      (it.each fuel).map fun parts => result ++ parts.map StringView.chars := by
  induction fuel generalizing it result with
  | zero => rfl
  | succ fuel ih =>
      rw [collectLoop, Iterator.each]
      by_cases ended : it.ended = true
      · rw [if_pos ended, if_pos ended, Option.map_some, List.map_nil, List.append_nil]
      · rw [if_neg ended, if_neg ended, ih, Option.map_map]
        congr 1
        funext parts
        exact List.append_assoc _ _ _

/-- Both loops end, with the pieces of the text in the order of the text. -/
theorem splitString_pieces (s : StringView) (delimiter : Delim) (nonempty : delimiter.chars ≠ [])
    {fuel : Nat} (enough : s.size + 1 < fuel) :
    ∃ parts pieces, (splitString s delimiter).begin.each fuel = some parts ∧
      parts.map StringView.chars = pieces ∧
      (splitString s delimiter).collect fuel = some pieces ∧
      Pieces delimiter.chars s.chars pieces ∧
      (∀ other, Pieces delimiter.chars s.chars other → other = pieces) ∧
      pieces ≠ [] ∧ (∀ piece ∈ pieces, ¬delimiter.chars <:+: piece) ∧
      delimiter.chars.intercalate pieces = s.chars := by
  obtain ⟨pieces, cut⟩ := exists_pieces s.chars nonempty
  have few := cut.length_le nonempty
  obtain ⟨parts, given, texts⟩ := Iterator.each_pieces cut nonempty
    { s := s
      delimiter := delimiter
      current := .empty
      ended := false
      toBeEnded := false }
    rfl rfl rfl rfl (Nat.lt_of_le_of_lt few enough)
  refine ⟨parts, pieces, given, texts, ?_, cut, ?_, cut.ne_nil, cut.not_occurs nonempty,
    cut.intercalate⟩
  · change SplitString.collectLoop fuel (Iterator.construct s delimiter) [] = _
    rw [SplitString.collectLoop_eq]
    rw [Iterator.construct, given, Option.map_some, texts, List.nil_append]
  · intro other otherCut
    exact otherCut.unique cut

theorem splitString_overlapping :
    (splitString { chars := [97, 97, 97], behind := [0] } (.view [97, 97])).collect 5 =
        some [[], [97]] ∧
      Pieces (Delim.view [97, 97]).chars [97, 97, 97] [[], [97]] := by
  have collected : (splitString { chars := [97, 97, 97], behind := [0] }
      (.view [97, 97])).collect 5 = some [[], [97]] := by decide
  obtain ⟨_, pieces, _, _, found, cut, _⟩ := splitString_pieces
    { chars := [97, 97, 97], behind := [0] } (.view [97, 97]) (List.cons_ne_nil _ _)
    (by decide : 4 < 5)
  rw [collected, Option.some.injEq] at found
  rw [← found] at cut
  exact ⟨collected, cut⟩

end StringUtils

end MCoro
