/-
co_async/utils/string_utils.hpp: to_string and from_string of a number undo each other.

The room of digits10 + 2 characters is one for a digit beyond those that always fit and
one for the sign. In the other direction a text is given back that is written as
to_string writes it: without leading zeros, and without a sign before a zero.
-/

import MCoro.Utils.StringUtils

namespace MCoro

namespace StringUtils

/-- The text behind the sign that it may have. -/
def unsignedPart : Text → Text
  | [] => []
  | c :: s => if c = minus then s else c :: s

def NoLeadingZeros (s : Text) : Prop :=
  ∀ later, unsignedPart s = digitChar 0 :: later → later = []

/-! ### The room -/

theorem Integral.natAbs_le {T : Integral} {v : Int} (lower : T.min ≤ v) (upper : v ≤ T.max) :
    v.natAbs ≤ 2 ^ T.digits := by
  unfold Integral.min at lower
  unfold Integral.max at upper
  split at lower <;> omega

theorem toString_eq {T : Integral} {v : Int} (lower : T.min ≤ v) (upper : v ≤ T.max) :
    toString T v =
      some (if v < 0 then minus :: decimal v.natAbs else decimal v.natAbs) := by
  have length := decimal_length v.natAbs
  have room : Nat.log 10 v.natAbs ≤ T.digits10 :=
    Nat.log_mono_right (Integral.natAbs_le lower upper)
  unfold toString toChars
  apply if_pos
  split
  · rw [List.length_cons]
    omega
  · omega

theorem toChars_length {room : Nat} {v : Int} {text : Text} (written : toChars room v = some text) :
    text.length ≤ room := by
  unfold toChars at written
  dsimp only at written
  generalize (if v < 0 then minus :: decimal v.natAbs else decimal v.natAbs) = whole at written
  by_cases fits : whole.length ≤ room
  · rw [if_pos fits] at written
    rw [← Option.some.inj written]
    exact fits
  · rw [if_neg fits] at written
    exact absurd written (Option.some_ne_none text).symm

/-! ### Reading back -/

theorem fromString_negative {T : Integral} {n : Nat} (lower : T.min ≤ -(n : Int)) (positive : 0 < n) :
    fromString T (minus :: decimal n) 10 = some (-(n : Int)) := by
  have signed : T.signed = true := by
    by_contra other
    unfold Integral.min at lower
    rw [if_neg other] at lower
    omega
  have scanned : scanDigits 10 (decimal n) = (decimalDigits n, []) :=
    scanDigits_digitChars (decimalDigits_lt n)
  have read := fromDigits_of_scan scanned (decimalDigits_ne_nil n) T true (foldl_decimalDigits n)
  have upper : -(n : Int) ≤ T.max := by
    have := Nat.two_pow_pos T.digits
    unfold Integral.max
    omega
  rw [if_pos rfl, if_pos ⟨lower, upper⟩] at read
  have chars : fromChars T 10 (minus :: decimal n) = fromDigits T true 10 (decimal n) :=
    if_pos ⟨rfl, signed⟩
  unfold fromString
  rw [chars, read]
  rfl

theorem fromString_toString {T : Integral} {v : Int} (lower : T.min ≤ v) (upper : v ≤ T.max) :
    ∃ text, toString T v = some text ∧ fromString T text 10 = some v := by
  refine ⟨_, toString_eq lower upper, ?_⟩
  by_cases negative : v < 0
  · rw [if_pos negative]
    have same : -(v.natAbs : Int) = v := by omega
    rw [fromString_negative (by omega) (by omega), same]
  · rw [if_neg negative]
    have same : (v.natAbs : Int) = v := by omega
    rw [fromString_decimal T (by omega), same]

/-! ### Writing back -/

theorem digitChar_of_digitValue {c : UInt8} {digit : Nat} (value : digitValue c = some digit)
    (small : digit < 10) : c = digitChar digit := by
  unfold digitValue at value
  apply UInt8.toNat_inj.1
  rw [digitChar_toNat small]
  split at value
  · have := Option.some.inj value
    omega
  · split at value
    · have := Option.some.inj value
      omega
    · split at value
      · have := Option.some.inj value
        omega
      · exact absurd value (Option.some_ne_none digit).symm

theorem scanDigits_to_end {s : Text} {digits : List Nat} (scanned : scanDigits 10 s = (digits, [])) :
    s = digits.map digitChar ∧ ∀ digit ∈ digits, digit < 10 := by
  induction s generalizing digits with
  | nil =>
      have empty : [] = digits := congrArg Prod.fst scanned
      rw [← empty]
      exact ⟨rfl, fun digit member => absurd member List.not_mem_nil⟩
  | cons c s ih =>
      rw [scanDigits] at scanned
      cases value : digitValue c with
      | none =>
          rw [value] at scanned
          exact absurd (congrArg Prod.snd scanned) (List.cons_ne_nil c s)
      | some digit =>
          rw [value] at scanned
          dsimp only at scanned
          by_cases small : digit < 10
          · rw [if_pos small, Prod.mk.injEq] at scanned
            obtain ⟨first, later⟩ := scanned
            obtain ⟨text, bound⟩ := ih (Prod.ext rfl later)
            rw [← first]
            constructor
            · rw [List.map_cons, ← text, ← digitChar_of_digitValue value small]
            · intro other member
              rcases List.mem_cons.1 member with same | behind
              · rw [same]
                exact small
              · exact bound other behind
          · rw [if_neg small] at scanned
            exact absurd (congrArg Prod.snd scanned) (List.cons_ne_nil c s)

theorem decimalDigits_foldl {digits : List Nat} (small : ∀ digit ∈ digits, digit < 10)
    (nonempty : digits ≠ []) (canonical : ∀ later, digits = 0 :: later → later = []) :
    ∃ n : Nat,
      digits.foldl (fun (value : Int) (digit : Nat) => value * (10 : Nat) + digit) 0 = n ∧
        decimalDigits n = digits := by
  refine ⟨Nat.ofDigits 10 digits.reverse, ?_, ?_⟩
  · rw [← foldl_digits, List.reverse_reverse]
  · cases digits with
    | nil => exact absurd rfl nonempty
    | cons first later =>
        by_cases zero : first = 0
        · rw [zero] at canonical ⊢
          rw [canonical later rfl]
          rfl
        · have again : Nat.digits 10 (Nat.ofDigits 10 (first :: later).reverse) =
              (first :: later).reverse := by
            apply Nat.digits_ofDigits 10 (by omega)
            · intro digit member
              exact small digit (List.mem_reverse.1 member)
            · intro other
              rw [List.getLast_reverse]
              exact zero
          have positive : Nat.ofDigits 10 (first :: later).reverse ≠ 0 := by
            intro nothing
            rw [nothing, Nat.digits_zero] at again
            exact List.cons_ne_nil first later (List.reverse_eq_nil_iff.1 again.symm)
          rw [decimalDigits, if_neg positive, again, List.reverse_reverse]

/-- What from_chars has read where it went to the end: the digits, and their value in the range. -/
theorem fromDigits_to_end {T : Integral} {negative : Bool} {s : Text} {v : Int}
    (read : fromDigits T negative 10 s = some (v, []))
    (canonical : ∀ later, s = digitChar 0 :: later → later = []) :
    ∃ n : Nat, s = decimal n ∧ v = (if negative then -(n : Int) else n) ∧ T.min ≤ v ∧ v ≤ T.max := by
  cases scanned : scanDigits 10 s with
  | mk digits rest =>
      cases digits with
      | nil =>
          unfold fromDigits at read
          rw [scanned] at read
          exact absurd read (Option.some_ne_none _).symm
      | cons first later =>
          have folded := fromDigits_of_scan scanned (List.cons_ne_nil first later) T negative rfl
          rw [read] at folded
          generalize value :
            (if negative then _ else (first :: later).foldl _ (0 : Int)) = result at folded
          split at folded
          case isFalse => exact absurd folded (Option.some_ne_none _)
          case isTrue range =>
            rw [Option.some.injEq, Prod.mk.injEq] at folded
            obtain ⟨same, ended⟩ := folded
            subst same ended
            obtain ⟨text, small⟩ := scanDigits_to_end scanned
            obtain ⟨n, sum, digits⟩ := decimalDigits_foldl small (List.cons_ne_nil first later) (by
              intro others same
              have alone := canonical (others.map digitChar) (by rw [text, same, List.map_cons])
              exact List.map_eq_nil_iff.1 alone)
            refine ⟨n, ?_, ?_, range⟩
            · rw [text, decimal, digits]
            · rw [← value, sum]

/-- A text that was read is written again, if it is written as to_string writes it. -/
theorem toString_fromString {T : Integral} {s : Text} {v : Int} (read : fromString T s 10 = some v)
    (canonical : NoLeadingZeros s) (sign : s ≠ [minus, digitChar 0]) : toString T v = some s := by
  unfold fromString at read
  split at read
  case h_1 => exact absurd read (Option.some_ne_none v).symm
  case h_2 result rest chars =>
    split at read
    case isFalse => exact absurd read (Option.some_ne_none v).symm
    case isTrue ended =>
      subst ended
      rw [Option.some.injEq] at read
      subst read
      cases s with
      | nil => exact absurd chars (Option.some_ne_none _).symm
      | cons c s =>
          rw [fromChars] at chars
          by_cases both : c = minus ∧ T.signed = true
          · rw [if_pos both] at chars
            obtain ⟨n, text, value, lower, upper⟩ := fromDigits_to_end chars (by
              intro later same
              apply canonical later
              rw [unsignedPart, if_pos both.1, same])
            rw [if_pos rfl] at value
            have positive : n ≠ 0 := by
              intro zero
              rw [zero] at text
              exact sign (by rw [both.1, text]; rfl)
            have magnitude : result.natAbs = n := by omega
            rw [toString_eq lower upper, if_pos (by omega), magnitude, ← text, both.1]
          · rw [if_neg both] at chars
            obtain ⟨n, text, value, lower, upper⟩ := fromDigits_to_end chars (by
              intro later same
              apply canonical later
              rw [unsignedPart, if_neg, same]
              rw [List.cons.injEq] at same
              rw [same.1]
              decide)
            rw [if_neg Bool.false_ne_true] at value
            have magnitude : result.natAbs = n := by omega
            rw [toString_eq lower upper, if_neg (by omega), magnitude, ← text]

/-- to_string has room for every value of every type and is undone by from_string, and
it undoes from_string on every text that is written its way. -/
theorem toString_fromString_inverse (T : Integral) :
    (∀ v, T.min ≤ v → v ≤ T.max →
      ∃ text, toString T v = some text ∧ text.length ≤ T.digits10 + 2 ∧
        fromString T text 10 = some v) ∧
      ∀ s v, fromString T s 10 = some v → NoLeadingZeros s → s ≠ [minus, digitChar 0] →
        toString T v = some s := by
  constructor
  case left =>
    intro v lower upper
    obtain ⟨text, written, read⟩ := fromString_toString lower upper
    exact ⟨text, written, toChars_length written, read⟩
  case right =>
    intro s v read canonical sign
    exact toString_fromString read canonical sign

/-- The smallest value of eight bits, which takes all of the room. -/
theorem toString_fromString_int8 :
    (∃ text, toString { signed := true, bits := 8 } (-128) = some text ∧ text.length ≤ 4 ∧
      fromString { signed := true, bits := 8 } text 10 = some (-128)) ∧
      toString { signed := true, bits := 8 } (-128) = some [45, 49, 50, 56] := by
  have digits10 : Integral.digits10 { signed := true, bits := 8 } = 2 := by decide
  obtain ⟨written, given⟩ := toString_fromString_inverse { signed := true, bits := 8 }
  have room := written (-128) (by decide) (by decide)
  rw [digits10] at room
  refine ⟨room, given [45, 49, 50, 56] (-128) (by decide) ?_ (by decide)⟩
  intro later same
  have first : (49 : UInt8) = digitChar 0 := (List.cons.inj same).1
  exact absurd first (by decide)

end StringUtils

end MCoro
