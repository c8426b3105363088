import Mathlib.Data.List.TakeWhile
import SecretFill.Proofs.Decimal.Digits
/-!
Integers as they are written. A numeral is one digit or begins with a digit other than zero, and
what is written of an integer within the limit is read as the same integer.
-/

namespace SecretFill.Decimal

open SecretFill.Text

/-- Decimal digits without a zero before others. -/
structure Numeral (digits : List Code) : Prop where
  digit : ∀ character ∈ digits, ∃ digit < 10, character = Code.char (Nat.digitChar digit)
  first : ∃ first rest, digits = first :: rest ∧ (first = '0' → rest = [])

theorem numeral_toDigits (number : Nat) : Numeral (digitsText number) := by
  constructor
  · intro character member
    obtain ⟨shown, inside, rfl⟩ := List.mem_map.mp member
    obtain ⟨digit, small, rfl⟩ := mem_toDigits (by decide) (by decide) inside
    exact ⟨digit, small, rfl⟩
  · induction number using Nat.strongRecOn with
    | _ number ih =>
        by_cases single : number < 10
        · rw [digitsText, Nat.toDigits_of_lt_base single]
          exact ⟨_, [], rfl, fun _ => rfl⟩
        · have above : 10 ≤ number := Nat.le_of_not_lt single
          obtain ⟨first, rest, same, alone⟩ :=
            ih (number / 10) (Nat.div_lt_self (by omega) (by decide))
          rw [digitsText, Nat.toDigits_of_base_le (by decide) above, List.map_append]
          rw [digitsText] at same
          rw [same]
          refine ⟨first, rest ++ [Code.char (number % 10).digitChar], rfl, fun zero => ?_⟩
          -- The digits before the last one would be those of zero.
          rw [alone zero, zero] at same
          have value := ofDigits_toDigits (by decide : 1 < 10) (by decide) (number / 10)
          rw [same] at value
          have positive : 0 < number / 10 := Nat.div_pos above (by decide)
          have none : ofDigits 10 [Code.char '0'] = 0 := rfl
          omega

theorem plainDigits_digits {digits : List Code}
    (decimal : ∀ character ∈ digits, ∃ digit < 10, character = Code.char (Nat.digitChar digit)) :
    plainDigits digits = digits := by
  have kept : ∀ digit < 10, plainDigits [Code.char (Nat.digitChar digit)] =
      [Code.char (Nat.digitChar digit)] := by decide
  induction digits with
  | nil => rfl
  | cons character rest ih =>
      obtain ⟨digit, small, rfl⟩ := decimal character List.mem_cons_self
      have later := ih fun character member => decimal character (List.mem_cons_of_mem _ member)
      calc
        plainDigits (Code.char (Nat.digitChar digit) :: rest) =
            plainDigits [Code.char (Nat.digitChar digit)] ++ plainDigits rest := rfl
        _ = Code.char (Nat.digitChar digit) :: rest := by
            rw [kept digit small, later, List.singleton_append]

theorem strip_eq {drops : Code → Bool} {text : List Code}
    (kept : ∀ character ∈ text, drops character = false) : strip drops text = text := by
  have same {text : List Code} (kept : ∀ character ∈ text, drops character = false) :
      text.dropWhile drops = text := by
    cases text with
    | nil => rfl
    | cons character rest => rw [List.dropWhile_cons, kept _ List.mem_cons_self]; rfl
  have back : ∀ character ∈ text.reverse, drops character = false := by
    intro character member
    exact kept character (List.mem_reverse.mp member)
  rw [strip, dropEndWhile, same kept, same back, List.reverse_reverse]

theorem readInteger_numeral {digits : List Code} (numeral : Numeral digits)
    (short : digits.length ≤ maxDigits) : readInteger 10 digits = .ok (ofDigits 10 digits) := by
  have blank : ∀ digit < 10, isWhiteSpace (Code.char (Nat.digitChar digit)) = false := by decide
  have counts : ∀ digit < 10, (digitIn? 10 (Code.char (Nat.digitChar digit))).isSome = true := by decide
  have sign : ∀ digit < 10, Code.char (Nat.digitChar digit) ≠ '-' ∧
      Code.char (Nat.digitChar digit) ≠ '+' := by decide
  have trimmed : trimNumber (plainDigits digits) = digits := by
    rw [plainDigits_digits numeral.digit]
    apply strip_eq
    intro character member
    obtain ⟨digit, small, rfl⟩ := numeral.digit character member
    exact blank digit small
  have all : digits.takeWhile (fun character => (digitIn? 10 character).isSome) = digits := by
    apply List.takeWhile_eq_self_iff.mpr
    intro character member
    obtain ⟨digit, small, rfl⟩ := numeral.digit character member
    exact counts digit small
  obtain ⟨first, rest, rfl, alone⟩ := numeral.first
  obtain ⟨digit, small, rfl⟩ := numeral.digit first List.mem_cons_self
  have unsigned : splitSign (Code.char digit.digitChar :: rest) =
      (false, Code.char digit.digitChar :: rest) := by
    obtain ⟨minus, plus⟩ := sign digit small
    unfold splitSign
    split
    · next same => exact absurd (List.cons.inj same).1 minus
    · next same => exact absurd (List.cons.inj same).1 plus
    · rfl
  -- A numeral that begins with a zero is that zero alone, so no base is marked there.
  have unmarked : dropBaseMark 10 (Code.char digit.digitChar :: rest) =
      Code.char digit.digitChar :: rest := by
    unfold dropBaseMark
    split
    · next same =>
        obtain ⟨zero, filled⟩ := List.cons.inj same
        rw [alone zero] at filled
        cases filled
    · rfl
  have within : ¬ maxDigits < (Code.char digit.digitChar :: rest).length := by omega
  simp only [readInteger, trimmed, unsigned, unmarked, all, within, decide_false, Bool.and_false,
    Bool.false_eq_true, if_false, List.isEmpty_cons, bne_self_eq_false, Bool.or_self]
  rfl

theorem length_toDigits_le {number count : Nat} (positive : 0 < count)
    (fits : number < tenTo count) : (digitsText number).length ≤ count := by
  rw [digitsText, List.length_map]
  exact (Nat.length_toDigits_le_iff (by decide) positive).mpr fits

theorem readInteger_toDigits {number : Int} (within : writable number = true) :
    readInteger 10 (digitsText number.natAbs) = .ok number.natAbs := by
  have short := length_toDigits_le (by decide : 0 < maxDigits) (of_decide_eq_true within)
  rw [readInteger_numeral (numeral_toDigits _) short, digitsText, ofDigits_toDigits (by decide)
      (by decide)]

end SecretFill.Decimal
