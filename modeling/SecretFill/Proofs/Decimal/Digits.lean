import Mathlib.Algebra.Ring.Nat
import SecretFill.Decimal.Reading
/-!
Digits of a number. They read back as the number, in any base up to sixteen, with any zeros before
them and in either case.
-/

namespace SecretFill.Decimal

open SecretFill.Text

theorem ofDigits_append (base : Nat) (digits : List Code) (last : Code) :
    ofDigits base (digits ++ [last]) =
      ofDigits base digits * base + (digitValue? last).getD 0 := by
  simp only [ofDigits, List.foldl_append, List.foldl_cons, List.foldl_nil]

theorem digitValue?_digitChar {digit : Nat} (small : digit < 16) :
    digitValue? (Code.char (Nat.digitChar digit)) = some digit := by
  revert digit
  decide

theorem ofDigits_toDigits {base : Nat} (least : 1 < base) (most : base ≤ 16) (number : Nat) :
    ofDigits base ((Nat.toDigits base number).map Code.char) = number := by
  induction number using Nat.strongRecOn with
  | _ number ih =>
      by_cases single : number < base
      · rw [Nat.toDigits_of_lt_base single]
        simp only [ofDigits, List.map_singleton, List.foldl_cons, List.foldl_nil,
          digitValue?_digitChar (Nat.lt_of_lt_of_le single most), Option.getD_some, Nat.zero_mul,
          Nat.zero_add]
      · have above : base ≤ number := Nat.le_of_not_lt single
        have shorter : number / base < number := Nat.div_lt_self (by omega) least
        have last : number % base < 16 := Nat.lt_of_lt_of_le (Nat.mod_lt _ (by omega)) most
        rw [Nat.toDigits_of_base_le least above, List.map_append, List.map_singleton,
          ofDigits_append, ih _ shorter, digitValue?_digitChar last, Option.getD_some]
        exact Nat.div_add_mod' number base

theorem ofDigits_zeros (base count : Nat) (digits : List Code) :
    ofDigits base (List.replicate count (Code.char '0') ++ digits) = ofDigits base digits := by
  induction count with
  | zero => rfl
  | succ count ih =>
      have zero : 0 * base + (digitValue? '0').getD 0 = 0 := by
        rw [Nat.zero_mul]
        rfl
      rw [List.replicate_succ, List.cons_append, ofDigits, List.foldl_cons, zero]
      exact ih

theorem ofDigits_map {change : Code → Code} {digits : List Code}
    (kept : ∀ digit ∈ digits, digitValue? (change digit) = digitValue? digit) (base : Nat) :
    ofDigits base (digits.map change) = ofDigits base digits := by
  have moved (sum : Nat) :
      (digits.map change).foldl (fun sum digit => sum * base + (digitValue? digit).getD 0) sum =
        digits.foldl (fun sum digit => sum * base + (digitValue? digit).getD 0) sum := by
    induction digits generalizing sum with
    | nil => rfl
    | cons digit digits ih =>
        obtain ⟨here, later⟩ := List.forall_mem_cons.mp kept
        rw [List.map_cons, List.foldl_cons, List.foldl_cons, here]
        exact ih later _
  exact moved 0

theorem mem_toDigits {base : Nat} (least : 1 < base) (most : base ≤ 16) {number : Nat}
    {character : Char} (member : character ∈ Nat.toDigits base number) :
    ∃ digit < base, character = Nat.digitChar digit := by
  induction number using Nat.strongRecOn with
  | _ number ih =>
      by_cases single : number < base
      · rw [Nat.toDigits_of_lt_base single] at member
        exact ⟨number, single, List.mem_singleton.mp member⟩
      · have above : base ≤ number := Nat.le_of_not_lt single
        rw [Nat.toDigits_of_base_le least above] at member
        rcases List.mem_append.mp member with before | last
        · exact ih _ (Nat.div_lt_self (by omega) least) before
        · exact ⟨_, Nat.mod_lt _ (by omega), List.mem_singleton.mp last⟩

/-! ### Hexadecimal escapes -/

def upperHexDigits (width number : Nat) : List Code := (hexDigits width number).map Code.toUpper

theorem mem_hexDigits {width number : Nat} {character : Code}
    (member : character ∈ hexDigits width number) :
    ∃ digit < 16, character = Code.char (Nat.digitChar digit) := by
  rcases List.mem_append.mp member with zeros | digits
  · exact ⟨0, by decide, List.eq_of_mem_replicate zeros⟩
  · obtain ⟨shown, inside, rfl⟩ := List.mem_map.mp digits
    obtain ⟨digit, small, rfl⟩ := mem_toDigits (by decide) (by decide) inside
    exact ⟨digit, small, rfl⟩

theorem length_upperHexDigits {width number : Nat} (positive : 0 < width)
    (fits : number < 16 ^ width) : (upperHexDigits width number).length = width := by
  have short := (Nat.length_toDigits_le_iff (b := 16) (by decide) positive).mpr fits
  simp only [upperHexDigits, hexDigits, List.length_map, List.length_append, List.length_replicate]
  omega

theorem digitValue?_toUpper {digit : Nat} (small : digit < 16) :
    digitValue? (Code.char (Nat.digitChar digit)).toUpper =
      digitValue? (Code.char (Nat.digitChar digit)) := by
  revert digit
  decide

theorem ofDigits_upperHexDigits (width number : Nat) :
    ofDigits 16 (upperHexDigits width number) = number := by
  have kept : ∀ digit ∈ hexDigits width number, digitValue? digit.toUpper = digitValue? digit := by
    intro character member
    obtain ⟨digit, small, rfl⟩ := mem_hexDigits member
    exact digitValue?_toUpper small
  rw [upperHexDigits, ofDigits_map kept, hexDigits, ofDigits_zeros,
    ofDigits_toDigits (by decide) (by decide)]

theorem mem_upperHexDigits {width number : Nat} {character : Code}
    (member : character ∈ upperHexDigits width number) :
    ∃ digit < 16, character = (Code.char (Nat.digitChar digit)).toUpper := by
  obtain ⟨original, inside, rfl⟩ := List.mem_map.mp member
  obtain ⟨digit, small, rfl⟩ := mem_hexDigits inside
  exact ⟨digit, small, rfl⟩

end SecretFill.Decimal
