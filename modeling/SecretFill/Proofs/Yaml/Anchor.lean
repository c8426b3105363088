import SecretFill.Proofs.Decimal.Numeral
import SecretFill.Proofs.Yaml.Lexeme
import SecretFill.Yaml.Writing
/-!
Names of anchors. Every cell that has aliases gets a name that a scan reads as a whole, and no two
of them get the same one.
-/

namespace SecretFill.Yaml.Writing

open Decimal

theorem isWordCharacter_digitChar {digit : Nat} (small : digit < 16) :
    isWordCharacter (Nat.digitChar digit) = true := by
  revert digit
  decide

theorem anchorText_name (number : Nat) : Token.Name (anchorText number) := by
  constructor
  · exact List.cons_ne_nil _ _
  · intro character member
    rcases List.mem_append.mp member with start | number
    · have word : ∀ character ∈ ("id" : Text).toList, isWordCharacter character = true := by decide
      exact word character start
    · rcases List.mem_append.mp number with zeros | digits
      · rw [List.eq_of_mem_replicate zeros]
        rfl
      · obtain ⟨digit, small, rfl⟩ := (numeral_toDigits _).digit character digits
        exact isWordCharacter_digitChar (by omega)

theorem anchorText_injective {first second : Nat} (same : anchorText first = anchorText second) :
    first = second := by
  have padded : padLeft 3 '0' (digitsText first) = padLeft 3 '0' (digitsText second) :=
    List.append_cancel_left same
  have value (number : Nat) : ofDigits 10 (padLeft 3 '0' (digitsText number)) = number := by
    rw [padLeft, ofDigits_zeros]
    exact ofDigits_toDigits (by decide) (by decide) number
  rw [← value first, padded, value second]

theorem anchorOf_name {anchors : List Nat} {cell : Nat} {name : List Code}
    (found : anchorOf anchors cell = some name) : Token.Name name := by
  obtain ⟨index, -, rfl⟩ := Option.map_eq_some_iff.mp found
  exact anchorText_name _

theorem anchorOf_injective {anchors : List Nat} {first second : Nat} {name : List Code}
    (one : anchorOf anchors first = some name) (other : anchorOf anchors second = some name) :
    first = second := by
  obtain ⟨index, here, rfl⟩ := Option.map_eq_some_iff.mp one
  obtain ⟨place, there, same⟩ := Option.map_eq_some_iff.mp other
  cases Nat.succ.inj (anchorText_injective same)
  simp only [List.idxOf?, List.findIdx?_eq_some_iff_getElem, beq_iff_eq] at here there
  obtain ⟨inside, rfl, -⟩ := here
  obtain ⟨-, rfl, -⟩ := there
  rfl

theorem anchorOf_isSome {anchors : List Nat} {cell : Nat} (member : cell ∈ anchors) :
    ∃ name, anchorOf anchors cell = some name := by
  cases found : anchors.idxOf? cell with
  | none => exact absurd member (List.idxOf?_eq_none_iff.mp found)
  | some index => exact ⟨_, by rw [anchorOf, found]; rfl⟩

end SecretFill.Yaml.Writing
