import SecretFill.Proofs.Text.Utf8
import SecretFill.Text.Base64
/-!
Base 64 that a strict reader takes. `Spells` says which groups of digits stand for which bytes, and
how much padding follows whole groups, where none belongs. What is written spells its bytes without
any in excess; a strict reader does not mind it, if a group stands before it.
-/

namespace SecretFill.Text.Base64

/-- The digits that stand for some bytes, with the padding that the last group needs, and padding in
excess behind whole groups. The bits that the last digit has left over may be any. -/
inductive Spells : Nat → List Code → List UInt8 → Prop
  | ends (excess : Nat) : Spells excess (List.replicate excess (Code.char '=')) []
  | one {first second : Code} {a b : Nat} (opens : value? first = some a)
      (closes : value? second = some b) :
      Spells 0 [first, second, '=', '='] [(a * 4 + b / 16).toUInt8]
  | two {first second third : Code} {a b c : Nat} (opens : value? first = some a)
      (goes : value? second = some b) (closes : value? third = some c) :
      Spells 0 [first, second, third, '='] [(a * 4 + b / 16).toUInt8, (b % 16 * 16 + c / 4).toUInt8]
  | group {excess : Nat} {first second third fourth : Code} {a b c d : Nat} {rest : List Code}
      {bytes : List UInt8} (opens : value? first = some a) (goes : value? second = some b)
      (further : value? third = some c) (closes : value? fourth = some d)
      (later : Spells excess rest bytes) :
      Spells excess (first :: second :: third :: fourth :: rest)
        ((a * 4 + b / 16).toUInt8 :: (b % 16 * 16 + c / 4).toUInt8 :: (c % 4 * 64 + d).toUInt8 ::
          bytes)

/-! ### Digits -/

theorem value?_digit (value : Nat) (small : value < 64) : value? (digit value) = some value := by
  revert value
  decide

theorem value?_padding : value? '=' = none := by decide

theorem value?_bounds {character : Code} {value : Nat} (read : value? character = some value) :
    43 ≤ character.toNat ∧ character.toNat < 123 := by
  unfold value? at read
  dsimp only at read
  split at read
  · next upper =>
      simp only [Bool.and_eq_true, decide_eq_true_eq] at upper
      omega
  · split at read
    · next lower =>
        simp only [Bool.and_eq_true, decide_eq_true_eq] at lower
        omega
    · split at read
      · next number =>
          simp only [Bool.and_eq_true, decide_eq_true_eq] at number
          omega
      · split at read
        · next plus => subst plus; decide
        · split at read
          · next slash => subst slash; decide
          · cases read

theorem ne_padding {character : Code} {value : Nat} (read : value? character = some value) :
    character ≠ '=' := by
  rintro rfl
  rw [value?_padding] at read
  cases read

theorem spells_encode (bytes : List UInt8) : Spells 0 (encode bytes) bytes := by
  -- Whole groups of three bytes first, and then a rest of none, one or two.
  induction bytes using encode.induct with
  | case1 => exact .ends 0
  | case2 first =>
      have small := first.toNat_lt
      have spells : Spells 0 _ _ := .one (value?_digit (first.toNat / 4) (by omega))
        (value?_digit (first.toNat % 4 * 16) (by omega))
      rwa [Utf8.toUInt8_eq first (by omega)] at spells
  | case3 first second =>
      have small := first.toNat_lt
      have small' := second.toNat_lt
      have spells : Spells 0 _ _ := .two (value?_digit (first.toNat / 4) (by omega))
        (value?_digit (first.toNat % 4 * 16 + second.toNat / 16) (by omega))
        (value?_digit (second.toNat % 16 * 4) (by omega))
      rwa [Utf8.toUInt8_eq first (by omega), Utf8.toUInt8_eq second (by omega)] at spells
  | case4 first second third rest ih =>
      have small := first.toNat_lt
      have small' := second.toNat_lt
      have small'' := third.toNat_lt
      have spells : Spells 0 _ _ := .group (value?_digit (first.toNat / 4) (by omega))
        (value?_digit (first.toNat % 4 * 16 + second.toNat / 16) (by omega))
        (value?_digit (second.toNat % 16 * 4 + third.toNat / 64) (by omega))
        (value?_digit (third.toNat % 64) (by omega)) ih
      rwa [Utf8.toUInt8_eq first (by omega), Utf8.toUInt8_eq second (by omega),
        Utf8.toUInt8_eq third (by omega)] at spells

/-! ### A strict reader -/

section Digits

variable {character : Code} {value : Nat} (digit : value? character = some value)
  (bytes : List UInt8) (left : Nat) (rest : List Code)

include digit

theorem read_digit (place pads : Nat) :
    read true ⟨bytes, place, left, pads, false⟩ (character :: rest) =
      read true (Reader.push ⟨bytes, place, left, pads, false⟩ value) rest := by
  rw [read, if_neg (ne_padding digit)]
  simp [digit]

theorem read_first :
    read true ⟨bytes, 0, left, 0, false⟩ (character :: rest) =
      read true ⟨bytes, 1, value, 0, false⟩ rest := read_digit digit bytes left rest 0 0

theorem read_second :
    read true ⟨bytes, 1, left, 0, false⟩ (character :: rest) =
      read true ⟨(left * 4 + value / 16).toUInt8 :: bytes, 2, value % 16, 0, false⟩ rest :=
  read_digit digit bytes left rest 1 0

theorem read_third :
    read true ⟨bytes, 2, left, 0, false⟩ (character :: rest) =
      read true ⟨(left * 16 + value / 4).toUInt8 :: bytes, 3, value % 4, 0, false⟩ rest :=
  read_digit digit bytes left rest 2 0

theorem read_fourth :
    read true ⟨bytes, 3, left, 0, false⟩ (character :: rest) =
      read true ⟨(left * 64 + value).toUInt8 :: bytes, 0, 0, 0, false⟩ rest :=
  read_digit digit bytes left rest 3 0

end Digits

theorem read_misplaced {character : Code} (other : character ≠ '=')
    (foreign : value? character = none) (reader : Reader) (rest : List Code) :
    read true reader (character :: rest) = .error .misplaced := by
  rw [read, if_neg other, foreign]
  rfl

theorem read_excess (bytes : List UInt8) {place : Nat} (outside : place < 2) (left pads : Nat)
    (padded : Bool) (rest : List Code) :
    read true ⟨bytes, place, left, pads, padded⟩ ('=' :: rest) =
      read true ⟨bytes, place, left, pads, true⟩ rest := by
  have within : ¬ 2 ≤ place := Nat.not_le_of_lt outside
  rw [read, if_pos rfl, if_neg fun both => within both.1]
  simp only [if_neg within]

theorem read_padded {bytes : List UInt8} {place left pads : Nat} (outside : place < 2)
    {text : List Code} {result : List UInt8} :
    read true ⟨bytes, place, left, pads, true⟩ text = .ok result ↔
      text = List.replicate text.length (Code.char '=') ∧ place = 0 ∧ result = bytes.reverse := by
  induction text with
  | nil =>
      rw [read, Reader.finish]
      by_cases whole : place = 0
      · simp [whole, eq_comm]
      · have single : place = 1 := by omega
        simp [single]
  | cons character rest ih =>
      -- Behind padding in excess only more padding is accepted.
      by_cases pad : character = '='
      · subst pad
        rw [read_excess bytes outside, ih, List.length_cons, List.replicate_succ]
        simp
      · have fails : read true ⟨bytes, place, left, pads, true⟩ (character :: rest) =
            .error .misplaced := by
          rw [read, if_neg pad]
          cases value? character <;> rfl
        rw [fails, List.length_cons, List.replicate_succ]
        simp [pad]

theorem read_half {bytes : List UInt8} {left : Nat} {rest : List Code} {result : List UInt8} :
    read true ⟨bytes, 2, left, 0, false⟩ ('=' :: rest) = .ok result ↔
      rest = [Code.char '='] ∧ result = bytes.reverse := by
  have opens : read true ⟨bytes, 2, left, 0, false⟩ ('=' :: rest) =
      read true ⟨bytes, 2, left, 1, true⟩ rest := by
    rw [read, if_pos rfl, if_neg (by simp)]
    rfl
  rw [opens]
  cases rest with
  | nil => simp [read, Reader.finish]
  | cons character rest =>
      by_cases pad : character = '='
      · subst pad
        rw [read, if_pos rfl, if_pos (by simp)]
        cases rest <;> simp [eq_comm]
      · rw [read, if_neg pad]
        cases value? character <;> simp [pad]

theorem read_last {bytes : List UInt8} {left : Nat} {rest : List Code} {result : List UInt8} :
    read true ⟨bytes, 3, left, 0, false⟩ ('=' :: rest) = .ok result ↔
      rest = [] ∧ result = bytes.reverse := by
  rw [read, if_pos rfl, if_pos (by simp)]
  cases rest <;> simp [eq_comm]

theorem read_next {reader : Reader} {character : Code} {rest : List Code} {result : List UInt8}
    (taken : read true reader (character :: rest) = .ok result) :
    character = '=' ∨ ∃ value, value? character = some value := by
  by_cases pad : character = '='
  · exact .inl pad
  · cases digit : value? character with
    | some value => exact .inr ⟨value, rfl⟩
    | none =>
        rw [read_misplaced pad digit] at taken
        cases taken

theorem spells_of_read (text : List Code) {bytes result : List UInt8}
    (taken : read true ⟨bytes, 0, 0, 0, false⟩ text = .ok result) :
    ∃ excess later, Spells excess text later ∧ result = bytes.reverse ++ later := by
  match text with
  | [] =>
      cases taken
      exact ⟨0, [], .ends 0, (List.append_nil _).symm⟩
  | first :: rest =>
      -- Padding before a group is in excess, and only more of it may follow.
      rcases read_next taken with rfl | ⟨a, opens⟩
      · rw [read_excess bytes (by decide), read_padded (by decide)] at taken
        obtain ⟨excess, _, rfl⟩ := taken
        refine ⟨rest.length + 1, [], ?_, (List.append_nil _).symm⟩
        rw [excess, List.length_replicate, ← List.replicate_succ]
        exact .ends _
      rw [read_first opens] at taken
      match rest with
      | [] => cases taken
      | second :: rest =>
          rcases read_next taken with rfl | ⟨b, goes⟩
          · rw [read_excess bytes (by decide), read_padded (by decide)] at taken
            exact absurd taken.2.1 (by decide)
          rw [read_second goes] at taken
          match rest with
          | [] => cases taken
          | third :: rest =>
              -- Padding after two characters ends a group of one byte.
              rcases read_next taken with rfl | ⟨c, further⟩
              · obtain ⟨rfl, rfl⟩ := read_half.mp taken
                exact ⟨0, _, .one opens goes, List.reverse_cons⟩
              rw [read_third further] at taken
              match rest with
              | [] => cases taken
              | fourth :: rest =>
                  rcases read_next taken with rfl | ⟨d, closes⟩
                  · obtain ⟨rfl, rfl⟩ := read_last.mp taken
                    exact ⟨0, _, .two opens goes further, by simp⟩
                  rw [read_fourth closes] at taken
                  obtain ⟨excess, later, behind, rfl⟩ := spells_of_read rest taken
                  exact ⟨excess, _, .group opens goes further closes behind, by simp⟩

theorem read_of_spells {excess : Nat} {text : List Code} {later : List UInt8}
    (spells : Spells excess text later) (bytes : List UInt8) :
    read true ⟨bytes, 0, 0, 0, false⟩ text = .ok (bytes.reverse ++ later) := by
  induction spells generalizing bytes with
  | ends excess =>
      cases excess with
      | zero => simp [read, Reader.finish]
      | succ excess =>
          rw [List.replicate_succ, read_excess bytes (by decide)]
          refine (read_padded (by decide)).mpr ⟨?_, rfl, List.append_nil _⟩
          rw [List.length_replicate]
  | one opens closes =>
      rw [read_first opens, read_second closes]
      exact read_half.mpr ⟨rfl, List.reverse_cons.symm⟩
  | two opens goes closes =>
      rw [read_first opens, read_second goes, read_third closes]
      exact read_last.mpr ⟨rfl, by simp⟩
  | group opens goes further closes _ ih =>
      rw [read_first opens, read_second goes, read_third further, read_fourth closes, ih]
      simp

/-! ### Spellings -/

variable {excess : Nat} {text : List Code} {bytes : List UInt8}

theorem Spells.length (spells : Spells excess text bytes) : text.length % 4 = excess % 4 := by
  induction spells with
  | ends excess => rw [List.length_replicate]
  | one | two => simp
  | group _ _ _ _ _ ih =>
      simp only [List.length_cons]
      omega

theorem Spells.forall_mem (spells : Spells excess text bytes) (holds : Code → Prop)
    (padding : holds '=')
    (digits : ∀ character value, value? character = some value → holds character) :
    ∀ character ∈ text, holds character := by
  induction spells with
  | ends excess =>
      intro character member
      rwa [List.eq_of_mem_replicate member]
  | one opens closes => simp [digits _ _ opens, digits _ _ closes, padding]
  | two opens goes closes => simp [digits _ _ opens, digits _ _ goes, digits _ _ closes, padding]
  | group opens goes further closes _ ih =>
      simpa [digits _ _ opens, digits _ _ goes, digits _ _ further, digits _ _ closes] using ih

theorem Spells.ascii (spells : Spells excess text bytes) :
    ∀ character ∈ text, character.toNat < 128 := by
  apply spells.forall_mem (fun character => character.toNat < 128) (by decide)
  intro character value digit
  have bounds := value?_bounds digit
  omega

/-- A spelling in which padding in excess is minded only if no group stands before it. -/
def Legible (text : List Code) (bytes : List UInt8) : Prop :=
  ∃ excess, Spells excess text bytes ∧ (excess = 0 ∨ bytes ≠ [])

theorem Spells.legible (spells : Spells 0 text bytes) : Legible text bytes :=
  ⟨0, spells, .inl rfl⟩

theorem Spells.head?_iff (spells : Spells excess text bytes) :
    text.head? = some '=' ↔ excess ≠ 0 ∧ bytes = [] := by
  cases spells with
  | ends excess => cases excess <;> simp [List.replicate_succ]
  | one opens | two opens | group opens => simp [ne_padding opens]

/-- What a strict reader takes, and the bytes it finds. -/
theorem decodeStrict_eq_ok_iff : decodeStrict text = .ok bytes ↔ Legible text bytes := by
  unfold decodeStrict
  constructor
  · intro decoded
    split at decoded
    · cases decoded
    · next opens =>
        obtain ⟨excess, later, spells, same⟩ := spells_of_read text decoded
        rw [List.reverse_nil, List.nil_append] at same
        subst same
        refine ⟨excess, spells, ?_⟩
        by_cases none : excess = 0
        · exact .inl none
        · exact .inr fun empty => opens (spells.head?_iff.mpr ⟨none, empty⟩)
  · rintro ⟨excess, spells, apart⟩
    have opens : ¬ text.head? = some '=' := by
      rw [spells.head?_iff]
      rintro ⟨some, empty⟩
      exact apart.elim some (absurd empty)
    rw [if_neg opens]
    exact read_of_spells spells []

end SecretFill.Text.Base64
