import SecretFill.Proofs.Decimal.Numeral
import SecretFill.Proofs.Yaml.Reread
import SecretFill.Yaml.Scalar
/-!
Atoms as scalars. A null, a truth value and an integer are written plain, with a text that has their
tag and is read as the same atom.
-/

namespace SecretFill.Yaml

open Data Decimal Layout

def integerCharacters : List Code := ("-0123456789" : Text).toList

theorem mem_integerText {number : Int} {character : Code}
    (member : character ∈ integerText number) : character ∈ integerCharacters := by
  have known : ∀ digit < 10, Code.char (Nat.digitChar digit) ∈ integerCharacters := by decide
  have digits (inside : character ∈ digitsText number.natAbs) : character ∈ integerCharacters := by
    obtain ⟨digit, small, rfl⟩ := (numeral_toDigits _).digit character inside
    exact known digit small
  unfold integerText at member
  split at member
  · rcases List.mem_cons.mp member with rfl | inside
    · exact List.mem_cons_self
    · exact digits inside
  · exact digits member

theorem integerText_cases (number : Int) :
    ∃ first rest, digitsText number.natAbs = first :: rest ∧
      Numeral (first :: rest) ∧ first ∈ ("0123456789" : Text).toList ∧
      (number < 0 ∧ integerText number = Code.char '-' :: first :: rest ∨
        0 ≤ number ∧ integerText number = first :: rest) := by
  have numeral := numeral_toDigits number.natAbs
  obtain ⟨first, rest, same, -⟩ := numeral.first
  rw [same] at numeral
  have known : ∀ digit < 10, Code.char (Nat.digitChar digit) ∈ ("0123456789" : Text).toList := by decide
  refine ⟨first, rest, same, numeral, ?_, ?_⟩
  · obtain ⟨digit, small, rfl⟩ := numeral.digit first List.mem_cons_self
    exact known digit small
  · unfold integerText
    rw [same]
    split
    · next negative => exact .inl ⟨negative, rfl⟩
    · next natural => exact .inr ⟨Int.not_lt.mp natural, rfl⟩

theorem integerText_ne_nil (number : Int) : integerText number ≠ [] := by
  obtain ⟨first, rest, -, -, -, ⟨-, same⟩ | ⟨-, same⟩⟩ := integerText_cases number
  · rw [same]
    exact List.cons_ne_nil _ _
  · rw [same]
    exact List.cons_ne_nil _ _

/-! ### The plain form -/

theorem hasPair_eq_false {first : Code → Bool} {text : List Code} (second : Code → Bool)
    (none : ∀ character ∈ text, first character = false) : hasPair first second text = false := by
  induction text with
  | nil => rfl
  | cons before rest ih =>
      obtain ⟨here, later⟩ := List.forall_mem_cons.mp none
      cases rest with
      | nil => rfl
      | cons after rest => rw [hasPair, here, ih later, Bool.false_and, Bool.or_self]

theorem getLast?_member {member : Code → Bool} {text : List Code}
    (none : ∀ character ∈ text, member character = false) :
    (text.getLast?.map member).getD false = false := by
  cases last : text.getLast? with
  | none => rfl
  | some character => exact none character (List.mem_of_getLast? last)

theorem head?_member {member : Code → Bool} {text : List Code}
    (none : ∀ character ∈ text, member character = false) :
    (text.head?.map member).getD false = false := by
  cases text with
  | nil => rfl
  | cons character rest => exact none character List.mem_cons_self

theorem opensWithIndicator_integerText (number : Int) :
    opensWithIndicator (integerText number) = false := by
  have plain : ∀ first ∈ ("0123456789" : Text).toList, isGapOrEnd first = false ∧
      ∀ rest, opensWithIndicator (first :: rest) = false := by
    have outside : ∀ first ∈ ("0123456789" : Text).toList, isGapOrEnd first = false ∧
        ("#,[]\x7b\x7d&*!|>'\"%@\x60" : Text).toList.contains first = false ∧ (first == '-') = false ∧
        (first == '?') = false := by decide
    intro first known
    obtain ⟨solid, indicator, dash, question⟩ := outside first known
    refine ⟨solid, fun rest => ?_⟩
    simp only [opensWithIndicator, indicator, dash, question, Bool.or_self, Bool.false_and]
  obtain ⟨first, rest, -, -, known, ⟨-, same⟩ | ⟨-, same⟩⟩ := integerText_cases number
  · rw [same, opensWithIndicator, List.headD_cons, (plain first known).1, Bool.and_false]
    rfl
  · rw [same]
    exact (plain first known).2 rest

theorem startsWithMarker_integerText (number : Int) :
    startsWithMarker (integerText number) = false := by
  have outside : ∀ first ∈ ("0123456789" : Text).toList, first ≠ '-' ∧ first ≠ '.' := by decide
  obtain ⟨first, rest, -, -, known, ⟨-, same⟩ | ⟨-, same⟩⟩ := integerText_cases number
  · obtain ⟨dash, point⟩ := outside first known
    rw [same]
    unfold startsWithMarker
    split
    · next marker => exact absurd (List.cons.inj (List.cons.inj marker).2).1 dash
    · next marker => cases (List.cons.inj marker).1
    · rfl
  · obtain ⟨dash, point⟩ := outside first known
    rw [same]
    unfold startsWithMarker
    split
    · next marker => exact absurd (List.cons.inj marker).1 dash
    · next marker => exact absurd (List.cons.inj marker).1 point
    · rfl

theorem allowsPlain_integerText (number : Int) : allowsPlain (integerText number) = true := by
  have solid : ∀ character ∈ integerCharacters, isGapOrEnd character = false ∧
      isWriterBreak character = false ∧ isSpecial character = false ∧ (character == ' ') = false ∧
      (character == ':') = false := by decide
  -- A sign and digits have nothing that plain style forbids, at any place.
  have shown (character : Code) (member : character ∈ integerText number) :=
    solid character (mem_integerText member)
  have spaces : atEnds (· == ' ') (integerText number) = false := by
    have none : ∀ character ∈ integerText number, (character == ' ') = false :=
      fun character member => (shown character member).2.2.2.1
    rw [atEnds, head?_member none, getLast?_member none, Bool.or_self]
  have line : isMultiline (integerText number) = false :=
    List.any_eq_false.mpr fun character member => by simp [(shown character member).2.1]
  have special : (integerText number).any isSpecial = false :=
    List.any_eq_false.mpr fun character member => by simp [(shown character member).2.2.1]
  have colon : beforeGap (· == ':') (integerText number) = false := by
    have none : ∀ character ∈ integerText number, (character == ':') = false :=
      fun character member => (shown character member).2.2.2.2
    rw [beforeGap, hasPair_eq_false _ none, getLast?_member none, Bool.or_self]
  have comment : hasPair isGapOrEnd (· == '#') (integerText number) = false :=
    hasPair_eq_false _ fun character member => (shown character member).1
  simp only [allowsPlain, hasIndicator, spaces, line, special, colon, comment,
    startsWithMarker_integerText, opensWithIndicator_integerText, Bool.or_self, Bool.not_false]

/-! ### The tag -/

theorem dropFinalBreak_integerText (number : Int) :
    Resolution.dropFinalBreak (integerText number) = integerText number := by
  have solid : ∀ character ∈ integerCharacters, character ≠ '\n' := by decide
  apply if_neg
  intro last
  exact solid '\n' (mem_integerText (List.mem_of_getLast? last)) rfl

theorem not_word {words : List Text} {text : List Code}
    (others : ∀ word ∈ words, word.toList.head?.all (· ∉ integerCharacters) = true)
    (opens : ∃ first rest, text = first :: rest ∧ first ∈ integerCharacters) :
    words.any (·.toList == text) = false := by
  obtain ⟨first, rest, rfl, known⟩ := opens
  apply List.any_eq_false.mpr
  intro word member same
  rw [beq_iff_eq] at same
  have outside := others word member
  rw [same, List.head?_cons, Option.all_some] at outside
  exact of_decide_eq_true outside known

theorem opens_integerText (number : Int) :
    ∃ first rest, integerText number = first :: rest ∧ first ∈ integerCharacters := by
  obtain ⟨first, rest, same⟩ := List.exists_cons_of_ne_nil (integerText_ne_nil number)
  have member : first ∈ integerText number := by
    rw [same]
    exact List.mem_cons_self
  exact ⟨first, rest, same, mem_integerText member⟩

theorem isUnderscoredDigit_of_numeral {digits : List Code} (numeral : Numeral digits) :
    ∀ character ∈ digits, Resolution.isUnderscoredDigit character = true := by
  have known : ∀ digit < 10, Resolution.isUnderscoredDigit (Nat.digitChar digit) = true := by decide
  intro character member
  obtain ⟨digit, small, rfl⟩ := numeral.digit character member
  exact known digit small

theorem dropSign_integerText (number : Int) :
    Resolution.dropSign (integerText number) = digitsText number.natAbs := by
  have outside : ∀ first ∈ ("0123456789" : Text).toList, first ≠ '-' ∧ first ≠ '+' := by decide
  obtain ⟨first, rest, digits, -, known, ⟨-, same⟩ | ⟨-, same⟩⟩ := integerText_cases number
  · rw [same, digits]
    rfl
  · obtain ⟨minus, plus⟩ := outside first known
    rw [same, digits]
    unfold Resolution.dropSign
    split
    · next sign => exact absurd (List.cons.inj sign).1 minus
    · next sign => exact absurd (List.cons.inj sign).1 plus
    · rfl

theorem dropWhile_numeral {first : Code} {rest : List Code} (numeral : Numeral (first :: rest)) :
    rest.dropWhile Resolution.isUnderscoredDigit = [] := by
  apply List.dropWhile_eq_nil_iff.mpr
  intro character member
  exact isUnderscoredDigit_of_numeral numeral character (List.mem_cons_of_mem _ member)

theorem afterDigit?_numeral {first : Code} {rest : List Code} (numeral : Numeral (first :: rest)) :
    first.isDigit = true ∧ Resolution.afterDigit? (first :: rest) = some rest := by
  have known : ∀ digit < 10, (Nat.digitChar digit).isDigit = true := by decide
  obtain ⟨digit, small, rfl⟩ := numeral.digit first List.mem_cons_self
  exact ⟨known digit small, if_pos (known digit small)⟩

theorem isSexagesimal_numeral {digits : List Code} (numeral : Numeral digits)
    (ends : List Code → Bool) : Resolution.isSexagesimal digits ends = false := by
  obtain ⟨first, rest, rfl, -⟩ := numeral.first
  simp only [Resolution.isSexagesimal, (afterDigit?_numeral numeral).2, dropWhile_numeral numeral]
  rfl

theorem isReal_integerText (number : Int) : Resolution.isReal (integerText number) = false := by
  obtain ⟨first, rest, digits, numeral, known, -⟩ := integerText_cases number
  obtain ⟨opening, others, opens, shown⟩ := opens_integerText number
  have infinite : Resolution.infiniteWords.any (·.toList == first :: rest) = false :=
    not_word (by decide) ⟨first, rest, rfl, List.mem_cons_of_mem _ known⟩
  have missing : Resolution.undefinedWords.any (·.toList == integerText number) = false :=
    not_word (by decide) (opens_integerText number)
  have sexagesimal := isSexagesimal_numeral numeral Resolution.isFraction
  simp only [Resolution.isReal, dropSign_integerText, digits, (afterDigit?_numeral numeral).2,
    dropWhile_numeral numeral, infinite, missing, sexagesimal, Bool.or_false, Bool.false_or]
  rw [opens]
  split
  · next point =>
      rw [(List.cons.inj point).1] at shown
      exact absurd shown (by decide)
  · rfl

theorem isInteger_integerText (number : Int) :
    Resolution.isInteger (integerText number) = true := by
  obtain ⟨first, rest, digits, numeral, -, -⟩ := integerText_cases number
  obtain ⟨_, _, same, alone⟩ := numeral.first
  obtain ⟨rfl, rfl⟩ := List.cons.inj same
  rw [Resolution.isInteger, dropSign_integerText, digits]
  -- Zero is a numeral of one digit; any other one begins with a digit that marks no base.
  by_cases zero : first = '0'
  · rw [alone zero, zero]
    rfl
  · have all : rest.all Resolution.isUnderscoredDigit = true := by
      apply List.all_eq_true.mpr
      intro character member
      exact isUnderscoredDigit_of_numeral numeral character (List.mem_cons_of_mem _ member)
    split
    · next mark => exact absurd (List.cons.inj mark).1 zero
    · next mark => exact absurd (List.cons.inj mark).1 zero
    · next mark => exact absurd (List.cons.inj mark).1 zero
    · next mark => exact absurd (List.cons.inj mark).1 zero
    · next same =>
        obtain ⟨rfl, rfl⟩ := List.cons.inj same
        rw [(afterDigit?_numeral numeral).1, all]
        rfl
    · next same => cases same

theorem tagOf_integerText (number : Int) :
    Resolution.tagOf (Text.ofList (integerText number)) = Tag.int := by
  have filled : (Text.ofList (integerText number)).isEmpty = false := by
    simp [Text.isEmpty, integerText_ne_nil number]
  have words : Resolution.boolWords.any (·.toList == integerText number) = false :=
    not_word (by decide) (opens_integerText number)
  have nonempty : (integerText number).isEmpty = false :=
    List.isEmpty_eq_false_iff.mpr (integerText_ne_nil number)
  simp only [Resolution.tagOf, filled, dropFinalBreak_integerText, nonempty, words,
    isReal_integerText, isInteger_integerText, Bool.false_eq_true, if_false, if_true]

/-! ### The value -/

theorem dropUnderscores_integerText (number : Int) :
    Scalar.dropUnderscores (integerText number) = integerText number := by
  have solid : ∀ character ∈ integerCharacters, (character != '_') = true := by decide
  exact List.filter_eq_self.mpr fun character member => solid character (mem_integerText member)

theorem unsignedInteger_toDigits {number : Int} (within : writable number = true) :
    Scalar.unsignedInteger (digitsText number.natAbs) = .ok number.natAbs := by
  obtain ⟨first, rest, digits, numeral, -, -⟩ := integerText_cases number
  have read := readInteger_toDigits within
  rw [digits] at read
  obtain ⟨_, _, same, alone⟩ := numeral.first
  obtain ⟨rfl, rfl⟩ := List.cons.inj same
  rw [digits]
  by_cases zero : first = '0'
  · rw [alone zero, zero] at read ⊢
    exact congrArg Except.ok (Except.ok.inj read)
  · have colon : (first :: rest).contains ':' = false := by
      have solid : ∀ digit < 10, Code.char (Nat.digitChar digit) ≠ ':' := by decide
      rw [List.contains_eq_mem, decide_eq_false_iff_not]
      intro member
      obtain ⟨digit, small, colon⟩ := numeral.digit _ member
      exact solid digit small colon.symm
    unfold Scalar.unsignedInteger
    split
    · next same => cases same
    · next mark => exact absurd (List.cons.inj mark).1 zero
    · next mark => exact absurd (List.cons.inj mark).1 zero
    · next mark => exact absurd (List.cons.inj mark).1 zero
    · next mark => exact absurd (List.cons.inj mark).1 zero
    · rw [colon, if_neg Bool.false_ne_true, Scalar.integerIn, read]

theorem integer_integerText {number : Int} (within : writable number = true) :
    Scalar.integer (integerText number) = .ok number := by
  have outside : ∀ first ∈ ("0123456789" : Text).toList, first ≠ '-' ∧ first ≠ '+' := by decide
  have nonempty : (integerText number).isEmpty = false :=
    List.isEmpty_eq_false_iff.mpr (integerText_ne_nil number)
  have unsigned := unsignedInteger_toDigits within
  rw [Scalar.integer, dropUnderscores_integerText, nonempty]
  -- A minus sign is written before a negative number, and no sign before any other.
  obtain ⟨first, rest, digits, -, known, ⟨negative, same⟩ | ⟨natural, same⟩⟩ :=
    integerText_cases number
  · rw [digits] at unsigned
    have sign : splitSign (integerText number) = (true, first :: rest) := by
      rw [same]
      rfl
    simp only [Bool.false_eq_true, if_false, sign, unsigned, if_true]
    exact congrArg Except.ok (by omega)
  · obtain ⟨minus, plus⟩ := outside first known
    rw [digits] at unsigned
    have sign : splitSign (integerText number) = (false, first :: rest) := by
      rw [same]
      unfold splitSign
      split
      · next mark => exact absurd (List.cons.inj mark).1 minus
      · next mark => exact absurd (List.cons.inj mark).1 plus
      · rfl
    simp only [Bool.false_eq_true, if_false, sign, unsigned]
    exact congrArg Except.ok (by omega)

/-! ### Scalars of atoms -/

theorem Layout.Scalar.Clear.tag_read {scalar : Layout.Scalar} (clear : scalar.Clear) :
    (if scalar.style false = .plain then
        Resolution.tagOf (Text.ofList (rereadText scalar.text)) else Tag.text) = scalar.tag := by
  have suits := suits_style clear
  generalize scalar.style false = style at suits ⊢
  cases suits with
  | plain nonempty allowed kept =>
      rw [if_pos rfl, rereadText_line (line_of_allowsPlain allowed)]
      exact beq_iff_eq.mp kept
  | single text allowed => exact text.symm
  | double text refused => exact text.symm

theorem clear_atomScalar {atom : Atom} {scalar : Layout.Scalar} (simple : atom.isSimple = true)
    (written : atomScalar atom = .ok scalar) : scalar.Clear := by
  cases atom with
  | null =>
      cases written
      exact ⟨rfl, .inr (by decide)⟩
  | bool value =>
      cases written
      cases value with
      | false => exact ⟨rfl, .inr (by decide)⟩
      | true => exact ⟨rfl, .inr (by decide)⟩
  | int value =>
      rw [atomScalar] at written
      split at written
      · cases written
        refine ⟨rfl, .inr ⟨?_, allowsPlain_integerText value, integerText_ne_nil value⟩⟩
        rw [Scalar.plainKeepsTag, tagOf_integerText]
        rfl
      · cases written
  | text value =>
      cases written
      exact ⟨rfl, .inl rfl⟩
  | real value => cases simple
  | bytes value => cases simple

/-- The atom that a scalar stands for, by its tag and its text. -/
inductive ScalarMeans : Text → Text → Atom → Prop
  | null (text : Text) : ScalarMeans Tag.null text .null
  | bool {text : Text} {value : Bool} (read : Scalar.bool text.toList = .ok value) :
      ScalarMeans Tag.bool text (.bool value)
  | int {text : Text} {value : Int} (read : Scalar.integer text.toList = .ok value) :
      ScalarMeans Tag.int text (.int value)
  | text (text : Text) : ScalarMeans Tag.text text (.text text)

theorem scalarMeans_unique {tag text : Text} {first second : Atom}
    (one : ScalarMeans tag text first) (other : ScalarMeans tag text second) : first = second := by
  -- The tag alone decides how a scalar is read.
  cases one with
  | null text =>
      generalize same : Tag.null = tag at other
      cases other with
      | null => rfl
      | bool => exact absurd same (by decide)
      | int => exact absurd same (by decide)
      | text => exact absurd same (by decide)
  | bool read =>
      generalize same : Tag.bool = tag at other
      cases other with
      | null => exact absurd same (by decide)
      | bool again => exact congrArg Atom.bool (Except.ok.inj (read.symm.trans again))
      | int => exact absurd same (by decide)
      | text => exact absurd same (by decide)
  | int read =>
      generalize same : Tag.int = tag at other
      cases other with
      | null => exact absurd same (by decide)
      | bool => exact absurd same (by decide)
      | int again => exact congrArg Atom.int (Except.ok.inj (read.symm.trans again))
      | text => exact absurd same (by decide)
  | text text =>
      generalize same : Tag.text = tag at other
      cases other with
      | null => exact absurd same (by decide)
      | bool => exact absurd same (by decide)
      | int => exact absurd same (by decide)
      | text => rfl

/-- The scalar of a simple atom is read as the atom, apart from the break that its text may lose. -/
theorem means_atomScalar {atom : Atom} {scalar : Layout.Scalar} (simple : atom.isSimple = true)
    (written : atomScalar atom = .ok scalar) :
    ScalarMeans scalar.tag (Text.ofList (rereadText scalar.text)) atom.reread := by
  have plain (text : List Code) (allowed : allowsPlain text = true) : rereadText text = text :=
    rereadText_line (line_of_allowsPlain allowed)
  cases atom with
  | null =>
      cases written
      exact .null _
  | bool value =>
      cases written
      cases value with
      | false =>
          rw [plain _ (by decide)]
          exact .bool rfl
      | true =>
          rw [plain _ (by decide)]
          exact .bool rfl
  | int value =>
      rw [atomScalar] at written
      split at written
      · next within =>
          cases written
          rw [plain _ (allowsPlain_integerText value)]
          apply ScalarMeans.int
          rw [Text.toList_ofList]
          exact integer_integerText within
      · cases written
  | text value =>
      cases written
      exact .text _
  | real value => cases simple
  | bytes value => cases simple

end SecretFill.Yaml
