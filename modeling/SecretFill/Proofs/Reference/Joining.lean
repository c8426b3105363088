import SecretFill.Proofs.Reference
/-!
Specifications put together. A text made of two specifications and any separator between them has
the entries of the first and then those of the second, so it is read as both one after the other.
What is read can be written out and is read again as the same references, whatever joins them.
-/

namespace SecretFill

open SecretFill.Text

namespace Specification

inductive Separator
  | lineFeed
  | carriageReturn
  | returnAndFeed
  | comma

def Separator.text : Separator → Text
  | .lineFeed => "\n"
  | .carriageReturn => "\r"
  | .returnAndFeed => "\r\n"
  | .comma => ","

def Gap (text : Text) : Prop :=
  ∀ character ∈ text.toList, isBlank character = true ∨ separates character = true

theorem Separator.filled (separator : Separator) : separator.text.toList ≠ [] := by
  cases separator <;> decide

theorem Separator.separates (separator : Separator) :
    ∀ mark ∈ separator.text.toList, Specification.separates mark = true := by
  cases separator <;> exact List.all_eq_true.mp rfl

/-! ### Entries of joined texts -/

theorem entries_joined (separator : Separator) (first second : List Code) :
    entries (first ++ (separator.text.toList ++ second)) = entries first ++ entries second := by
  rw [entries_eq, entries_eq, entries_eq,
    filter_pieces_joined rfl rfl separator.filled separator.separates, List.map_append]

theorem entries_intercalate (separator : Separator) (texts : List (List Code)) :
    entries (separator.text.toList.intercalate texts) = texts.flatMap entries := by
  rw [entries_eq, filter_pieces_intercalate rfl rfl separator.filled separator.separates,
    List.map_flatMap]
  exact List.flatMap_congr fun text _ => (entries_eq text).symm

theorem entries_gap {text : Text} (gap : Gap text) : entries text.toList = [] := by
  have division := divides_pieces separates text.toList
  rw [entries_eq, List.map_eq_nil_iff, List.filter_eq_nil_iff]
  intro piece member solid
  obtain ⟨character, inside, solid⟩ := List.any_eq_true.mp solid
  rcases gap character (division.subset piece member inside) with blank | separated
  · simp [blank] at solid
  · rw [division.free piece member character inside] at separated
    cases separated

theorem entries_alone {entry : List Code} (trims : Trims isBlank entry entry) (filled : entry ≠ [])
    (free : ∀ character ∈ entry, separates character = false) : entries entry = [entry] := by
  have same : trim entry = entry := trims.eq_strip.symm
  rw [entries, pieces_of_free free, List.map_singleton, same, List.filter_cons_of_pos,
    List.filter_nil]
  simpa using filled

end Specification

/-! ### Specifications one after the other -/

variable {earlier later : List (List Code)} {references : List Reference}
  {error : ReferenceError}

theorem parse_ok_iff {raw : Text} : Specification.parse raw = .ok references ↔
    ReadsAll (Specification.entries raw.toList) references :=
  ⟨parse_eq_ok, readEntries_of_readsAll⟩

theorem parse_congr {raw other : Text}
    (same : Specification.entries raw.toList = Specification.entries other.toList) :
    Specification.parse raw = Specification.parse other :=
  congrArg (Specification.readEntries []) same

theorem forall₂_append_iff {α β : Type} {holds : α → β → Prop} {before after : List α}
    {all : List β} : List.Forall₂ holds (before ++ after) all ↔ ∃ first second,
      List.Forall₂ holds before first ∧ List.Forall₂ holds after second ∧ all = first ++ second := by
  constructor
  · intro related
    induction before generalizing all with
    | nil => exact ⟨[], all, .nil, related, rfl⟩
    | cons _ before ih =>
        obtain ⟨value, rest, here, behind, rfl⟩ := List.forall₂_cons_left_iff.mp related
        obtain ⟨first, second, one, two, rfl⟩ := ih behind
        exact ⟨value :: first, second, .cons here one, two, rfl⟩
  · rintro ⟨first, second, one, two, rfl⟩
    exact List.rel_append one two

theorem readsAll_append : ReadsAll (earlier ++ later) references ↔ ∃ first second,
    ReadsAll earlier first ∧ ReadsAll later second ∧
      (outputsOf first).Disjoint (outputsOf second) ∧ references = first ++ second := by
  have distinct (first second : List Reference) : (outputsOf (first ++ second)).Nodup ↔
      (outputsOf first).Nodup ∧ (outputsOf second).Nodup ∧
        (outputsOf first).Disjoint (outputsOf second) := by
    rw [outputsOf, List.map_append, List.nodup_append']
    rfl
  constructor
  · rintro ⟨reads, unlike⟩
    obtain ⟨first, second, before, after, rfl⟩ := forall₂_append_iff.mp reads
    obtain ⟨one, two, apart⟩ := (distinct first second).mp unlike
    exact ⟨first, second, ⟨before, one⟩, ⟨after, two⟩, apart, rfl⟩
  · rintro ⟨first, second, ⟨before, one⟩, ⟨after, two⟩, apart, rfl⟩
    exact ⟨forall₂_append_iff.mpr ⟨first, second, before, after, rfl⟩,
      (distinct first second).mpr ⟨one, two, apart⟩⟩

/-- Entries behind the first one that is refused are never looked at. -/
theorem RefusesFirst.append (refuses : RefusesFirst earlier error) (later : List (List Code)) :
    RefusesFirst (earlier ++ later) error := by
  obtain ⟨before, entry, after, read, rfl, rest⟩ := refuses
  exact ⟨before, entry, after ++ later, read, by simp, rest⟩

/-- Two specifications with a separator between them are read just when both are and share no
output, and then as the references of the first and those of the second. What refuses the first
refuses both together. It makes no difference which separator it is, nor where blanks and separators
stand alone. -/
theorem specifications_compose (first second : Text) (separator : Specification.Separator) :
    (∀ references, Specification.parse (first ++ separator.text ++ second) = .ok references ↔
      ∃ earlier later, Specification.parse first = .ok earlier ∧
        Specification.parse second = .ok later ∧
        (outputsOf earlier).Disjoint (outputsOf later) ∧ references = earlier ++ later) ∧
      (∀ error, Specification.parse first = .error error →
        Specification.parse (first ++ separator.text ++ second) = .error error) ∧
      (∀ other : Specification.Separator, Specification.parse (first ++ other.text ++ second) =
        Specification.parse (first ++ separator.text ++ second)) ∧
      ∀ gap, Specification.Gap gap → ∀ other : Specification.Separator,
        Specification.parse (first ++ separator.text ++ gap) = Specification.parse first ∧
          Specification.parse (gap ++ separator.text ++ second) = Specification.parse second ∧
          Specification.parse (first ++ separator.text ++ gap ++ other.text ++ second) =
            Specification.parse (first ++ separator.text ++ second) := by
  have joined (separator : Specification.Separator) (first second : Text) :
      Specification.entries (first ++ separator.text ++ second).toList =
        Specification.entries first.toList ++ Specification.entries second.toList := by
    rw [Text.toList_append, Text.toList_append, List.append_assoc,
      Specification.entries_joined]
  refine ⟨fun references => ?_, fun error refused => ?_, fun other => ?_, fun gap blank other => ?_⟩
  · rw [parse_ok_iff, joined, readsAll_append]
    simp only [parse_ok_iff]
  · rw [Specification.parse, joined]
    exact readEntries_of_refusesFirst ((parse_eq_error refused).append _)
  · exact parse_congr (by rw [joined, joined])
  · have none := Specification.entries_gap blank
    refine ⟨parse_congr ?_, parse_congr ?_, parse_congr ?_⟩
    · rw [joined, none, List.append_nil]
    · rw [joined, none, List.nil_append]
    · rw [joined, joined, none, List.append_nil, joined]

/-- A feed behind a return that ends the first text makes one separator of both. -/
theorem specifications_compose_at_return :
    Specification.parse ("p/a:A,\r" ++ "\n" ++ "\n p/b:B") = .ok [⟨"p/a", "A"⟩, ⟨"p/b", "B"⟩] ∧
      Specification.parse ("p/a:\r" ++ "\n" ++ "p/b:1") = .error (.emptyOutput "p/a:") :=
  ⟨((specifications_compose "p/a:A,\r" "\n p/b:B" .lineFeed).1 _).mpr
      ⟨[⟨"p/a", "A"⟩], [⟨"p/b", "B"⟩], by decide +kernel, by decide +kernel,
        by simp [outputsOf], rfl⟩,
    (specifications_compose "p/a:\r" "p/b:1" .lineFeed).2.1 _ (by decide +kernel)⟩

/-! ### References written out -/

/-- A reference as an entry leaves it: a locator that is trimmed and not empty, and an identifier.
-/
structure Reference.Printable (reference : Reference) : Prop where
  filled : reference.locator ≠ ""
  trimmed : Trims isBlank reference.locator.toList reference.locator.toList
  named : Identifier reference.output.toList

namespace Specification

structure Printable (references : List Reference) : Prop where
  each : ∀ reference ∈ references, reference.Printable
  free : ∀ reference ∈ references, ∀ character ∈ reference.locator.toList,
    separates character = false
  distinct : (outputsOf references).Nodup

def print (separator : Separator) (references : List Reference) : Text :=
  separator.text.intercalate (references.map Reference.text)

end Specification

variable {entry : List Code} {reference : Reference}

theorem Reference.toList_text (reference : Reference) :
    reference.text.toList = reference.locator.toList ++ Code.char ':' :: reference.output.toList := by
  simp [Reference.text, Text.toList_append]

theorem plain_of_keyCharacter {character : Code} (key : KeyCharacter character) :
    isBlank character = false ∧ Specification.separates character = false ∧ character ≠ ':' := by
  have codes : 48 ≤ character.toNat ∧ character.toNat ≤ 122 ∧ character.toNat ≠ 58 := by
    simp only [KeyCharacter, KeyStart, Code.le_iff_toNat, Code.toNat, Char.reduceToNat] at key ⊢
    rcases key with (⟨low, high⟩ | ⟨low, high⟩ | rfl) | ⟨low, high⟩
    · omega
    · omega
    · decide
    · omega
  -- The codes between 48 and 122 hold no blank, and of the separators and the colon only the colon.
  refine ⟨?_, ?_, ?_⟩
  · simp only [isBlank, isWhiteSpace, Bool.or_eq_false_iff, Bool.and_eq_false_iff,
      decide_eq_false_iff_not, beq_eq_false_iff_ne]
    omega
  · have other : character ≠ '\n' ∧ character ≠ '\r' ∧ character ≠ ',' := by
      refine ⟨?_, ?_, ?_⟩ <;> rintro rfl <;> simp [Code.toNat] at codes
    simp [Specification.separates, isBreak, other]
  · rintro rfl
    simp [Code.toNat] at codes

theorem Identifier.plain {key : List Code} (identifier : Identifier key) : ∀ character ∈ key,
    isBlank character = false ∧ Specification.separates character = false ∧ character ≠ ':' := by
  obtain ⟨first, rest, rfl, start, others⟩ := identifier
  refine List.forall_mem_cons.mpr ⟨plain_of_keyCharacter (.inl start), fun character member => ?_⟩
  exact plain_of_keyCharacter (others character member)

namespace Reference.Printable

theorem trims (printable : reference.Printable) :
    Trims isBlank reference.text.toList reference.text.toList := by
  have behind : ∀ character ∈ Code.char ':' :: reference.output.toList, isBlank character = false :=
    List.forall_mem_cons.mpr
      ⟨by decide, fun character member => (printable.named.plain character member).1⟩
  have located : reference.locator.toList ≠ [] := mt Text.toList_eq_nil_iff.mp printable.filled
  -- Trimming stops at the locator in front and at the output, or the colon, behind.
  rw [toList_text]
  refine ((trimsEnd_of_absent behind).append fun empty => ?_).trims fun first rest same => ?_
  · exact absurd empty (List.cons_ne_nil _ _)
  · obtain ⟨head, tail, opens⟩ := List.exists_cons_of_ne_nil located
    rw [opens, List.cons_append] at same
    cases same
    exact printable.trimmed.opens first tail opens

theorem reads (printable : reference.Printable) : Reads reference.text.toList reference := by
  have plain := printable.named.plain
  have output : Trims isBlank reference.output.toList reference.output.toList :=
    (trimsEnd_of_absent fun character member => (plain character member).1).trims
      fun first rest same => (plain first (by simp [same])).1
  exact ⟨_, _, ⟨toList_text reference, fun colon => (plain ':' colon).2.2 rfl⟩, printable.trimmed,
    output, printable.filled, printable.named⟩

theorem parse_text (printable : reference.Printable) :
    Reference.parse reference.text = .ok reference := by
  have same : trim reference.text.toList = reference.text.toList := printable.trims.eq_strip.symm
  rw [Reference.parse, same]
  exact ofTrimmed_of_reads printable.reads

end Reference.Printable

theorem Reads.printable (reads : Reads entry reference) : reference.Printable := by
  obtain ⟨before, after, -, trims, trims', filled, named⟩ := reads
  exact ⟨filled, trims.again, named⟩

theorem printable_of_parse {text : Text} (read : Reference.parse text = .ok reference) :
    reference.Printable :=
  (ofTrimmed_eq_ok.mp read).printable

namespace Specification.Printable

theorem entries_print (printable : Specification.Printable references) (separator : Separator) :
    entries (print separator references).toList = references.map fun reference =>
      reference.text.toList := by
  have alone : ∀ reference ∈ references,
      entries reference.text.toList = [reference.text.toList] := by
    intro reference member
    have one := printable.each reference member
    refine entries_alone one.trims ?_ ?_
    · simp [Reference.toList_text]
    · rw [Reference.toList_text]
      refine List.forall_mem_append.mpr ⟨printable.free reference member, ?_⟩
      refine List.forall_mem_cons.mpr ⟨by decide, fun character inside => ?_⟩
      exact (one.named.plain character inside).2.1
  -- No text has a separator inside, so the joined text has their entries, and each is its own.
  rw [Specification.print, Text.toList_intercalate, entries_intercalate, List.map_map,
    List.flatMap_map]
  exact (List.flatMap_congr alone).trans (List.flatMap_pure_eq_map _ _)

theorem parse_print (printable : Specification.Printable references) (separator : Separator) :
    parse (print separator references) = .ok references := by
  rw [parse_ok_iff, printable.entries_print separator]
  refine ⟨?_, printable.distinct⟩
  rw [List.forall₂_map_left_iff, List.forall₂_same]
  exact fun reference member => (printable.each reference member).reads

end Specification.Printable

theorem printable_of_forall₂ (reads : List.Forall₂ Reads earlier references) :
    ∀ reference ∈ references, reference.Printable := by
  induction reads with
  | nil => exact List.forall_mem_nil _
  | cons here _ ih => exact List.forall_mem_cons.mpr ⟨here.printable, ih⟩

theorem printable_of_read {raw : Text} (read : Specification.parse raw = .ok references) :
    Specification.Printable references := by
  obtain ⟨reads, distinct⟩ := parse_eq_ok read
  have placed := placed_of_reads reads (free_of_lists (lists_iff.mpr rfl))
  exact ⟨printable_of_forall₂ reads, fun reference member => (placed reference member).free, distinct⟩

/-- What was read once is read again from its text: the references of a specification in any joined
form, and the reference of an entry by itself, which may hold separators. It is just the references
with a trimmed locator and an identifier that are ever read, in a specification with no separator
inside and no output twice. -/
theorem printing_undoes_parsing :
    (∀ raw references, Specification.parse raw = .ok references → ∀ separator,
      Specification.parse (Specification.print separator references) = .ok references) ∧
      (∀ entry reference, Reference.parse entry = .ok reference →
        Reference.parse reference.text = .ok reference) ∧
      (∀ references, (∃ raw, Specification.parse raw = .ok references) ↔
        Specification.Printable references) ∧
      ∀ reference, (∃ entry, Reference.parse entry = .ok reference) ↔ reference.Printable := by
  refine ⟨fun raw references read => ?_, fun entry reference read => ?_, fun references => ?_,
    fun reference => ?_⟩
  · exact (printable_of_read read).parse_print
  · exact (printable_of_parse read).parse_text
  · constructor
    · rintro ⟨raw, read⟩
      exact printable_of_read read
    · exact fun printable => ⟨_, printable.parse_print .comma⟩
  · constructor
    · rintro ⟨entry, read⟩
      exact printable_of_parse read
    · exact fun printable => ⟨_, printable.parse_text⟩

theorem printing_undoes_parsing_of_colons :
    Specification.parse (Specification.print .returnAndFeed [⟨"p/a", "A"⟩, ⟨"db:3/b", "B_2"⟩]) =
        .ok [⟨"p/a", "A"⟩, ⟨"db:3/b", "B_2"⟩] ∧
      Reference.parse "a,b\r\n:c:K" = .ok ⟨"a,b\r\n:c", "K"⟩ :=
  ⟨printing_undoes_parsing.1 "p/a : A,\r\n ,db:3/b:B_2 \r" _ (by decide +kernel) .returnAndFeed,
    printing_undoes_parsing.2.1 " a,b\r\n:c : K\n" ⟨"a,b\r\n:c", "K"⟩ (by decide +kernel)⟩

end SecretFill
