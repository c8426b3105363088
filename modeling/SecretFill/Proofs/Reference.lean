import Mathlib.Data.List.Forall2
import Mathlib.Data.List.Induction
import Mathlib.Data.List.Nodup
import SecretFill.Proofs.Text.Division
import SecretFill.Proofs.Text.Trimming
import SecretFill.Reference
/-!
The grammar of specifications. Between separators stand entries; each has a locator before its last
colon and an output behind it, both trimmed, and no two entries have the same output. A
specification is read if it follows this grammar, and otherwise its first entry that does not is
what is reported.
-/

namespace SecretFill

open SecretFill.Text

def KeyStart (character : Code) : Prop :=
  'A' ≤ character ∧ character ≤ 'Z' ∨ 'a' ≤ character ∧ character ≤ 'z' ∨ character = '_'

def KeyCharacter (character : Code) : Prop :=
  KeyStart character ∨ '0' ≤ character ∧ character ≤ '9'

def Identifier (text : List Code) : Prop :=
  ∃ first rest, text = first :: rest ∧ KeyStart first ∧ ∀ character ∈ rest, KeyCharacter character

theorem isAlpha_iff (character : Code) : character.isAlpha = true ↔
    ('A' ≤ character ∧ character ≤ 'Z') ∨ 'a' ≤ character ∧ character ≤ 'z' :=
  have isUpper : character.isUpper = true ↔ 'A' ≤ character ∧ character ≤ 'Z' :=
    Bool.and_eq_true_iff.trans (and_congr decide_eq_true_iff decide_eq_true_iff)
  have isLower : character.isLower = true ↔ 'a' ≤ character ∧ character ≤ 'z' :=
    Bool.and_eq_true_iff.trans (and_congr decide_eq_true_iff decide_eq_true_iff)
  Bool.or_eq_true_iff.trans (or_congr isUpper isLower)

theorem isDigit_iff (character : Code) :
    character.isDigit = true ↔ '0' ≤ character ∧ character ≤ '9' :=
  Bool.and_eq_true_iff.trans (and_congr decide_eq_true_iff decide_eq_true_iff)

theorem isKeyStart_iff (character : Code) : isKeyStart character = true ↔ KeyStart character := by
  rw [isKeyStart, KeyStart, Bool.or_eq_true, isAlpha_iff, beq_iff_eq, or_assoc]

theorem isKeyCharacter_iff (character : Code) :
    isKeyCharacter character = true ↔ KeyCharacter character := by
  have isAlphanum :
      character.isAlphanum = true ↔ character.isAlpha = true ∨ character.isDigit = true :=
    Bool.or_eq_true_iff
  rw [isKeyCharacter, KeyCharacter, KeyStart, Bool.or_eq_true, isAlphanum, isAlpha_iff,
    isDigit_iff, beq_iff_eq]
  tauto

theorem isKey_iff (text : List Code) : isKey text = true ↔ Identifier text := by
  cases text with
  | nil => simp [isKey, Identifier]
  | cons first rest =>
      simp only [isKey, Bool.and_eq_true, List.all_eq_true, isKeyStart_iff, isKeyCharacter_iff]
      constructor
      · rintro ⟨start, others⟩
        exact ⟨first, rest, rfl, start, others⟩
      · rintro ⟨_, _, same, start, others⟩
        cases same
        exact ⟨start, others⟩

/-! ### One entry -/

/-- The last colon of an entry stands between two texts. -/
def Parted (entry before after : List Code) : Prop :=
  entry = before ++ Code.char ':' :: after ∧ Code.char ':' ∉ after

def Reads (entry : List Code) (reference : Reference) : Prop :=
  ∃ before after, Parted entry before after ∧ Trims isBlank before reference.locator.toList ∧
    Trims isBlank after reference.output.toList ∧ reference.locator ≠ "" ∧
    Identifier reference.output.toList

inductive Faulty (entry : List Code) : ReferenceError → Prop
  | noColon (absent : Code.char ':' ∉ entry) : Faulty entry (.missingOutput (Text.ofList entry))
  | noOutput {before after : List Code} (parted : Parted entry before after)
      (blank : Trims isBlank after []) : Faulty entry (.emptyOutput (Text.ofList entry))
  | noLocator {before after output : List Code} (parted : Parted entry before after)
      (trims : Trims isBlank after output) (filled : output ≠ [])
      (blank : Trims isBlank before []) : Faulty entry (.emptyLocator (Text.ofList entry))
  | noIdentifier {before after locator output : List Code} (parted : Parted entry before after)
      (trims : Trims isBlank after output) (filled : output ≠ [])
      (trims' : Trims isBlank before locator) (filled' : locator ≠ [])
      (other : ¬ Identifier output) :
      Faulty entry (.invalidOutput (Text.ofList entry) (Text.ofList output))

/-- Why an entry is refused behind entries with the outputs `seen`. -/
inductive Refuses (seen : List Text) (entry : List Code) : ReferenceError → Prop
  | faulty {error : ReferenceError} (fault : Faulty entry error) : Refuses seen entry error
  | repeated {reference : Reference} (reads : Reads entry reference)
      (again : reference.output ∈ seen) :
      Refuses seen entry (.duplicateOutput (Text.ofList entry) reference.output)

variable {entry before after : List Code} {reference : Reference} {error : ReferenceError}

theorem Parted.cutLast (parted : Parted entry before after) :
    cutLast ':' entry = some (before, after) := by
  obtain ⟨rfl, absent⟩ := parted
  exact cutLast_append absent before

theorem ofTrimmed_of_parted (parted : Parted entry before after) {locator output : List Code}
    (trims : Trims isBlank before locator) (trims' : Trims isBlank after output) :
    Reference.ofTrimmed entry =
      if output.isEmpty then .error (.emptyOutput (Text.ofList entry))
      else if locator.isEmpty then .error (.emptyLocator (Text.ofList entry))
      else if isKey output then .ok ⟨Text.ofList locator, Text.ofList output⟩
      else .error (.invalidOutput (Text.ofList entry) (Text.ofList output)) := by
  rw [Reference.ofTrimmed, parted.cutLast, trims.eq_strip, trims'.eq_strip]
  rfl

theorem isEmpty_of_filled {text : List Code} (filled : text ≠ []) : ¬ text.isEmpty = true :=
  fun empty => filled (List.isEmpty_iff.mp empty)

theorem ofTrimmed_of_reads (reads : Reads entry reference) :
    Reference.ofTrimmed entry = .ok reference := by
  obtain ⟨before, after, parted, trims, trims', filled, identifier⟩ := reads
  have named : reference.output.toList ≠ [] := by
    obtain ⟨_, _, same, -⟩ := identifier
    simp [same]
  have located : reference.locator.toList ≠ [] := fun empty => filled (Text.toList_inj.mp empty)
  rw [ofTrimmed_of_parted parted trims trims', if_neg (isEmpty_of_filled named),
    if_neg (isEmpty_of_filled located), if_pos ((isKey_iff _).mpr identifier),
    Text.ofList_toList, Text.ofList_toList]

theorem ofTrimmed_of_faulty (fault : Faulty entry error) :
    Reference.ofTrimmed entry = .error error := by
  cases fault with
  | noColon absent => rw [Reference.ofTrimmed, cutLast_of_absent absent]
  | noOutput parted blank =>
      rw [ofTrimmed_of_parted parted (trims_strip _ _) blank]
      rfl
  | noLocator parted trims filled blank =>
      rw [ofTrimmed_of_parted parted blank trims, if_neg (isEmpty_of_filled filled)]
      rfl
  | noIdentifier parted trims filled trims' filled' other =>
      rw [ofTrimmed_of_parted parted trims' trims, if_neg (isEmpty_of_filled filled),
        if_neg (isEmpty_of_filled filled'), if_neg (mt (isKey_iff _).mp other)]

theorem reads_or_faulty (entry : List Code) :
    (∃ reference, Reads entry reference) ∨ ∃ error, Faulty entry error := by
  by_cases colon : Code.char ':' ∈ entry
  · obtain ⟨before, after, same, absent⟩ := exists_last colon
    have parted : Parted entry before after := ⟨same, absent⟩
    have trims := trims_strip isBlank before
    have trims' := trims_strip isBlank after
    generalize strip isBlank before = locator at trims
    generalize strip isBlank after = output at trims'
    by_cases filled : output = []
    · subst filled
      exact .inr ⟨_, .noOutput parted trims'⟩
    · by_cases filled' : locator = []
      · subst filled'
        exact .inr ⟨_, .noLocator parted trims' filled trims⟩
      · by_cases identifier : Identifier output
        · refine .inl ⟨⟨Text.ofList locator, Text.ofList output⟩, before, after, parted, ?_⟩
          simpa [identifier, trims, trims'] using filled'
        · exact .inr ⟨_, .noIdentifier parted trims' filled trims filled' identifier⟩
  · exact .inr ⟨_, .noColon colon⟩

theorem ofTrimmed_eq_ok : Reference.ofTrimmed entry = .ok reference ↔ Reads entry reference := by
  constructor
  · intro read
    rcases reads_or_faulty entry with ⟨other, reads⟩ | ⟨error, fault⟩
    · cases read.symm.trans (ofTrimmed_of_reads reads)
      exact reads
    · cases read.symm.trans (ofTrimmed_of_faulty fault)
  · exact ofTrimmed_of_reads

theorem Faulty.entry_eq (fault : Faulty entry error) : error.entry = Text.ofList entry := by
  cases fault <;> rfl

/-! ### All entries -/

/-- The entries of a specification: its pieces between separators, the blank ones left out and the
others trimmed. -/
def Lists (raw : List Code) (entries : List (List Code)) : Prop :=
  ∃ cut, Divides Specification.separates raw cut ∧
    List.Forall₂ (Trims isBlank) (cut.filter fun piece => piece.any fun character =>
      !isBlank character) entries

def outputsOf (references : List Reference) : List Text := references.map Reference.output

theorem isEmpty_trim (piece : List Code) :
    (!(trim piece).isEmpty) = piece.any fun character => !isBlank character := by
  have trims := trims_strip isBlank piece
  cases blank : piece.any fun character => !isBlank character with
  | false =>
      have all : ∀ character ∈ piece, isBlank character = true := by simpa using blank
      have nothing := dropWhile_of_all all
      rw [trim, strip, nothing]
      rfl
  | true =>
      obtain ⟨character, member, solid⟩ := List.any_eq_true.mp blank
      have filled : trim piece ≠ [] := by
        intro nothing
        obtain ⟨before, after, same, gone, gone'⟩ := trims.around
        rw [show strip isBlank piece = [] from nothing, List.nil_append] at same
        subst same
        rcases List.mem_append.mp member with early | late
        · simp [gone character early] at solid
        · simp [gone' character late] at solid
      simpa using filled

theorem forall₂_trims_iff {cut kept : List (List Code)} :
    List.Forall₂ (Trims isBlank) cut kept ↔ kept = cut.map trim := by
  have trimming : Trims isBlank = fun text kept => trim text = kept := by
    funext text kept
    exact propext (trims_iff.trans eq_comm)
  rw [trimming, ← List.forall₂_map_left_iff (R := (· = ·)), List.forall₂_eq_eq_eq, eq_comm]

theorem entries_eq (raw : List Code) : Specification.entries raw =
    ((pieces Specification.separates raw).filter fun piece => piece.any fun character =>
      !isBlank character).map trim := by
  rw [Specification.entries, List.filter_map]
  refine congrArg (List.map trim) (List.filter_congr fun piece _ => ?_)
  rw [Function.comp_apply, isEmpty_trim]

theorem lists_iff {raw : List Code} {entries : List (List Code)} :
    Lists raw entries ↔ entries = Specification.entries raw := by
  rw [entries_eq]
  constructor
  · rintro ⟨cut, division, trims⟩
    rw [← division.eq_pieces, forall₂_trims_iff.mp trims]
  · intro same
    exact ⟨_, divides_pieces _ raw, forall₂_trims_iff.mpr same⟩

variable {seen : List Text} {entries : List (List Code)} {references : List Reference}

theorem readEntries_cons (rest : List (List Code)) (reads : Reads entry reference)
    (fresh : reference.output ∉ seen) :
    Specification.readEntries seen (entry :: rest) =
      (Specification.readEntries (reference.output :: seen) rest).map (reference :: ·) := by
  rw [Specification.readEntries, ofTrimmed_of_reads reads]
  simp only [if_neg fresh]
  cases Specification.readEntries (reference.output :: seen) rest <;> rfl

theorem readEntries_refused (rest : List (List Code)) (refuses : Refuses seen entry error) :
    Specification.readEntries seen (entry :: rest) = .error error := by
  rw [Specification.readEntries]
  cases refuses with
  | faulty fault => rw [ofTrimmed_of_faulty fault]
  | repeated reads again =>
      rw [ofTrimmed_of_reads reads]
      exact if_pos again

/-- Entries are read, with outputs that are new, up to the first one that is refused. -/
theorem readEntries_append {before : List (List Code)} (reads : List.Forall₂ Reads before references)
    (distinct : (outputsOf references).Nodup) (fresh : ∀ output ∈ outputsOf references, output ∉ seen)
    (rest : List (List Code)) :
    Specification.readEntries seen (before ++ rest) =
      (Specification.readEntries ((outputsOf references).reverse ++ seen) rest).map
        (references ++ ·) := by
  induction reads generalizing seen with
  | nil =>
      show Specification.readEntries seen rest = (Specification.readEntries seen rest).map ([] ++ ·)
      cases Specification.readEntries seen rest <;> rfl
  | @cons entry reference before references first _ ih =>
      obtain ⟨absent, distinct⟩ := List.nodup_cons.mp distinct
      obtain ⟨here, later⟩ := List.forall_mem_cons.mp fresh
      have fresh : ∀ output ∈ outputsOf references, output ∉ reference.output :: seen := by
        intro output member
        rw [List.mem_cons, not_or]
        refine ⟨?_, later output member⟩
        rintro rfl
        exact absent member
      have onward := ih distinct fresh
      have past : (outputsOf (reference :: references)).reverse ++ seen =
          (outputsOf references).reverse ++ reference.output :: seen := by simp [outputsOf]
      rw [List.cons_append, readEntries_cons _ first here, onward, past]
      cases Specification.readEntries ((outputsOf references).reverse ++ reference.output :: seen)
        rest <;> rfl

def ReadsAll (entries : List (List Code)) (references : List Reference) : Prop :=
  List.Forall₂ Reads entries references ∧ (outputsOf references).Nodup

/-- The first entry that cannot be read behind those before it is refused and named. -/
def RefusesFirst (entries : List (List Code)) (error : ReferenceError) : Prop :=
  ∃ before entry after earlier, entries = before ++ entry :: after ∧ ReadsAll before earlier ∧
    Refuses (outputsOf earlier) entry error ∧ error.entry = Text.ofList entry

theorem Refuses.congr {other : List Text} (refuses : Refuses seen entry error)
    (same : ∀ output, output ∈ seen ↔ output ∈ other) : Refuses other entry error := by
  cases refuses with
  | faulty fault => exact .faulty fault
  | repeated reads again => exact .repeated reads ((same _).mp again)

theorem readsAll_or_refusesFirst (entries : List (List Code)) :
    (∃ references, ReadsAll entries references) ∨ ∃ error, RefusesFirst entries error := by
  induction entries using List.reverseRecOn with
  | nil => exact .inl ⟨[], .nil, List.nodup_nil⟩
  | append_singleton before entry ih =>
      rcases ih with ⟨earlier, reads, distinct⟩ | ⟨error, early, bad, late, passed, rfl, rest⟩
      · rcases reads_or_faulty entry with ⟨reference, last⟩ | ⟨error, fault⟩
        · by_cases again : reference.output ∈ outputsOf earlier
          · exact .inr ⟨_, before, entry, [], earlier, rfl, ⟨reads, distinct⟩, .repeated last again,
              rfl⟩
          · refine .inl ⟨earlier ++ [reference], ?_, ?_⟩
            · exact List.rel_append reads (.cons last .nil)
            · rw [outputsOf, List.map_append]
              refine List.nodup_append.mpr ⟨distinct, List.nodup_singleton _, ?_⟩
              rintro output member _ alone rfl
              exact again (List.mem_singleton.mp alone ▸ member)
        · exact .inr ⟨error, before, entry, [], earlier, rfl, ⟨reads, distinct⟩, .faulty fault,
            fault.entry_eq⟩
      · exact .inr ⟨error, early, bad, late ++ [entry], passed, by simp, rest⟩

theorem readEntries_of_readsAll (reads : ReadsAll entries references) :
    Specification.readEntries [] entries = .ok references := by
  have whole := readEntries_append reads.1 reads.2 (fun _ _ => List.not_mem_nil) []
  simpa [Specification.readEntries, Except.map] using whole

theorem readEntries_of_refusesFirst (refuses : RefusesFirst entries error) :
    Specification.readEntries [] entries = .error error := by
  obtain ⟨before, entry, after, earlier, rfl, reads, refused, -⟩ := refuses
  have behind : Refuses ((outputsOf earlier).reverse ++ []) entry error := refused.congr (by simp)
  rw [readEntries_append reads.1 reads.2 (fun _ _ => List.not_mem_nil),
    readEntries_refused after behind]
  rfl

theorem parse_eq_ok {raw : Text} (read : Specification.parse raw = .ok references) :
    ReadsAll (Specification.entries raw.toList) references := by
  rcases readsAll_or_refusesFirst (Specification.entries raw.toList) with ⟨_, reads⟩ | ⟨_, refuses⟩
  · cases read.symm.trans (readEntries_of_readsAll reads)
    exact reads
  · cases read.symm.trans (readEntries_of_refusesFirst refuses)

theorem parse_eq_error {raw : Text} (failed : Specification.parse raw = .error error) :
    RefusesFirst (Specification.entries raw.toList) error := by
  rcases readsAll_or_refusesFirst (Specification.entries raw.toList) with ⟨_, reads⟩ | ⟨_, refuses⟩
  · cases failed.symm.trans (readEntries_of_readsAll reads)
  · cases failed.symm.trans (readEntries_of_refusesFirst refuses)
    exact refuses

theorem outputs_nodup {secrets : Text} {references : List Reference}
    (parsed : Specification.parse secrets = .ok references) :
    (references.map Reference.output).Nodup :=
  (parse_eq_ok parsed).2

/-! ### Locators -/

/-- A locator that can stand in a specification: trimmed, not empty, and without a separator. -/
structure Placed (locator : Text) : Prop where
  filled : locator ≠ ""
  trimmed : Trims isBlank locator.toList locator.toList
  free : ∀ character ∈ locator.toList, Specification.separates character = false

theorem free_of_lists {raw : List Code} (lists : Lists raw entries) :
    ∀ entry ∈ entries, ∀ character ∈ entry, Specification.separates character = false := by
  intro entry member character inside
  rw [lists_iff.mp lists] at member
  obtain ⟨piece, here, rfl⟩ := List.mem_map.mp (List.mem_filter.mp member).1
  exact (divides_pieces _ raw).free piece here character ((trims_strip _ _).subset inside)

theorem Reads.placed (reads : Reads entry reference)
    (free : ∀ character ∈ entry, Specification.separates character = false) :
    Placed reference.locator := by
  obtain ⟨before, after, ⟨rfl, -⟩, trims, -, filled, -⟩ := reads
  refine ⟨filled, trims.again, fun character member => ?_⟩
  exact free character (List.mem_append_left _ (trims.subset member))

theorem placed_of_reads (reads : List.Forall₂ Reads entries references)
    (free : ∀ entry ∈ entries, ∀ character ∈ entry, Specification.separates character = false) :
    ∀ reference ∈ references, Placed reference.locator := by
  induction reads with
  | nil => exact List.forall_mem_nil _
  | cons first _ ih =>
      obtain ⟨here, later⟩ := List.forall_mem_cons.mp free
      exact List.forall_mem_cons.mpr ⟨first.placed here, ih later⟩

/-- A specification is read just when its entries follow the grammar, and then as the references
that they stand for, in order. Otherwise the first entry that does not is refused, for the first
reason that applies: no colon, no output or no locator, an output that is no identifier, or the
output of an entry before it. -/
theorem parse_follows_grammar (raw : Text) :
    ∃ entries, (∀ other, Lists raw.toList other ↔ other = entries) ∧
      (∀ references, Specification.parse raw = .ok references ↔ ReadsAll entries references) ∧
      (∀ error, Specification.parse raw = .error error ↔ RefusesFirst entries error) ∧
      ∀ references, Specification.parse raw = .ok references →
        ∀ reference ∈ references, Placed reference.locator := by
  refine ⟨Specification.entries raw.toList, fun _ => lists_iff, fun references => ?_, fun error => ?_,
    fun references read => ?_⟩
  · constructor
    · exact parse_eq_ok
    · exact readEntries_of_readsAll
  · constructor
    · exact parse_eq_error
    · exact readEntries_of_refusesFirst
  · exact placed_of_reads (parse_eq_ok read).1 (free_of_lists (lists_iff.mpr rfl))

example : Specification.parse "p/a : A,\r\n ,db:3/b:B_2 \r" =
    .ok [⟨"p/a", "A"⟩, ⟨"db:3/b", "B_2"⟩] := by decide +kernel

end SecretFill
