import Mathlib.Data.List.Nodup
import SecretFill.Proofs.Text.Replacement
import SecretFill.Workflow.Escape
/-!
Escapes undone. Whoever reads a command replaces one escape after the other by its character, the
percent sign last. Since every percent sign of an escaped text begins an escape, no replacement
finds anything but the escapes of its own character, and the text comes back.
-/

namespace SecretFill.Workflow

open SecretFill.Text

structure Escape where
  plain : Code
  first : Code
  second : Code
  deriving DecidableEq, Repr

def Escape.written (escape : Escape) : List Code := [Code.char '%', escape.first, escape.second]

def dataEscapes : List Escape := [⟨'\r', '0', 'D'⟩, ⟨'\n', '0', 'A'⟩, ⟨'%', '2', '5'⟩]

def propertyEscapes : List Escape :=
  [⟨'\r', '0', 'D'⟩, ⟨'\n', '0', 'A'⟩, ⟨':', '3', 'A'⟩, ⟨',', '2', 'C'⟩, ⟨'%', '2', '5'⟩]

def shown : List Escape → Code → List Code
  | [], character => [character]
  | escape :: rest, character =>
      if character = escape.plain then escape.written else shown rest character

/-- Replaces the escapes by their characters, one escape after the other. -/
def undo (table : List Escape) (text : List Code) : List Code :=
  table.foldl (fun text escape => replacing escape.written [escape.plain] text) text

def unescapeData (text : List Code) : List Code := undo dataEscapes text

def unescapeProperty (text : List Code) : List Code := undo propertyEscapes text

theorem shown_dataEscapes : shown dataEscapes = dataCharacter := by
  funext character
  by_cases percent : character = '%'
  · subst percent
    rfl
  · simp only [shown, dataEscapes, dataCharacter, if_neg percent, Escape.written]

theorem shown_propertyEscapes : shown propertyEscapes = propertyCharacter := by
  funext character
  by_cases colon : character = ':'
  · subst colon
    rfl
  · by_cases comma : character = ','
    · subst comma
      rfl
    · have data := congrFun shown_dataEscapes character
      simp only [propertyCharacter, if_neg colon, if_neg comma, ← data, shown, propertyEscapes,
        dataEscapes]

/-- A table whose escapes are told apart, the one of the percent sign being undone last. -/
def Undoable (table : List Escape) : Prop :=
  (∀ escape ∈ table, escape.first ≠ '%' ∧ escape.second ≠ '%') ∧
    (table.map Escape.plain).Nodup ∧ (table.map Escape.written).Nodup ∧
    table.getLast?.map Escape.plain = some '%'

instance (table : List Escape) : Decidable (Undoable table) :=
  inferInstanceAs (Decidable (_ ∧ _))

theorem shown_cases (table : List Escape) (character : Code) :
    (character ∉ table.map Escape.plain ∧ shown table character = [character]) ∨
      ∃ escape ∈ table, escape.plain = character ∧ shown table character = escape.written := by
  induction table with
  | nil => exact .inl ⟨List.not_mem_nil, rfl⟩
  | cons first rest ih =>
      by_cases here : character = first.plain
      · exact .inr ⟨first, List.mem_cons_self, here.symm, if_pos here⟩
      · rw [shown, if_neg here]
        rcases ih with ⟨absent, same⟩ | ⟨escape, member, plain, same⟩
        · refine .inl ⟨?_, same⟩
          rw [List.map_cons, List.mem_cons]
          rintro (equal | later)
          · exact here equal
          · exact absent later
        · exact .inr ⟨escape, List.mem_cons_of_mem _ member, plain, same⟩

theorem replacing_other {character : Code} (escape : Escape) (text : List Code)
    (other : character ≠ '%') :
    replacing escape.written [escape.plain] (character :: text) =
      character :: replacing escape.written [escape.plain] text := by
  apply replaceAll_cons
  intro starts
  exact other (List.cons_prefix_cons.mp starts).1.symm

theorem replacing_written {escape other : Escape} (text : List Code)
    (free : other.first ≠ '%' ∧ other.second ≠ '%') (apart : other.written ≠ escape.written) :
    replacing escape.written [escape.plain] (other.written ++ text) =
      other.written ++ replacing escape.written [escape.plain] text := by
  have missing : ¬ escape.written <+: Code.char '%' :: other.first :: other.second :: text := by
    intro starts
    have same := List.prefix_iff_eq_take.mp starts
    exact apart same.symm
  calc replacing escape.written [escape.plain] (other.written ++ text)
      = Code.char '%' :: replacing escape.written [escape.plain] (other.first :: other.second :: text) :=
        replaceAll_cons [escape.plain] missing
    _ = other.written ++ replacing escape.written [escape.plain] text := by
        rw [replacing_other escape _ free.1, replacing_other escape _ free.2]
        rfl

/-- An escape that is not shown is not found either: every percent sign begins an escape that is. -/
theorem replacing_shown_append {escape : Escape} {table : List Escape} {character : Code}
    (free : ∀ other ∈ table, other.first ≠ '%' ∧ other.second ≠ '%')
    (apart : escape.written ∉ table.map Escape.written)
    (escaped : character = '%' → character ∈ table.map Escape.plain) (text : List Code) :
    replacing escape.written [escape.plain] (shown table character ++ text) =
      shown table character ++ replacing escape.written [escape.plain] text := by
  rcases shown_cases table character with ⟨absent, same⟩ | ⟨other, member, _, same⟩
  · have common : character ≠ '%' := fun percent => absent (escaped percent)
    rw [same, List.singleton_append, List.singleton_append, replacing_other _ _ common]
  · have unlike : other.written ≠ escape.written :=
      fun equal => apart (equal ▸ List.mem_map_of_mem member)
    rw [same, replacing_written _ (free other member) unlike]

theorem Undoable.percent {table : List Escape} (undoable : Undoable table) :
    Code.char '%' ∈ table.map Escape.plain := by
  rcases Option.map_eq_some_iff.mp undoable.2.2.2 with ⟨final, found, plain⟩
  exact List.mem_map.mpr ⟨final, List.mem_of_getLast? found, plain⟩

theorem replacing_shown {escape : Escape} {rest : List Escape} (undoable : Undoable (escape :: rest))
    (text : List Code) :
    replacing escape.written [escape.plain] (text.flatMap (shown (escape :: rest))) =
      text.flatMap (shown rest) := by
  have percent := undoable.percent
  rcases undoable with ⟨free, plains, written, _⟩
  -- Along the text: a character is the one of this escape, or it is shown as without this escape.
  induction text with
  | nil => simp [replacing, Escape.written, replaceAll]
  | cons character text ih =>
      rw [List.flatMap_cons, List.flatMap_cons]
      by_cases here : character = escape.plain
      · have once : shown rest character = [character] := by
          rcases shown_cases rest character with ⟨_, same⟩ | ⟨other, member, plain, _⟩
          · exact same
          · have twice := List.mem_map_of_mem (f := Escape.plain) member
            rw [plain, here] at twice
            exact absurd twice (List.nodup_cons.mp plains).1
        rw [shown, if_pos here, once, here, ← ih]
        exact replaceAll_append _ _ _ _
      · have escaped : character = '%' → character ∈ rest.map Escape.plain := by
          rintro rfl
          exact (List.mem_cons.mp percent).resolve_left here
        rw [shown, if_neg here,
          replacing_shown_append (fun other member => free other (List.mem_cons_of_mem _ member))
            (List.nodup_cons.mp written).1 escaped, ih]

theorem replacing_shown_of_absent {escape : Escape} {table : List Escape}
    (undoable : Undoable table) (apart : escape.written ∉ table.map Escape.written)
    (text : List Code) :
    replacing escape.written [escape.plain] (text.flatMap (shown table)) =
      text.flatMap (shown table) := by
  induction text with
  | nil => simp [replacing, Escape.written, replaceAll]
  | cons character text ih =>
      rw [List.flatMap_cons, replacing_shown_append undoable.1 apart
        (fun percent => percent ▸ undoable.percent), ih]

theorem Undoable.tail {escape : Escape} {rest : List Escape} (undoable : Undoable (escape :: rest))
    (filled : rest ≠ []) : Undoable rest := by
  rcases undoable with ⟨free, plains, written, last⟩
  rw [List.getLast?_cons_of_ne_nil filled] at last
  exact ⟨fun other member => free other (List.mem_cons_of_mem _ member), plains.of_cons,
    written.of_cons, last⟩

/-- The reader may know more escapes than the writer. The induction is on the table of the reader:
each replacement takes its first escape away, or finds nothing. -/
theorem undo_shown {used table : List Escape} (within : used.Sublist table) (writes : Undoable used)
    (undoable : Undoable table) (text : List Code) :
    undo table (text.flatMap (shown used)) = text := by
  induction within with
  | slnil => cases writes.2.2.2
  | @cons used rest escape within ih =>
      have filled : rest ≠ [] := by
        rintro rfl
        rw [List.sublist_nil.mp within] at writes
        cases writes.2.2.2
      have apart : escape.written ∉ used.map Escape.written := fun member =>
        (List.nodup_cons.mp undoable.2.2.1).1 ((within.map Escape.written).subset member)
      show undo rest (replacing escape.written [escape.plain] _) = text
      rw [replacing_shown_of_absent writes apart]
      exact ih writes (undoable.tail filled)
  | @cons_cons used rest escape within ih =>
      show undo rest (replacing escape.written [escape.plain] _) = text
      rw [replacing_shown writes]
      by_cases last : used = []
      · -- The last escape is the one of the percent sign, which no table has twice.
        subst last
        have percent : escape.plain = '%' := Option.some.inj writes.2.2.2
        have none : rest = [] := by
          by_contra filled
          have twice := (undoable.tail filled).percent
          rw [← percent] at twice
          exact (List.nodup_cons.mp undoable.2.1).1 twice
        subst none
        simp [undo, shown]
      · have filled : rest ≠ [] := by
          rintro rfl
          exact last (List.sublist_nil.mp within)
        exact ih (writes.tail last) (undoable.tail filled)

theorem unescapeData_escapeData (text : List Code) : unescapeData (escapeData text) = text := by
  rw [escapeData, ← shown_dataEscapes]
  exact undo_shown (List.Sublist.refl _) (by decide) (by decide) text

theorem unescapeProperty_escapeProperty (text : List Code) :
    unescapeProperty (escapeProperty text) = text := by
  rw [escapeProperty, ← shown_propertyEscapes]
  exact undo_shown (List.Sublist.refl _) (by decide) (by decide) text

theorem unescapeProperty_escapeData (text : List Code) :
    unescapeProperty (escapeData text) = text := by
  rw [escapeData, ← shown_dataEscapes]
  exact undo_shown (by decide) (by decide) (by decide) text

theorem escapeData_injective : Function.Injective escapeData :=
  Function.LeftInverse.injective unescapeData_escapeData

theorem escapeProperty_injective : Function.Injective escapeProperty :=
  Function.LeftInverse.injective unescapeProperty_escapeProperty

/-! ### One replacement after the other -/

def replaceCharacter (mark : Code) (replacement : List Code) (character : Code) : List Code :=
  if character = mark then replacement else [character]

theorem replacing_character (mark : Code) (replacement text : List Code) :
    replacing [mark] replacement text = text.flatMap (replaceCharacter mark replacement) := by
  induction text with
  | nil => simp [replacing, replaceAll]
  | cons character text ih =>
      rw [List.flatMap_cons, ← ih]
      by_cases here : character = mark
      · subst here
        rw [replaceCharacter, if_pos rfl]
        exact replaceAll_append character [] replacement text
      · rw [replaceCharacter, if_neg here]
        refine replaceAll_cons replacement fun starts => ?_
        exact here (List.cons_prefix_cons.mp starts).1.symm

/-- The percent sign is replaced first, so that the escapes of the others are not escaped again. -/
theorem escapeData_eq_replacing (text : List Code) :
    escapeData text =
      replacing ['\n'] ['%', '0', 'A'] (replacing ['\r'] ['%', '0', 'D']
        (replacing ['%'] ['%', '2', '5'] text)) := by
  simp only [replacing_character, List.flatMap_assoc, escapeData]
  refine List.flatMap_congr fun character _ => ?_
  by_cases percent : character = '%'
  · subst percent
    rfl
  · by_cases back : character = '\r'
    · subst back
      rfl
    · simp [dataCharacter, replaceCharacter, percent, back]

theorem escapeProperty_eq_replacing (text : List Code) :
    escapeProperty text =
      replacing [','] ['%', '2', 'C'] (replacing [':'] ['%', '3', 'A'] (escapeData text)) := by
  simp only [replacing_character, List.flatMap_assoc, escapeData, escapeProperty]
  refine List.flatMap_congr fun character _ => ?_
  by_cases colon : character = ':'
  · subst colon
    rfl
  · by_cases data : character ∈ [Code.char '%', '\r', '\n']
    · simp only [List.mem_cons, List.not_mem_nil, or_false] at data
      rcases data with rfl | rfl | rfl <;> rfl
    · simp only [List.mem_cons, List.not_mem_nil, or_false, not_or] at data
      simp [propertyCharacter, dataCharacter, replaceCharacter, colon, data]

theorem not_mem_shown {table : List Escape} {mark : Code} (escaped : mark ∈ table.map Escape.plain)
    (unused : ∀ escape ∈ table, mark ∉ escape.written) (text : List Code) :
    mark ∉ text.flatMap (shown table) := by
  rw [List.mem_flatMap]
  rintro ⟨character, _, member⟩
  rcases shown_cases table character with ⟨absent, same⟩ | ⟨escape, inside, _, same⟩
  · rw [same] at member
    rw [List.mem_singleton.mp member] at escaped
    exact absent escaped
  · rw [same] at member
    exact unused escape inside member

end SecretFill.Workflow
