import SecretFill.Yaml.Mark
/-!
Cursors over known text. A text is tame if each of its line breaks is one character and no
character is without width; over such a text marks move by rules that look at one character at a
time.
-/

namespace SecretFill.Yaml

/-- No carriage return, which may be half a line break, and no byte order mark. -/
def Tame (text : List Code) : Prop :=
  ∀ character ∈ text, character ≠ '\r' ∧ character ≠ byteOrderMark

theorem tame_nil : Tame [] := fun _ member => absurd member List.not_mem_nil

theorem tame_cons {character : Code} {text : List Code} :
    Tame (character :: text) ↔ (character ≠ '\r' ∧ character ≠ byteOrderMark) ∧ Tame text :=
  List.forall_mem_cons

theorem tame_spaces (count : Nat) : Tame (List.replicate count (Code.char ' ')) := by
  intro character member
  rw [List.eq_of_mem_replicate member]
  decide

def columnOver (column : Nat) (text : List Code) : Nat :=
  text.foldl (fun column character => if isLineBreak character then 0 else column + 1) column

@[simp] theorem columnOver_nil (column : Nat) : columnOver column [] = column := rfl

theorem columnOver_append (column : Nat) (first second : List Code) :
    columnOver column (first ++ second) = columnOver (columnOver column first) second :=
  List.foldl_append

theorem columnOver_line {text : List Code} (line : ∀ character ∈ text, isLineBreak character = false)
    (column : Nat) : columnOver column text = column + text.length := by
  induction text generalizing column with
  | nil => rfl
  | cons character rest ih =>
      obtain ⟨here, later⟩ := List.forall_mem_cons.mp line
      simp only [columnOver, List.foldl_cons, here, List.length_cons]
      have after := ih later (column + 1)
      simp only [columnOver] at after
      simp only [Bool.false_eq_true, if_false, after]
      omega

theorem columnOver_spaces (column count : Nat) :
    columnOver column (List.replicate count (Code.char ' ')) = column + count := by
  rw [columnOver_line, List.length_replicate]
  intro character member
  rw [List.eq_of_mem_replicate member]
  rfl

theorem columnOver_break {character : Code} (ended : isLineBreak character = true)
    (column count : Nat) :
    columnOver column (character :: List.replicate count (Code.char ' ')) = count := by
  have spaces := columnOver_spaces 0 count
  simp only [columnOver] at spaces
  simp only [columnOver, List.foldl_cons, ended, if_true, spaces, Nat.zero_add]

namespace Mark

def past (mark : Mark) (character : Code) : Mark :=
  if isLineBreak character then ⟨mark.index + 1, mark.line + 1, 0⟩
  else ⟨mark.index + 1, mark.line, mark.column + 1⟩

def across (mark : Mark) (text : List Code) : Mark := text.foldl past mark

@[simp] theorem across_nil (mark : Mark) : mark.across [] = mark := rfl

@[simp] theorem across_cons (mark : Mark) (character : Code) (text : List Code) :
    mark.across (character :: text) = (mark.past character).across text := rfl

theorem across_append (mark : Mark) (first second : List Code) :
    mark.across (first ++ second) = (mark.across first).across second :=
  List.foldl_append

@[simp] theorem across_index (mark : Mark) (text : List Code) :
    (mark.across text).index = mark.index + text.length := by
  induction text generalizing mark with
  | nil => rfl
  | cons character rest ih =>
      rw [across_cons, ih, List.length_cons]
      simp only [past]
      split <;> simp only <;> omega

@[simp] theorem across_column (mark : Mark) (text : List Code) :
    (mark.across text).column = columnOver mark.column text := by
  induction text generalizing mark with
  | nil => rfl
  | cons character rest ih =>
      rw [across_cons, ih]
      simp only [columnOver, List.foldl_cons, past]
      split <;> rfl

theorem le_across_line (mark : Mark) (text : List Code) : mark.line ≤ (mark.across text).line := by
  induction text generalizing mark with
  | nil => exact Nat.le_refl _
  | cons character rest ih =>
      refine Nat.le_trans ?_ (ih (mark.past character))
      simp only [past]
      split <;> simp only <;> omega

theorem across_line_of_line {text : List Code}
    (line : ∀ character ∈ text, isLineBreak character = false) (mark : Mark) :
    (mark.across text).line = mark.line := by
  induction text generalizing mark with
  | nil => rfl
  | cons character rest ih =>
      obtain ⟨here, later⟩ := List.forall_mem_cons.mp line
      rw [across_cons, ih later]
      simp only [past, here, Bool.false_eq_true, if_false]

end Mark

namespace Cursor

theorem markAfter_tame {character : Code} (tame : character ≠ '\r' ∧ character ≠ byteOrderMark)
    (mark : Mark) (rest : List Code) : markAfter mark character rest = mark.past character := by
  obtain ⟨notReturn, notMark⟩ := tame
  have single : (character == '\r') = false := beq_eq_false_iff_ne.mpr notReturn
  have wide : (character == byteOrderMark) = false := beq_eq_false_iff_ne.mpr notMark
  simp only [markAfter, Mark.past, single, wide, Bool.false_and, Bool.not_false, Bool.and_true,
    Bool.false_eq_true, if_false]

theorem next_cons {character : Code} (tame : character ≠ '\r' ∧ character ≠ byteOrderMark)
    (rest : List Code) (mark : Mark) :
    Cursor.next ⟨character :: rest, mark⟩ = ⟨rest, mark.past character⟩ := by
  simp only [next, markAfter_tame tame]

theorem advance_append {text : List Code} (tame : Tame text) (rest : List Code) (mark : Mark) :
    Cursor.advance text.length ⟨text ++ rest, mark⟩ = ⟨rest, mark.across text⟩ := by
  induction text generalizing mark with
  | nil => rfl
  | cons character later ih =>
      obtain ⟨here, tame⟩ := tame_cons.mp tame
      rw [List.length_cons, List.cons_append, advance, next_cons here, ih tame, Mark.across_cons]

theorem run_append {member : Code → Bool} {text rest : List Code} {mark : Mark}
    (inside : ∀ character ∈ text, member character = true)
    (ended : rest.head?.all fun character => !member character) :
    Cursor.run ⟨text ++ rest, mark⟩ member = text := by
  have stop : rest.takeWhile member = [] := by
    cases rest with
    | nil => rfl
    | cons character later =>
        have outside : member character = false := by simpa using ended
        rw [List.takeWhile_cons, outside]
        rfl
  rw [Cursor.run, List.takeWhile_append_of_pos inside, stop, List.append_nil]

theorem takeRun_append {member : Code → Bool} {text rest : List Code} {mark : Mark}
    (tame : Tame text) (inside : ∀ character ∈ text, member character = true)
    (ended : rest.head?.all fun character => !member character) :
    Cursor.takeRun ⟨text ++ rest, mark⟩ member = (text, ⟨rest, mark.across text⟩) := by
  rw [takeRun, skipWhile, run_append inside ended, advance_append tame]

end Cursor

end SecretFill.Yaml
