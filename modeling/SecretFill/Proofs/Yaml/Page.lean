import SecretFill.Proofs.Text.Pieces
import SecretFill.Proofs.Yaml.Cursor
import SecretFill.Yaml.Page
/-!
What a writer puts on a page. Every operation adds some text behind what stands there, and the
column of the page is the column that a reader of the text is at.
-/

namespace SecretFill.Yaml

open Layout (isWriterBreak)

theorem isLineBreak_of_isWriterBreak {character : Code} (breaks : isWriterBreak character = true) :
    isLineBreak character = true := by
  simp only [isWriterBreak, Bool.or_eq_true] at breaks
  simp only [isLineBreak, Bool.or_eq_true]
  rcases breaks with ((line | next) | separator) | paragraph
  · exact .inl (.inl (.inl (.inl line)))
  · exact .inl (.inl (.inr next))
  · exact .inl (.inr separator)
  · exact .inr paragraph

namespace Page

structure Adds (page : Page) (body : List Code) (after : Page) : Prop where
  written : after.written = body.reverse ++ page.written
  column : after.column = columnOver page.column body
  acceptable : ∀ character ∈ body, isAcceptable character = true

theorem Adds.refl (page : Page) : page.Adds [] page :=
  ⟨rfl, rfl, fun _ member => absurd member List.not_mem_nil⟩

theorem Adds.trans {page middle after : Page} {first second : List Code}
    (one : page.Adds first middle) (two : middle.Adds second after) :
    page.Adds (first ++ second) after := by
  constructor
  · rw [two.written, one.written, List.reverse_append, List.append_assoc]
  · rw [two.column, one.column, columnOver_append]
  · exact List.forall_mem_append.mpr ⟨one.acceptable, two.acceptable⟩

/-- Characters that are written on one line as they are. -/
def Inline (body : List Code) : Prop :=
  ∀ character ∈ body, isLineBreak character = false ∧ isAcceptable character = true

instance (body : List Code) : Decidable (Inline body) :=
  Text.decidableForallMem body

theorem inline_append {first second : List Code} :
    Inline (first ++ second) ↔ Inline first ∧ Inline second :=
  List.forall_mem_append

theorem Inline.line {body : List Code} (shown : Inline body) :
    ∀ character ∈ body, isLineBreak character = false :=
  fun character member => (shown character member).1

theorem inline_spaces (count : Nat) : Inline (List.replicate count (Code.char ' ')) := by
  intro character member
  rw [List.eq_of_mem_replicate member]
  decide

theorem adds_write (page : Page) {body : List Code} (shown : Inline body) :
    page.Adds body (page.write body) :=
  ⟨rfl, (columnOver_line shown.line _).symm, fun character member => (shown character member).2⟩

theorem adds_spaces (page : Page) (count : Nat) :
    page.Adds (List.replicate count (Code.char ' '))
        (page.write (List.replicate count (Code.char ' '))) :=
  adds_write page (inline_spaces count)

theorem isAcceptable_of_isWriterBreak {character : Code} (breaks : isWriterBreak character = true) :
    isAcceptable character = true := by
  simp only [isWriterBreak, Bool.or_eq_true, beq_iff_eq] at breaks
  have whole : character.isHalf = false := by
    apply Code.isHalf_eq_false
    rcases breaks with ((rfl | next) | separator) | paragraph
    · decide
    all_goals omega
  rcases breaks with ((rfl | next) | separator) | paragraph
  · rfl
  · simp [isAcceptable, whole, next]
  · simp [isAcceptable, whole, separator]
  · simp [isAcceptable, whole, paragraph]

theorem adds_lineBreak (page : Page) {character : Code} (breaks : isWriterBreak character = true) :
    page.Adds [character] (page.lineBreak character) := by
  constructor
  · rfl
  · have line := isLineBreak_of_isWriterBreak breaks
    simp only [columnOver, List.foldl_cons, List.foldl_nil, line, if_true]
    rfl
  · rintro other member
    rw [List.mem_singleton.mp member]
    exact isAcceptable_of_isWriterBreak breaks

theorem Adds.flags {page after other : Page} {body : List Code} (adds : page.Adds body after)
    (written : other.written = after.written) (column : other.column = after.column) :
    page.Adds body other :=
  ⟨written.trans adds.written, column.trans adds.column, adds.acceptable⟩

/-! ### Indicators -/

def spaceBefore (page : Page) : List Code := if page.spaced then [] else [' ']

theorem inline_spaceBefore (page : Page) : Inline page.spaceBefore := by
  unfold spaceBefore
  split
  · exact inline_spaces 0
  · exact inline_spaces 1

theorem adds_indicator (page : Page) {characters : List Code} ( isBlock : Bool)
    (shown : Inline characters) :
    page.Adds (page.spaceBefore ++ characters) (page.indicator characters true isBlock) := by
  have together := inline_append.mpr ⟨page.inline_spaceBefore, shown⟩
  apply (adds_write page together).flags
  · cases spaced : page.spaced <;> simp [indicator, spaceBefore, spaced]
  · cases spaced : page.spaced <;> simp [indicator, spaceBefore, spaced]

theorem adds_indicator_close (page : Page) {characters : List Code} ( isBlock : Bool)
    (shown : Inline characters) :
    page.Adds characters (page.indicator characters false isBlock) := by
  apply (adds_write page shown).flags
  · simp [indicator]
  · simp [indicator]

@[simp] theorem indicator_spaced (page : Page) (characters : List Code) (apart isBlock : Bool) :
    (page.indicator characters apart isBlock).spaced = false := rfl

@[simp] theorem indicator_fresh (page : Page) (characters : List Code) (apart isBlock : Bool) :
    (page.indicator characters apart isBlock).fresh = (page.fresh && isBlock) := rfl

/-! ### New lines -/

structure Opens (page : Page) (indent : Nat) : Prop where
  column : page.column = indent
  spaced : page.spaced = true
  fresh : page.fresh = true

/-- From a line that holds more than indentation, or reaches too far, a new one is begun. -/
theorem newLine_breaks {page : Page} {indent : Nat}
    (used : page.fresh = false ∨ indent < page.column) :
    page.Adds ('\n' :: List.replicate indent (Code.char ' ')) (page.newLine indent) ∧
      (page.newLine indent).Opens indent := by
  -- Whatever stands on the line, or being too far to the right, calls for a new line.
  have breaks : (!page.fresh || decide (indent < page.column) ||
      (page.column == indent && !page.spaced)) = true := by
    rcases used with used | far
    · rw [used]
      rfl
    · rw [decide_eq_true far, Bool.or_true, Bool.true_or]
  have start : page.Adds ['\n'] (page.lineBreak '\n') := adds_lineBreak page rfl
  simp only [newLine, breaks, if_true]
  by_cases deeper : (page.lineBreak '\n').column < indent
  · rw [if_pos deeper]
    have filled : indent - (page.lineBreak '\n').column = indent := Nat.sub_zero indent
    rw [filled]
    refine ⟨(start.trans (adds_spaces _ indent)).flags rfl rfl, ?_, rfl, rfl⟩
    simp only [write, List.length_replicate]
    exact Nat.zero_add indent
  · rw [if_neg deeper]
    have none : indent = 0 := Nat.eq_zero_of_not_pos deeper
    subst none
    exact ⟨start, rfl, rfl, rfl⟩

theorem newLine_fills {page : Page} {indent : Nat} (fresh : page.fresh = true)
    (ahead : page.column < indent) :
    page.Adds (List.replicate (indent - page.column) (Code.char ' ')) (page.newLine indent) ∧
      (page.newLine indent).Opens indent := by
  have stays : (!page.fresh || decide (indent < page.column) ||
      (page.column == indent && !page.spaced)) = false := by
    have near : decide (indent < page.column) = false := decide_eq_false (by omega)
    have apart : (page.column == indent) = false := beq_eq_false_iff_ne.mpr (by omega)
    rw [fresh, near, apart]
    rfl
  simp only [newLine, stays, Bool.false_eq_true, if_false, if_pos ahead]
  refine ⟨(adds_spaces page (indent - page.column)).flags rfl rfl, ?_, rfl, fresh⟩
  simp only [write, List.length_replicate]
  omega

theorem newLine_stays {page : Page} {indent : Nat} (opens : page.Opens indent) :
    page.newLine indent = page := by
  have stays : (!page.fresh || decide (indent < page.column) ||
      (page.column == indent && !page.spaced)) = false := by
    have near : decide (indent < page.column) = false :=
      decide_eq_false (by rw [opens.column]; omega)
    rw [opens.fresh, near, opens.spaced]
    simp
  simp only [newLine, stays, Bool.false_eq_true, if_false]
  rw [if_neg (by rw [opens.column]; omega)]

/-! ### Stretches -/

/-- A text cut into maximal runs of spaces, of line breaks and of other characters. -/
inductive Stretched : List Stretch → List Code → Prop
  | nil : Stretched [] []
  | spaces {count : Nat} {later : List Stretch} {rest : List Code} (more : Stretched later rest)
      (ended : rest.head? ≠ some ' ') :
      Stretched (.spaces (count + 1) :: later) (List.replicate (count + 1) (Code.char ' ') ++ rest)
  | breaks {characters : List Code} {later : List Stretch} {rest : List Code}
      (more : Stretched later rest) (nonempty : characters ≠ [])
      (inside : ∀ character ∈ characters, isWriterBreak character = true)
      (ended : ∀ character ∈ rest.head?, isWriterBreak character = false) :
      Stretched (.breaks characters :: later) (characters ++ rest)
  | word {characters : List Code} {later : List Stretch} {rest : List Code}
      (more : Stretched later rest) (nonempty : characters ≠ [])
      (inside : ∀ character ∈ characters, character ≠ ' ' ∧ isWriterBreak character = false)
      (ended : ∀ character ∈ rest.head?, character = ' ' ∨ isWriterBreak character = true) :
      Stretched (.word characters :: later) (characters ++ rest)

theorem Stretched.head_spaces {count : Nat} {later : List Stretch} {text : List Code}
    (cut : Stretched (.spaces count :: later) text) : text.head? = some ' ' := by
  cases cut
  rfl

theorem Stretched.head_breaks {characters : List Code} {later : List Stretch} {text : List Code}
    (cut : Stretched (.breaks characters :: later) text) :
    ∃ first rest, text = first :: rest ∧ isWriterBreak first = true := by
  cases cut with
  | breaks more nonempty inside ended =>
      obtain ⟨first, others, rfl⟩ := List.exists_cons_of_ne_nil nonempty
      exact ⟨first, _, rfl, inside first List.mem_cons_self⟩

theorem Stretched.head_word {characters : List Code} {later : List Stretch} {text : List Code}
    (cut : Stretched (.word characters :: later) text) :
    ∃ first rest, text = first :: rest ∧ first ≠ ' ' ∧ isWriterBreak first = false := by
  cases cut with
  | word more nonempty inside ended =>
      obtain ⟨first, others, rfl⟩ := List.exists_cons_of_ne_nil nonempty
      exact ⟨first, _, rfl, inside first List.mem_cons_self⟩

theorem ne_space_of_isWriterBreak {character : Code} (breaks : isWriterBreak character = true) :
    character ≠ ' ' := by
  rintro rfl
  cases breaks

theorem stretched_space {later : List Stretch} {rest : List Code} (more : Stretched later rest) :
    Stretched (Stretch.extend ' ' later) (' ' :: rest) := by
  have alone (ended : rest.head? ≠ some ' ') : Stretched (.spaces 1 :: later) (' ' :: rest) :=
    @Stretched.spaces 0 _ _ more ended
  match later, more with
  | [], .nil => exact alone (by simp)
  | .spaces _ :: _, .spaces more ended => exact .spaces more ended
  | .breaks characters :: later, more =>
      obtain ⟨first, others, rfl, breaks⟩ := more.head_breaks
      exact alone fun same => ne_space_of_isWriterBreak breaks (Option.some.inj same)
  | .word characters :: later, more =>
      obtain ⟨first, others, rfl, apart, -⟩ := more.head_word
      exact alone fun same => apart (Option.some.inj same)

theorem stretched_break {later : List Stretch} {rest : List Code} (more : Stretched later rest)
    {character : Code} (breaks : isWriterBreak character = true) :
    Stretched (Stretch.extend character later) (character :: rest) := by
  have alone (ended : ∀ first ∈ rest.head?, isWriterBreak first = false) :
      Stretched (.breaks [character] :: later) (character :: rest) :=
    .breaks more (List.cons_ne_nil _ _) (by simpa using breaks) ended
  have apart : (character == ' ') = false :=
    beq_eq_false_iff_ne.mpr (ne_space_of_isWriterBreak breaks)
  simp only [Stretch.extend, apart, breaks, Bool.false_eq_true, if_false, if_true]
  match later, more with
  | [], .nil => exact alone (by simp)
  | .breaks _ :: _, .breaks more nonempty inside ended =>
      exact .breaks more (List.cons_ne_nil _ _) (List.forall_mem_cons.mpr ⟨breaks, inside⟩) ended
  | .spaces count :: later, more =>
      refine alone fun first here => ?_
      rw [more.head_spaces] at here
      cases here
      rfl
  | .word characters :: later, more =>
      obtain ⟨first, others, rfl, -, solid⟩ := more.head_word
      exact alone fun other here => Option.some.inj here ▸ solid

theorem stretched_solid {later : List Stretch} {rest : List Code} (more : Stretched later rest)
    {character : Code} (apart : character ≠ ' ') (solid : isWriterBreak character = false) :
    Stretched (Stretch.extend character later) (character :: rest) := by
  have alone (ended : ∀ first ∈ rest.head?, first = ' ' ∨ isWriterBreak first = true) :
      Stretched (.word [character] :: later) (character :: rest) :=
    .word more (List.cons_ne_nil _ _) (by simpa using ⟨apart, solid⟩) ended
  have other : (character == ' ') = false := beq_eq_false_iff_ne.mpr apart
  simp only [Stretch.extend, other, solid, Bool.false_eq_true, if_false]
  match later, more with
  | [], .nil => exact alone (by simp)
  | .word _ :: _, .word more nonempty inside ended =>
      exact .word more (List.cons_ne_nil _ _) (List.forall_mem_cons.mpr ⟨⟨apart, solid⟩, inside⟩)
        ended
  | .spaces count :: later, more =>
      refine alone fun first here => ?_
      rw [more.head_spaces] at here
      exact .inl (Option.some.inj here).symm
  | .breaks characters :: later, more =>
      obtain ⟨first, others, rfl, breaks⟩ := more.head_breaks
      exact alone fun other here => .inr (Option.some.inj here ▸ breaks)

theorem stretched (text : List Code) : Stretched (stretches text) text := by
  induction text with
  | nil => exact .nil
  | cons character rest ih =>
      by_cases space : character = ' '
      · subst space
        exact stretched_space ih
      · cases solid : isWriterBreak character with
        | true => exact stretched_break ih solid
        | false => exact stretched_solid ih space solid

end Page

end SecretFill.Yaml
