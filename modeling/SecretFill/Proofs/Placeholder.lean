import SecretFill.Placeholder
/-!
What a placeholder is: the search for one finds exactly the texts that have it as a part.
-/

namespace SecretFill.Placeholder

open SecretFill.Text

/-- A placeholder of a key stands in a text: in braces anywhere, or bare where no letter, digit or
underscore follows. -/
def Stands (key text : List Code) : Prop :=
  (∃ before after, text = before ++ (Code.char '$' :: '\x7b' :: key ++ [Code.char '\x7d']) ++ after) ∨
    ∃ before after, text = before ++ (Code.char '$' :: key) ++ after ∧
      ∀ next ∈ after.head?, isKeyCharacter next = false

theorem startsAt_braced_iff (key text : List Code) :
    Form.braced.startsAt key text = true ↔
      ∃ after, text = (Code.char '$' :: '\x7b' :: key ++ [Code.char '\x7d']) ++ after := by
  simp only [Form.startsAt, Form.after?, Option.isSome_iff_exists, dropPrefix?_eq_some_iff,
    Form.written]

theorem endsBefore_iff (rest : List Code) :
    endsBefore rest = true ↔ ∀ next ∈ rest.head?, isKeyCharacter next = false := by
  cases rest with
  | nil => simp [endsBefore]
  | cons next rest => simp [endsBefore]

theorem startsAt_bare_iff (key text : List Code) :
    Form.bare.startsAt key text = true ↔
      ∃ after, text = (Code.char '$' :: key) ++ after ∧
        ∀ next ∈ after.head?, isKeyCharacter next = false := by
  simp only [Form.startsAt, Form.after?, Option.isSome_iff_exists, Option.filter_eq_some_iff,
    dropPrefix?_eq_some_iff, Form.written, endsBefore_iff]

theorem Form.occurs_iff (form : Form) (key text : List Code) :
    form.occurs key text = true ↔
      ∃ before rest, text = before ++ rest ∧ form.startsAt key rest = true := by
  induction text with
  | nil =>
      refine ⟨(fun found => by cases found), ?_⟩
      rintro ⟨before, rest, same, starts⟩
      obtain ⟨-, rfl⟩ := List.append_eq_nil_iff.mp same.symm
      cases form <;> cases starts
  | cons character text ih =>
      rw [Form.occurs, Bool.or_eq_true, ih]
      constructor
      · rintro (here | ⟨before, rest, same, later⟩)
        · exact ⟨[], character :: text, rfl, here⟩
        · exact ⟨character :: before, rest, by rw [same]; rfl, later⟩
      · rintro ⟨before, rest, same, starts⟩
        cases before with
        | nil =>
            rw [same]
            exact .inl starts
        | cons first before =>
            obtain ⟨-, rfl⟩ := List.cons.inj same
            exact .inr ⟨before, rest, rfl, starts⟩

theorem occurs_braced_iff (key text : List Code) :
    Form.braced.occurs key text = true ↔
      ∃ before after, text = before ++ Form.braced.written key ++ after := by
  simp only [Form.occurs_iff, startsAt_braced_iff, Form.written]
  constructor
  · rintro ⟨before, _, same, after, rfl⟩
    exact ⟨before, after, same.trans (List.append_assoc before _ after).symm⟩
  · rintro ⟨before, after, same⟩
    exact ⟨before, _, same.trans (List.append_assoc before _ after), after, rfl⟩

theorem occurs_bare_iff (key text : List Code) :
    Form.bare.occurs key text = true ↔
      ∃ before after, text = before ++ Form.bare.written key ++ after ∧
        ∀ next ∈ after.head?, isKeyCharacter next = false := by
  simp only [Form.occurs_iff, startsAt_bare_iff, Form.written]
  constructor
  · rintro ⟨before, _, same, after, rfl, ends⟩
    exact ⟨before, after, same.trans (List.append_assoc before _ after).symm, ends⟩
  · rintro ⟨before, after, same, ends⟩
    exact ⟨before, _, same.trans (List.append_assoc before _ after), after, rfl, ends⟩

theorem occurs_iff_stands (key text : List Code) : occurs key text = true ↔ Stands key text := by
  rw [occurs, Bool.or_eq_true, occurs_braced_iff, occurs_bare_iff]
  rfl

end SecretFill.Placeholder
