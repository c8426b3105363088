import SecretFill.Proofs.Text.Division
import SecretFill.Proofs.Text.Replacement
/-!
A text put together again from its pieces, and cut once at the first place of a pattern.
-/

namespace SecretFill.Text

/-- Goes over the characters of the text. The characters are also finitely many, and going over all
of them would decide this too. -/
instance (priority := high) decidableForallMem {holds : Code → Prop} [DecidablePred holds]
    (text : List Code) : Decidable (∀ character ∈ text, holds character) :=
  List.decidableBAll holds text

theorem takeWhile_of_boundary {holds : Code → Bool} {before after : List Code}
    (inside : ∀ character ∈ before, holds character = true)
    (ends : ∀ next ∈ after.head?, holds next = false) :
    (before ++ after).takeWhile holds = before ∧ (before ++ after).dropWhile holds = after := by
  rw [List.takeWhile_append_of_pos inside, List.dropWhile_append_of_pos inside]
  cases after with
  | nil => simp
  | cons next after =>
      have stop := ends next rfl
      simp [stop]

theorem boundary_unique {holds : Code → Bool} {before before' after after' : List Code}
    (inside : ∀ character ∈ before, holds character = true)
    (inside' : ∀ character ∈ before', holds character = true)
    (ends : ∀ next ∈ after.head?, holds next = false)
    (ends' : ∀ next ∈ after'.head?, holds next = false)
    (same : before ++ after = before' ++ after') : before = before' ∧ after = after' := by
  obtain ⟨taken, dropped⟩ := takeWhile_of_boundary inside ends
  obtain ⟨taken', dropped'⟩ := takeWhile_of_boundary inside' ends'
  rw [same] at taken dropped
  exact ⟨taken.symm.trans taken', dropped.symm.trans dropped'⟩

theorem segments_of_absent {mark : Code} {text : List Code} (absent : mark ∉ text) :
    segments mark text = [text] := by
  induction text with
  | nil => rfl
  | cons character rest ih =>
      rw [List.mem_cons, not_or] at absent
      rw [segments, if_neg (Ne.symm absent.1), ih absent.2]
      rfl

theorem segments_filled (mark : Code) (text : List Code) : segments mark text ≠ [] := by
  cases text with
  | nil => exact List.cons_ne_nil _ _
  | cons character rest =>
      rw [segments]
      split
      · exact List.cons_ne_nil _ _
      · cases segments mark rest <;> exact List.cons_ne_nil _ _

theorem segments_mark (mark : Code) (before after : List Code) :
    segments mark (before ++ mark :: after) = segments mark before ++ segments mark after := by
  induction before with
  | nil => simp [segments]
  | cons character rest ih =>
      rw [List.cons_append, segments, segments, ih]
      split
      · rfl
      · cases pieces : segments mark rest with
        | nil => exact absurd pieces (segments_filled mark rest)
        | cons first others => rfl

theorem segments_append {mark : Code} {before : List Code} (absent : mark ∉ before)
    (after : List Code) :
    segments mark (before ++ mark :: after) = before :: segments mark after := by
  rw [segments_mark, segments_of_absent absent]
  rfl

/-- What comes behind a text that ends with a mark, or behind no text, begins a piece of its own. -/
theorem segments_behind {mark : Code} {text : List Code} {before : List (List Code)}
    (ended : segments mark text = before ++ [[]]) (more : List Code) :
    segments mark (text ++ more) = before ++ segments mark more := by
  -- The last segment is empty, so what is added begins a segment of its own.
  induction text generalizing before with
  | nil =>
      have none : before = [] := by simpa [segments, eq_comm] using ended
      rw [none, List.nil_append, List.nil_append]
  | cons character rest ih =>
      rw [segments] at ended
      rw [List.cons_append, segments]
      split at ended
      · next same =>
          cases before with
          | nil => exact absurd (List.cons.inj ended).2 (segments_filled mark rest)
          | cons first before =>
              obtain ⟨rfl, later⟩ := List.cons.inj ended
              rw [if_pos same, ih later, List.cons_append]
      · next other =>
          cases pieces : segments mark rest with
          | nil => exact absurd pieces (segments_filled mark rest)
          | cons first others =>
              rw [pieces, extendFirst] at ended
              cases before with
              | nil => cases ended
              | cons opening before =>
                  obtain ⟨rfl, rfl⟩ := List.cons.inj ended
                  have later : segments mark rest = (first :: before) ++ [[]] := pieces
                  rw [if_neg other, ih later]
                  rfl

theorem segments_intercalate {mark : Code} {kept : List (List Code)} (filled : kept ≠ [])
    (free : ∀ piece ∈ kept, mark ∉ piece) : segments mark ([mark].intercalate kept) = kept := by
  induction kept with
  | nil => exact absurd rfl filled
  | cons first others ih =>
      have absent := free first List.mem_cons_self
      cases others with
      | nil =>
          rw [List.intercalate_singleton]
          exact segments_of_absent absent
      | cons second others =>
          rw [List.intercalate_cons_cons, List.append_assoc, List.singleton_append,
            segments_append absent, ih (List.cons_ne_nil _ _)
              fun piece member => free piece (List.mem_cons_of_mem _ member)]

theorem cuts_segments (mark : Code) (text : List Code) : Cuts [mark] text (segments mark text) := by
  induction text with
  | nil => exact ⟨rfl, List.cons_ne_nil _ _, by simp [segments]⟩
  | cons character rest ih =>
      rw [segments]
      split
      · next same =>
          subst same
          exact ih.open (List.cons_ne_nil _ _)
      · next other =>
          cases pieces : segments mark rest with
          | nil => exact absurd pieces ih.filled
          | cons first others =>
              rw [pieces] at ih
              refine ih.extend fun starts => ?_
              exact other (List.cons_prefix_cons.mp starts).1.symm

theorem Cuts.absent {mark : Code} {text : List Code} {kept : List (List Code)}
    (cuts : Cuts [mark] text kept) : ∀ piece ∈ kept, mark ∉ piece := by
  intro piece member inside
  exact cuts.free piece member ((List.singleton_infix_iff mark piece).mpr inside)

theorem cuts_of_absent {mark : Code} {kept : List (List Code)} (filled : kept ≠ [])
    (absent : ∀ piece ∈ kept, mark ∉ piece) : Cuts [mark] ([mark].intercalate kept) kept :=
  ⟨rfl, filled, fun piece member =>
    (List.singleton_infix_iff mark piece).not.mpr (absent piece member)⟩

theorem cuts_iff {mark : Code} {text : List Code} {kept : List (List Code)} :
    Cuts [mark] text kept ↔ kept = segments mark text := by
  constructor
  · intro cuts
    rw [cuts.whole, segments_intercalate cuts.filled cuts.absent]
  · rintro rfl
    exact cuts_segments mark text

theorem infix_of_mem_segments {mark : Code} {text piece : List Code}
    (member : piece ∈ segments mark text) : piece <:+: text := by
  have whole := (cuts_segments mark text).whole
  rw [whole]
  exact infix_of_mem_intercalate member

theorem lines_append {piece : List Code} (free : ∀ character ∈ piece, isBreak character = false)
    (rest : List Code) : lines (piece ++ Code.char '\n' :: rest) = piece :: lines rest := by
  have opens : pieces isBreak ('\n' :: rest) = [] :: lines rest :=
    pieces_cons_mark rfl fun same => absurd same (by decide)
  exact pieces_append free opens

def cutAt (pattern : List Code) : List Code → Option (List Code × List Code)
  | [] => if pattern = [] then some ([], []) else none
  | character :: rest =>
      match dropPrefix? pattern (character :: rest) with
      | some after => some ([], after)
      | none => (cutAt pattern rest).map fun (before, after) => (character :: before, after)

theorem cutAt_append {head : Code} {before : List Code} (absent : head ∉ before)
    (tail after : List Code) :
    cutAt (head :: tail) (before ++ (head :: tail ++ after)) = some (before, after) := by
  induction before with
  | nil =>
      rw [List.nil_append, List.cons_append, cutAt, ← List.cons_append, dropPrefix?_append]
  | cons character before ih =>
      rw [List.mem_cons, not_or] at absent
      have missing : dropPrefix? (head :: tail) (character :: (before ++ (head :: tail ++ after))) =
          none := by
        rw [dropPrefix?, if_neg absent.1]
      rw [List.cons_append, cutAt, missing]
      simp only [ih absent.2, Option.map_some]

theorem cutAt_of_absent {head : Code} {text : List Code} (absent : head ∉ text)
    (tail : List Code) : cutAt (head :: tail) text = none := by
  induction text with
  | nil => rfl
  | cons character rest ih =>
      rw [List.mem_cons, not_or] at absent
      have missing : dropPrefix? (head :: tail) (character :: rest) = none := by
        rw [dropPrefix?, if_neg absent.1]
      rw [cutAt, missing]
      simp only [ih absent.2, Option.map_none]

end SecretFill.Text
