import Mathlib.Data.List.Induction
import Mathlib.Data.List.TakeWhile
import SecretFill.Text.Blank
/-!
What trimming leaves of a text: the characters of a class are gone from both ends, and nothing else
is. There is only one such text, and it is its own.
-/

namespace SecretFill.Text

/-- What is kept of a text when the characters of a class are dropped at its ends. -/
structure Trims (drops : Code → Bool) (text kept : List Code) : Prop where
  around : ∃ before after, text = before ++ (kept ++ after) ∧
    (∀ character ∈ before, drops character = true) ∧ ∀ character ∈ after, drops character = true
  opens : ∀ first rest, kept = first :: rest → drops first = false
  closes : ∀ front last, kept = front ++ [last] → drops last = false

variable {drops : Code → Bool} {text kept : List Code}

theorem dropWhile_opens (opens : ∀ first rest, kept = first :: rest → drops first = false)
    (filled : kept ≠ []) (after : List Code) : (kept ++ after).dropWhile drops = kept ++ after := by
  cases kept with
  | nil => exact absurd rfl filled
  | cons first rest =>
      rw [List.cons_append, List.dropWhile_cons_of_neg]
      simp [opens first rest rfl]

theorem dropWhile_of_all (all : ∀ character ∈ text, drops character = true) :
    text.dropWhile drops = [] :=
  List.dropWhile_eq_nil_iff.mpr all

theorem not_drops_of_dropWhile {first : Code} {rest : List Code}
    (left : text.dropWhile drops = first :: rest) : drops first = false := by
  have head := List.head?_dropWhile_not drops text
  rw [left] at head
  exact head

theorem dropEndWhile_opens (closes : ∀ front last, kept = front ++ [last] → drops last = false)
    {after : List Code} (all : ∀ character ∈ after, drops character = true) :
    dropEndWhile drops (kept ++ after) = kept := by
  have gone : ∀ character ∈ after.reverse, drops character = true := by simpa using all
  rw [dropEndWhile, List.reverse_append, List.dropWhile_append_of_pos gone]
  by_cases filled : kept = []
  · subst filled
    rfl
  · have stays : (kept.reverse ++ []).dropWhile drops = kept.reverse ++ [] :=
      dropWhile_opens (fun first rest same => ?_) (by simpa using filled) []
    · rw [List.append_nil] at stays
      rw [stays, List.reverse_reverse]
    · apply closes rest.reverse first
      rw [← List.reverse_reverse kept, same, List.reverse_cons]

theorem Trims.eq_strip (trims : Trims drops text kept) : kept = strip drops text := by
  obtain ⟨before, after, rfl, gone, gone'⟩ := trims.around
  rw [strip, List.dropWhile_append_of_pos gone]
  by_cases filled : kept = []
  · subst filled
    rw [List.nil_append, dropWhile_of_all gone']
    rfl
  · rw [dropWhile_opens trims.opens filled, dropEndWhile_opens trims.closes gone']

theorem trims_strip (drops : Code → Bool) (text : List Code) :
    Trims drops text (strip drops text) := by
  let opened := text.dropWhile drops
  let behind := (opened.reverse.takeWhile drops).reverse
  have front : text.takeWhile drops ++ opened = text := List.takeWhile_append_dropWhile
  have whole : opened = strip drops text ++ behind := by
    have parts : opened.reverse.takeWhile drops ++ opened.reverse.dropWhile drops =
        opened.reverse := List.takeWhile_append_dropWhile
    rw [strip, dropEndWhile, ← List.reverse_append, parts, List.reverse_reverse]
  constructor
  · refine ⟨text.takeWhile drops, behind, by rw [← whole, front], ?_, ?_⟩
    · exact fun _ => List.mem_takeWhile_imp
    · intro character member
      exact List.mem_takeWhile_imp (List.mem_reverse.mp member)
  · intro first rest same
    rw [same, List.cons_append] at whole
    exact not_drops_of_dropWhile whole
  · intro before last same
    have reversed : opened.reverse.dropWhile drops = last :: before.reverse := by
      calc opened.reverse.dropWhile drops
          = (strip drops text).reverse := (List.reverse_reverse _).symm
        _ = last :: before.reverse := by rw [same, List.reverse_append]; rfl
    exact not_drops_of_dropWhile reversed

theorem trims_iff : Trims drops text kept ↔ kept = strip drops text := by
  constructor
  · exact Trims.eq_strip
  · rintro rfl
    exact trims_strip drops text

theorem Trims.again (trims : Trims drops text kept) : Trims drops kept kept :=
  ⟨⟨[], [], by simp, List.forall_mem_nil _, List.forall_mem_nil _⟩, trims.opens, trims.closes⟩

theorem Trims.subset (trims : Trims drops text kept) : kept ⊆ text := by
  obtain ⟨before, after, rfl, -, -⟩ := trims.around
  intro character member
  exact List.mem_append_right _ (List.mem_append_left _ member)

/-! ### The end of a text -/

structure TrimsEnd (drops : Code → Bool) (text kept : List Code) : Prop where
  behind : ∃ after, text = kept ++ after ∧ ∀ character ∈ after, drops character = true
  closes : ∀ front last, kept = front ++ [last] → drops last = false

variable {front : List Code}

theorem exists_trimsEnd (drops : Code → Bool) (text : List Code) :
    ∃ kept, TrimsEnd drops text kept := by
  induction text using List.reverseRecOn with
  | nil => exact ⟨[], ⟨[], rfl, List.forall_mem_nil _⟩, by simp⟩
  | append_singleton front last ih =>
      cases dropped : drops last with
      | true =>
          obtain ⟨kept, ⟨after, rfl, gone⟩, closes⟩ := ih
          refine ⟨kept, ⟨after ++ [last], List.append_assoc _ _ _, ?_⟩, closes⟩
          exact List.forall_mem_append.mpr ⟨gone, List.forall_mem_singleton.mpr dropped⟩
      | false =>
          refine ⟨front ++ [last], ⟨[], by simp, List.forall_mem_nil _⟩, fun before other same => ?_⟩
          obtain ⟨-, alike⟩ := List.append_inj' same rfl
          exact List.singleton_inj.mp alike ▸ dropped

theorem trimsEnd_of_absent (absent : ∀ character ∈ text, drops character = false) :
    TrimsEnd drops text text where
  behind := ⟨[], by simp, List.forall_mem_nil _⟩
  closes front last same := absent last (by simp [same])

theorem TrimsEnd.again (trims : TrimsEnd drops text kept) : TrimsEnd drops kept kept :=
  ⟨⟨[], by simp, List.forall_mem_nil _⟩, trims.closes⟩

theorem TrimsEnd.eq_text_iff (trims : TrimsEnd drops text kept) :
    kept = text ↔ ∀ front last, text = front ++ [last] → drops last = false := by
  obtain ⟨⟨after, rfl, gone⟩, closes⟩ := trims
  constructor
  · intro same
    rwa [← same]
  · intro closed
    rcases List.eq_nil_or_concat after with rfl | ⟨inner, last, rfl⟩
    · rw [List.append_nil]
    · rw [List.concat_eq_append] at gone closed
      have stays := closed (kept ++ inner) last (List.append_assoc _ _ _).symm
      rw [gone last (by simp)] at stays
      cases stays

/-- What stands in front of a kept end is kept, and so is what stands before a dropped end if
nothing is dropped at its own. -/
theorem TrimsEnd.append (trims : TrimsEnd drops text kept)
    (stays : kept = [] → TrimsEnd drops front front) :
    TrimsEnd drops (front ++ text) (front ++ kept) := by
  obtain ⟨⟨after, rfl, gone⟩, closes⟩ := trims
  refine ⟨⟨after, (List.append_assoc _ _ _).symm, gone⟩, fun before last same => ?_⟩
  rcases List.eq_nil_or_concat kept with rfl | ⟨inner, other, rfl⟩
  · rw [List.append_nil] at same
    exact (stays rfl).closes before last same
  · rw [List.concat_eq_append] at same closes
    rw [← List.append_assoc] at same
    obtain ⟨-, alike⟩ := List.append_inj' same rfl
    exact List.singleton_inj.mp alike ▸ closes inner other rfl

theorem TrimsEnd.trims (trims : TrimsEnd drops text kept)
    (opens : ∀ first rest, text = first :: rest → drops first = false) : Trims drops text kept := by
  obtain ⟨⟨after, rfl, gone⟩, closes⟩ := trims
  refine ⟨⟨[], after, rfl, List.forall_mem_nil _, gone⟩, ?_, closes⟩
  rintro first rest rfl
  exact opens first (rest ++ after) rfl

end SecretFill.Text
