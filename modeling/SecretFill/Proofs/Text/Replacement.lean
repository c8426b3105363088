import Mathlib.Data.List.Infix
import SecretFill.Text.Search
/-!
Replacing one text by another inside a third. The places of the text that is replaced cut the whole
into pieces in which it does not stand, and the replacement joins these pieces again. So what has no
place of the text is left alone, and what is found afterwards was found inside one piece before.
-/

namespace SecretFill.Text

theorem startsWith_iff (pattern text : List Code) :
    startsWith pattern text = true ↔ pattern <+: text := by
  simp only [startsWith, Option.isSome_iff_exists, dropPrefix?_eq_some_iff]
  constructor
  · rintro ⟨rest, same⟩
    exact ⟨rest, same.symm⟩
  · rintro ⟨rest, same⟩
    exact ⟨rest, same.symm⟩

theorem occursIn_iff (pattern text : List Code) :
    occursIn pattern text = true ↔ pattern <:+: text := by
  induction text with
  | nil => rw [occursIn, List.isEmpty_iff, List.infix_nil]
  | cons character rest ih =>
      rw [occursIn, Bool.or_eq_true, startsWith_iff, ih, List.infix_cons_iff]

theorem dropPrefix?_append (pattern text : List Code) :
    dropPrefix? pattern (pattern ++ text) = some text :=
  (dropPrefix?_eq_some_iff pattern (pattern ++ text) text).mpr rfl

theorem infix_of_mark {mark : Code} {line before after : List Code} (apart : mark ∉ line)
    (found : line <:+: before ++ mark :: after) : line <:+: before ∨ line <:+: after := by
  have empty : ∀ {part : List Code}, part <+: mark :: after → mark ∉ part → part = [] := by
    intro part starts absent
    cases part with
    | nil => rfl
    | cons first rest =>
        have same := (List.cons_prefix_cons.mp starts).1
        exact absurd (same ▸ List.mem_cons_self) absent
  rcases List.infix_append_iff.mp found with left | right | ⟨first, second, rfl, ends, starts⟩
  · exact .inl left
  · rcases List.infix_cons_iff.mp right with starts | later
    · rw [empty starts apart]
      exact .inl (List.nil_infix)
    · exact .inr later
  · have none := empty starts fun member => apart (List.mem_append_right first member)
    rw [none, List.append_nil]
    exact .inl ends.isInfix

theorem replaceAll_append (head : Code) (tail replacement text : List Code) :
    replaceAll head tail replacement (head :: tail ++ text) =
      replacement ++ replaceAll head tail replacement text := by
  rw [List.cons_append, replaceAll, if_pos rfl]
  split
  · next after found =>
      rw [dropPrefix?_append] at found
      rw [Option.some.inj found]
  · next missing =>
      rw [dropPrefix?_append] at missing
      cases missing

theorem replaceAll_cons {head : Code} {tail : List Code} (replacement : List Code)
    {character : Code} {text : List Code} (missing : ¬ head :: tail <+: character :: text) :
    replaceAll head tail replacement (character :: text) =
      character :: replaceAll head tail replacement text := by
  rw [replaceAll]
  split
  · next same =>
      subst same
      split
      · next after found =>
          have starts := (startsWith_iff tail text).mp (by simp [startsWith, found])
          exact absurd (List.cons_prefix_cons.mpr ⟨rfl, starts⟩) missing
      · rfl
  · rfl

/-- `kept` are the pieces between the places of `pattern` in `text`. -/
structure Cuts (pattern text : List Code) (kept : List (List Code)) : Prop where
  whole : text = pattern.intercalate kept
  filled : kept ≠ []
  free : ∀ piece ∈ kept, ¬ pattern <:+: piece

theorem intercalate_extend (joint : List Code) (character : Code) (first : List Code)
    (others : List (List Code)) :
    joint.intercalate ((character :: first) :: others) =
      character :: joint.intercalate (first :: others) := by
  cases others with
  | nil => simp
  | cons second others => simp [List.intercalate_cons_cons]

theorem prefix_intercalate (joint first : List Code) (others : List (List Code)) :
    first <+: joint.intercalate (first :: others) := by
  cases others with
  | nil => simp
  | cons second others => simp [List.intercalate_cons_cons]

theorem Cuts.open {pattern text : List Code} {kept : List (List Code)} (filled : pattern ≠ [])
    (cuts : Cuts pattern text kept) : Cuts pattern (pattern ++ text) ([] :: kept) where
  whole := by
    rw [List.intercalate_cons_of_ne_nil cuts.filled, ← cuts.whole]
    rfl
  filled := List.cons_ne_nil _ _
  free := by
    intro piece member
    rcases List.mem_cons.mp member with rfl | later
    · exact fun found => filled (List.infix_nil.mp found)
    · exact cuts.free piece later

theorem Cuts.extend {pattern text first : List Code} {others : List (List Code)}
    {character : Code} (cuts : Cuts pattern text (first :: others))
    (missing : ¬ pattern <+: character :: text) :
    Cuts pattern (character :: text) ((character :: first) :: others) where
  whole := by rw [intercalate_extend, ← cuts.whole]
  filled := List.cons_ne_nil _ _
  free := by
    intro piece member
    rcases List.mem_cons.mp member with rfl | later
    · intro found
      rcases List.infix_cons_iff.mp found with starts | inside
      · have longer : character :: first <+: character :: text := by
          rw [cuts.whole, List.cons_prefix_cons]
          exact ⟨rfl, prefix_intercalate pattern first others⟩
        exact missing (starts.trans longer)
      · exact cuts.free first List.mem_cons_self inside
    · exact cuts.free piece (List.mem_cons_of_mem _ later)

-- The pieces and the result come of one scan, so one induction along it gives both.
theorem replaceAll_cuts (head : Code) (tail replacement text : List Code) :
    ∃ kept, Cuts (head :: tail) text kept ∧
      replaceAll head tail replacement text = replacement.intercalate kept := by
  induction size : text.length using Nat.strongRecOn generalizing text with
  | _ bound ih =>
      -- An occurrence ends a piece; any other character belongs to the piece in front.
      by_cases starts : head :: tail <+: text
      · rcases starts with ⟨after, rfl⟩
        have shorter : after.length < bound := by
          rw [← size, List.length_append]
          simp
        rcases ih _ shorter after rfl with ⟨kept, cuts, replaced⟩
        refine ⟨[] :: kept, cuts.open (List.cons_ne_nil _ _), ?_⟩
        rw [replaceAll_append, replaced, List.intercalate_cons_of_ne_nil cuts.filled]
        rfl
      · cases text with
        | nil =>
            refine ⟨[[]], ⟨rfl, List.cons_ne_nil _ _, ?_⟩, by simp [replaceAll]⟩
            intro piece member
            simp [List.mem_singleton.mp member]
        | cons character rest =>
            rcases ih rest.length (by simp [← size]) rest rfl with ⟨kept, cuts, replaced⟩
            cases kept with
            | nil => exact absurd rfl cuts.filled
            | cons first others =>
                refine ⟨(character :: first) :: others, cuts.extend starts, ?_⟩
                rw [replaceAll_cons replacement starts, replaced, intercalate_extend]

theorem replacing_cuts {pattern : List Code} (filled : pattern ≠ []) (replacement text : List Code) :
    ∃ kept, Cuts pattern text kept ∧
      replacing pattern replacement text = replacement.intercalate kept := by
  cases pattern with
  | nil => exact absurd rfl filled
  | cons head tail => exact replaceAll_cuts head tail replacement text

theorem infix_of_mem_intercalate {joint piece : List Code} {kept : List (List Code)}
    (member : piece ∈ kept) : piece <:+: joint.intercalate kept := by
  induction kept with
  | nil => cases member
  | cons first others ih =>
      rcases List.mem_cons.mp member with rfl | later
      · exact (prefix_intercalate joint _ others).isInfix
      · rw [List.intercalate_cons_of_ne_nil (List.ne_nil_of_mem later)]
        exact (ih later).trans (List.suffix_append _ _).isInfix

theorem replacing_of_absent {pattern : List Code} (replacement : List Code) {text : List Code}
    (absent : ¬ pattern <:+: text) : replacing pattern replacement text = text := by
  have filled : pattern ≠ [] := by
    rintro rfl
    exact absent List.nil_infix
  rcases replacing_cuts filled replacement text with ⟨kept, cuts, replaced⟩
  match kept, cuts with
  | [], cuts => exact absurd rfl cuts.filled
  | [piece], cuts => rw [replaced, cuts.whole, List.intercalate_singleton, List.intercalate_singleton]
  | first :: second :: others, cuts =>
      have stands : pattern <:+: text := by
        rw [cuts.whole, List.intercalate_cons_cons]
        exact ⟨first, pattern.intercalate (second :: others), rfl⟩
      exact absurd stands absent

theorem replacing_self {pattern : List Code} (filled : pattern ≠ []) (replacement : List Code) :
    replacing pattern replacement pattern = replacement := by
  cases pattern with
  | nil => exact absurd rfl filled
  | cons head tail =>
      have whole := replaceAll_append head tail replacement []
      rw [List.append_nil] at whole
      simpa [replacing, replaceAll] using whole

end SecretFill.Text
