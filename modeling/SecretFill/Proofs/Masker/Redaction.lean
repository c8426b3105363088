import SecretFill.Proofs.Masker.Registration
import SecretFill.Proofs.Sorting
import SecretFill.Proofs.Text.Replacement
/-!
What redaction leaves of a text. The marker begins and ends with asterisks, so a line without any,
that is no part of the word between them, is found after a replacement only inside a piece that was
there before: no later line brings an earlier one back. Longer lines go first, so a text that is a
registered line itself becomes the marker as a whole.
-/

namespace SecretFill.Masker

open SecretFill.Text

/-- A line that cannot be taken for a part of the marker. -/
def ClearOfMarker (line : List Code) : Prop :=
  Code.char '*' ∉ line ∧ ¬ line <:+: ("REDACTED" : Text).toList

instance (line : List Code) : Decidable (ClearOfMarker line) :=
  inferInstanceAs (Decidable (_ ∧ _))

theorem ClearOfMarker.ne_nil {line : List Code} (clear : ClearOfMarker line) : line ≠ [] := by
  rintro rfl
  exact clear.2 List.nil_infix

theorem ClearOfMarker.not_marker {line : List Code} (clear : ClearOfMarker line) :
    ¬ line <:+: marker := by
  intro found
  have shape : marker = [] ++ Code.char '*' ::
      ([] ++ Code.char '*' :: ([] ++ Code.char '*' :: (("REDACTED" : Text).toList ++
      Code.char '*' :: ([] ++ Code.char '*' :: ([] ++ Code.char '*' :: []))))) := by decide
  have beside : ∀ {after : List Code}, line <:+: [] ++ Code.char '*' :: after → line <:+: after := by
    intro after inside
    rcases infix_of_mark clear.1 inside with none | rest
    · exact absurd (List.infix_nil.mp none) clear.ne_nil
    · exact rest
  rw [shape] at found
  rcases infix_of_mark clear.1 (beside (beside (beside found))) with word | rest
  · exact clear.2 word
  · exact clear.ne_nil (List.infix_nil.mp (beside (beside rest)))

theorem ClearOfMarker.infix_around {line before after : List Code} (clear : ClearOfMarker line)
    (found : line <:+: before ++ marker ++ after) : line <:+: before ∨ line <:+: after := by
  have opens : marker = Code.char '*' :: marker.tail := by decide
  have closes : marker.tail = marker.tail.dropLast ++ [Code.char '*'] := by decide
  have shape : before ++ marker ++ after =
      before ++ Code.char '*' :: (marker.tail.dropLast ++ Code.char '*' :: after) := by
    rw [opens, closes]
    simp
  rw [shape] at found
  rcases infix_of_mark clear.1 found with left | rest
  · exact .inl left
  · rcases infix_of_mark clear.1 rest with inside | right
    · have part : marker.tail.dropLast <:+: marker :=
        (List.dropLast_prefix _).isInfix.trans (List.tail_suffix _).isInfix
      exact absurd (inside.trans part) clear.not_marker
    · exact .inr right

theorem ClearOfMarker.infix_of_joined {line : List Code} {kept : List (List Code)}
    (clear : ClearOfMarker line) (found : line <:+: marker.intercalate kept) :
    ∃ piece ∈ kept, line <:+: piece := by
  induction kept with
  | nil => exact absurd (List.infix_nil.mp found) clear.ne_nil
  | cons first others ih =>
      by_cases last : others = []
      · subst last
        exact ⟨first, List.mem_cons_self, by simpa using found⟩
      · rw [List.intercalate_cons_of_ne_nil last] at found
        rcases clear.infix_around found with here | later
        · exact ⟨first, List.mem_cons_self, here⟩
        · rcases ih later with ⟨piece, member, inside⟩
          exact ⟨piece, List.mem_cons_of_mem _ member, inside⟩

/-- A replacement by the marker brings no line into a text. -/
theorem ClearOfMarker.infix_before {line pattern text : List Code} (clear : ClearOfMarker line)
    (filled : pattern ≠ []) (found : line <:+: replacing pattern marker text) :
    line <:+: text := by
  rcases replacing_cuts filled marker text with ⟨kept, cuts, replaced⟩
  rw [replaced] at found
  rcases clear.infix_of_joined found with ⟨piece, member, inside⟩
  rw [cuts.whole]
  exact inside.trans (infix_of_mem_intercalate member)

theorem ClearOfMarker.gone {pattern : List Code} (clear : ClearOfMarker pattern)
    (text : List Code) : ¬ pattern <:+: replacing pattern marker text := by
  rcases replacing_cuts clear.ne_nil marker text with ⟨kept, cuts, replaced⟩
  intro found
  rw [replaced] at found
  rcases clear.infix_of_joined found with ⟨piece, member, inside⟩
  exact cuts.free piece member inside

def sweep (lines : List (List Code)) (text : List Code) : List Code :=
  lines.foldl (fun text line => replacing line marker text) text

theorem sweep_append (first second : List (List Code)) (text : List Code) :
    sweep (first ++ second) text = sweep second (sweep first text) :=
  List.foldl_append

theorem sweep_of_absent {lines : List (List Code)} {text : List Code}
    (absent : ∀ line ∈ lines, ¬ line <:+: text) : sweep lines text = text := by
  induction lines with
  | nil => rfl
  | cons first rest ih =>
      have same := replacing_of_absent marker (absent first List.mem_cons_self)
      show sweep rest (replacing first marker text) = text
      rw [same]
      exact ih fun line member => absent line (List.mem_cons_of_mem _ member)

theorem ClearOfMarker.infix_before_sweep {lines : List (List Code)} {line text : List Code}
    (clear : ClearOfMarker line) (filled : ∀ pattern ∈ lines, pattern ≠ [])
    (found : line <:+: sweep lines text) : line <:+: text := by
  induction lines generalizing text with
  | nil => exact found
  | cons first rest ih =>
      have earlier := ih (fun pattern member => filled pattern (List.mem_cons_of_mem _ member)) found
      exact clear.infix_before (filled first List.mem_cons_self) earlier

theorem sweep_hides {lines : List (List Code)} (clear : ∀ line ∈ lines, ClearOfMarker line)
    (text : List Code) : ∀ line ∈ lines, ¬ line <:+: sweep lines text := by
  intro line member found
  rcases List.append_of_mem member with ⟨before, after, rfl⟩
  rw [sweep_append] at found
  have filled : ∀ pattern ∈ after, pattern ≠ [] := fun pattern inside =>
    (clear pattern (List.mem_append_right before (List.mem_cons_of_mem _ inside))).ne_nil
  have early := (clear line member).infix_before_sweep filled found
  exact (clear line member).gone _ early

-- Lines before it are no shorter and not the same, so none of them is a part of it.
theorem sweep_line {lines : List (List Code)} {line : List Code}
    (clear : ∀ line ∈ lines, ClearOfMarker line) (distinct : lines.Nodup)
    (sorted : lines.Pairwise fun first second => second.length ≤ first.length)
    (member : line ∈ lines) : sweep lines line = marker := by
  rcases List.append_of_mem member with ⟨before, after, rfl⟩
  have early : ∀ other ∈ before, ¬ other <:+: line := by
    intro other inside found
    have longer : line.length ≤ other.length :=
      (List.pairwise_append.mp sorted).2.2 other inside line List.mem_cons_self
    have same := found.eq_of_length_le longer
    exact (List.nodup_append.mp distinct).2.2 other inside line List.mem_cons_self same
  have late : ∀ other ∈ after, ¬ other <:+: marker := fun other inside =>
    (clear other (List.mem_append_right before (List.mem_cons_of_mem _ inside))).not_marker
  calc sweep (before ++ line :: after) line
      = sweep after (replacing line marker (sweep before line)) := sweep_append before _ line
    _ = sweep after (replacing line marker line) := by rw [sweep_of_absent early]
    _ = sweep after marker := by rw [replacing_self (clear line member).ne_nil]
    _ = marker := sweep_of_absent late

theorem mem_patterns {masker : Masker} {line : List Code} :
    line ∈ masker.patterns ↔ line ∈ masker.lines :=
  (List.mergeSort_perm masker.lines _).mem_iff

theorem nodup_patterns {masker : Masker} (distinct : masker.lines.Nodup) :
    masker.patterns.Nodup :=
  (List.mergeSort_perm masker.lines _).nodup_iff.mpr distinct

theorem pairwise_patterns (masker : Masker) :
    masker.patterns.Pairwise fun first second => second.length ≤ first.length :=
  pairwise_largestFirst List.length masker.lines

structure Redacts (masker : Masker) (text shown : List Code) : Prop where
  hidden : ∀ line ∈ masker.lines, ¬ line <:+: shown
  settled : masker.redact shown = shown
  unchanged : shown = text ↔ ∀ line ∈ masker.lines, ¬ line <:+: text
  whole : text ∈ masker.lines → shown = marker

theorem redact_of_absent {masker : Masker} {text : List Code}
    (absent : ∀ line ∈ masker.lines, ¬ line <:+: text) : masker.redact text = text :=
  sweep_of_absent fun line member => absent line (mem_patterns.mp member)

theorem redact_hides {masker : Masker} (clear : ∀ line ∈ masker.lines, ClearOfMarker line)
    (text : List Code) : ∀ line ∈ masker.lines, ¬ line <:+: masker.redact text := by
  intro line member
  have clear : ∀ line ∈ masker.patterns, ClearOfMarker line :=
    fun line member => clear line (mem_patterns.mp member)
  exact sweep_hides clear text line (mem_patterns.mpr member)

theorem redacts {masker : Masker} (distinct : masker.lines.Nodup)
    (clear : ∀ line ∈ masker.lines, ClearOfMarker line) (text : List Code) :
    masker.Redacts text (masker.redact text) where
  hidden := redact_hides clear text
  settled := redact_of_absent (redact_hides clear text)
  unchanged := by
    constructor
    · intro same
      rw [← same]
      exact redact_hides clear text
    · exact redact_of_absent
  whole := fun member =>
    sweep_line (fun line inside => clear line (mem_patterns.mp inside)) (nodup_patterns distinct)
      (pairwise_patterns masker) (mem_patterns.mpr member)

end SecretFill.Masker
