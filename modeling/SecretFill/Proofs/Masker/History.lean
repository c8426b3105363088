import Mathlib.Data.List.Induction
import SecretFill.Proofs.Masker.Registration
import SecretFill.Proofs.Sorting
import SecretFill.Proofs.Text.Division
/-!
What a masker has done after any calls. The log has heard every secret line as often as it came, the
masker holds each of them once, in the order in which they first came, and has told each caller
which were new. It makes no difference to it whether lines come in one value or in several.
-/

namespace SecretFill

open SecretFill.Text

/-- A masker and what it has done so far. The lines to redact are sorted again only when a call has
registered one. -/
structure History where
  masker : Masker
  announced : List (List Code)
  returned : List (List (List Code))
  patterns : List (List Code)

namespace History

def start (minLength : Nat) : History := ⟨Masker.ofLength minLength, [], [], []⟩

def call (history : History) (value : List Code) : History :=
  let masking := history.masker.mask value
  { masker := masking.masker
    announced := history.announced ++ masking.announced
    returned := history.returned ++ [masking.registered]
    patterns := if masking.registered.isEmpty then history.patterns else masking.masker.patterns }

def ofCalls (minLength : Nat) (values : List (List Code)) : History :=
  values.foldl call (start minLength)

end History

def HasSecrets (minLength : Nat) (value : List Code) (secrets : List (List Code)) : Prop :=
  ∃ cut, Divides isBreak value cut ∧
    secrets = cut.filter fun line => decide (line ≠ [] ∧ minLength ≤ line.length)

/-- The elements of a list, each once, in the order of their first places. -/
structure FirstPlaces (all kept : List (List Code)) : Prop where
  same : ∀ line, line ∈ kept ↔ line ∈ all
  ordered : kept.Pairwise fun first second => all.idxOf first < all.idxOf second

structure LongestFirst (lines sorted : List (List Code)) : Prop where
  same : sorted.Perm lines
  ordered : sorted.Pairwise fun first second => second.length < first.length ∨
    second.length = first.length ∧ lines.idxOf first < lines.idxOf second

/-- What masking values has come to. -/
structure Recorded (minLength : Nat) (values : List (List Code)) (history : History) : Prop where
  heard : ∃ parts, List.Forall₂ (HasSecrets minLength) values parts ∧
    history.announced = parts.flatten
  lines : FirstPlaces history.announced history.masker.lines
  solid : ∀ line ∈ history.masker.lines, Code.char '\r' ∉ line ∧ Code.char '\n' ∉ line
  sorted : LongestFirst history.masker.lines history.patterns
  kept : history.patterns = history.masker.patterns

namespace Masker

variable {known : List (List Code)} {line : List Code}

/-! ### Additions -/

theorem additions_append (known first second : List (List Code)) :
    additions known (first ++ second) =
      additions known first ++ additions (known ++ additions known first) second := by
  induction first generalizing known with
  | nil => simp [additions]
  | cons line rest ih =>
      by_cases present : line ∈ known
      · rw [List.cons_append, additions, if_pos present, additions, if_pos present, ih]
      · rw [List.cons_append, additions, if_neg present, additions, if_neg present, ih]
        simp

theorem idxOf_cons_lt {first : List Code} {rest : List (List Code)} {early late : List Code}
    (apart : first ≠ early) (apart' : first ≠ late)
    (less : rest.idxOf early < rest.idxOf late) :
    (first :: rest).idxOf early < (first :: rest).idxOf late := by
  rw [List.idxOf_cons_ne _ apart, List.idxOf_cons_ne _ apart']
  omega

theorem pairwise_additions (known lines : List (List Code)) :
    (additions known lines).Pairwise fun first second =>
      lines.idxOf first < lines.idxOf second := by
  induction lines generalizing known with
  | nil => exact List.Pairwise.nil
  | cons line rest ih =>
      -- Elements other than the first one keep their order, one place further on.
      have shifted {known : List (List Code)} (present : line ∈ known) :
          (additions known rest).Pairwise fun first second =>
            (line :: rest).idxOf first < (line :: rest).idxOf second := by
        refine (ih known).imp_of_mem fun {first second} member member' less => ?_
        have fresh := (mem_additions.mp member).2
        have fresh' := (mem_additions.mp member').2
        exact idxOf_cons_lt (fun same => fresh (same ▸ present))
          (fun same => fresh' (same ▸ present)) less
      by_cases present : line ∈ known
      · rw [additions, if_pos present]
        exact shifted present
      · rw [additions, if_neg present, List.pairwise_cons]
        refine ⟨fun other member => ?_, shifted (by simp)⟩
        have fresh := (mem_additions.mp member).2
        have apart : line ≠ other := fun same => fresh (by simp [same])
        rw [List.idxOf_cons_self, List.idxOf_cons_ne _ apart]
        exact Nat.succ_pos _

theorem additions_firstPlaces (lines : List (List Code)) :
    FirstPlaces lines (additions [] lines) := by
  constructor
  · intro line
    simp [mem_additions]
  · exact pairwise_additions [] lines

/-! ### Secret lines -/

theorem hasSecrets_iff {masker : Masker} {value : List Code} {secrets : List (List Code)} :
    HasSecrets masker.minLength value secrets ↔ secrets = masker.secretLines value := by
  have same : (fun line => decide (line ≠ [] ∧ masker.minLength ≤ line.length)) =
      masker.isSecret := by
    funext line
    rw [Bool.eq_iff_iff, decide_eq_true_iff, isSecret_iff]
  rw [HasSecrets, same]
  constructor
  · rintro ⟨cut, division, rfl⟩
    rw [division.eq_pieces]
    rfl
  · rintro rfl
    exact ⟨_, divides_pieces isBreak value, rfl⟩

theorem breakless_of_secret {masker : Masker} {value : List Code}
    (member : line ∈ masker.secretLines value) : Code.char '\r' ∉ line ∧ Code.char '\n' ∉ line := by
  have free := (divides_pieces isBreak value).free line (mem_secretLines.mp member).1
  constructor
  · intro inside
    exact absurd (free _ inside) (by decide)
  · intro inside
    exact absurd (free _ inside) (by decide)

/-! ### Breaks between values -/

variable {masker : Masker}

/-- A break between two values keeps their secret lines apart, whatever they end and begin with. -/
theorem secretLines_joined (values : List (List Code)) :
    ∀ mark ∈ [("\r\n" : Text).toList, ("\r" : Text).toList, ("\n" : Text).toList],
      masker.secretLines (mark.intercalate values) = values.flatMap masker.secretLines := by
  have breaks : ∀ mark ∈ [("\r\n" : Text).toList, ("\r" : Text).toList, ("\n" : Text).toList],
      mark ≠ [] ∧ mark.all isBreak = true := by decide
  intro mark member
  obtain ⟨filled, separated⟩ := breaks mark member
  exact filter_pieces_intercalate rfl rfl filled (List.all_eq_true.mp separated) values

end Masker

/-! ### Calls -/

namespace History

open Masker

variable {minLength : Nat} {values : List (List Code)} {history : History}

structure Sound (minLength : Nat) (values : List (List Code)) (history : History) : Prop where
  length : history.masker.minLength = minLength
  announced : history.announced = values.flatMap (ofLength minLength).secretLines
  lines : history.masker.lines = additions [] history.announced
  returned : history.returned.flatten = history.masker.lines
  patterns : history.patterns = history.masker.patterns

theorem Sound.call (sound : history.Sound minLength values) (value : List Code) :
    (history.call value).Sound minLength (values ++ [value]) := by
  have secrets : history.masker.secretLines value = (ofLength minLength).secretLines value :=
    secretLines_congr sound.length value
  constructor
  · exact sound.length
  · show history.announced ++ history.masker.secretLines value = _
    rw [secrets, sound.announced, List.flatMap_append, List.flatMap_singleton]
  · show history.masker.lines ++ additions history.masker.lines (history.masker.secretLines value) =
      additions [] (history.announced ++ history.masker.secretLines value)
    rw [additions_append, List.nil_append, ← sound.lines]
  · show (history.returned ++ [(history.masker.mask value).registered]).flatten = _
    rw [List.flatten_append, sound.returned, List.flatten_singleton]
    rfl
  · -- Without a new line the masker is as it was, so the old patterns are still those of its lines.
    by_cases none : (history.masker.mask value).registered = []
    · have same : (history.masker.mask value).masker.lines = history.masker.lines := by
        show history.masker.lines ++ (history.masker.mask value).registered = _
        rw [none, List.append_nil]
      simp only [History.call, none, List.isEmpty_nil, if_true, sound.patterns, Masker.patterns, same]
    · simp only [History.call, List.isEmpty_iff, if_neg none]

theorem ofCalls_append (minLength : Nat) (values : List (List Code)) (value : List Code) :
    ofCalls minLength (values ++ [value]) = (ofCalls minLength values).call value := by
  rw [ofCalls, List.foldl_append]
  rfl

theorem sound_ofCalls (minLength : Nat) (values : List (List Code)) :
    (ofCalls minLength values).Sound minLength values := by
  induction values using List.reverseRecOn with
  | nil => exact ⟨rfl, rfl, rfl, rfl, List.mergeSort_nil.symm⟩
  | append_singleton values value ih =>
      rw [ofCalls_append]
      exact ih.call value

theorem Sound.recorded (sound : history.Sound minLength values) :
    Recorded minLength values history := by
  have places : FirstPlaces history.announced history.masker.lines := by
    rw [sound.lines]
    exact additions_firstPlaces history.announced
  have distinct : history.masker.lines.Nodup := by
    rw [sound.lines]
    have added : ([] ++ additions [] history.announced).Nodup := nodup_additions List.nodup_nil
    simpa using added
  constructor
  · refine ⟨values.map (ofLength minLength).secretLines, ?_, sound.announced⟩
    rw [List.forall₂_map_right_iff, List.forall₂_same]
    intro value _
    show HasSecrets (ofLength minLength).minLength value _
    exact hasSecrets_iff.mpr rfl
  · exact places
  · intro line member
    have heard := (places.same line).mp member
    rw [sound.announced] at heard
    obtain ⟨value, -, secret⟩ := List.mem_flatMap.mp heard
    exact breakless_of_secret secret
  · rw [sound.patterns]
    exact ⟨List.mergeSort_perm _ _, stable_largestFirst List.length distinct⟩
  · exact sound.patterns

theorem Sound.congr {others : List (List Code)} {other : History}
    (sound : history.Sound minLength values) (sound' : other.Sound minLength others)
    (same : history.announced = other.announced) :
    history.masker = other.masker ∧ history.patterns = other.patterns := by
  have maskers : history.masker = other.masker := by
    have lines : history.masker.lines = other.masker.lines := by
      rw [sound.lines, sound'.lines, same]
    have lengths := sound.length.trans sound'.length.symm
    cases one : history.masker
    cases two : other.masker
    simp_all
  exact ⟨maskers, by rw [sound.patterns, sound'.patterns, maskers]⟩

end History

/-- After any calls a new masker holds each secret line of the values once, in the order in which
they first came; the log has heard every one of them each time; each call returned just the lines
that it added; the lines to redact are those that the masker holds, longer ones first and otherwise
in the order in which they were registered. One call with all values, joined by any line break, does
the same. -/
theorem masker_keeps_first_places (minLength : Nat) (values : List (List Code)) :
    let history := History.ofCalls minLength values
    Recorded minLength values history ∧
      history.returned.flatten = history.masker.lines ∧
      (∀ value, ∃ added,
        (history.call value).returned = history.returned ++ [added] ∧
          (history.call value).masker.lines = history.masker.lines ++ added) ∧
      ∀ mark ∈ [("\r\n" : Text).toList, ("\r" : Text).toList, ("\n" : Text).toList],
        let once := History.ofCalls minLength [mark.intercalate values]
        once.masker = history.masker ∧ once.patterns = history.patterns ∧
          once.announced = history.announced := by
  intro history
  have sound : history.Sound minLength values := History.sound_ofCalls minLength values
  refine ⟨sound.recorded, sound.returned, fun value => ⟨_, rfl, rfl⟩, fun mark member => ?_⟩
  intro once
  have sound' := History.sound_ofCalls minLength [mark.intercalate values]
  have heard : once.announced = history.announced := by
    rw [sound.announced, sound'.announced, List.flatMap_singleton,
      Masker.secretLines_joined values mark member]
  obtain ⟨masker, patterns⟩ := sound'.congr sound heard
  exact ⟨masker, patterns, heard⟩

end SecretFill
