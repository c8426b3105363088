import Mathlib.Data.List.Nodup
import SecretFill.Masker
/-!
What a masker has registered. Whatever values it was given, in any order and as often as one likes,
it holds each of their secret lines once and nothing else.
-/

namespace SecretFill.Masker

theorem mem_additions {known lines : List (List Code)} {line : List Code} :
    line ∈ additions known lines ↔ line ∈ lines ∧ line ∉ known := by
  induction lines generalizing known with
  | nil => simp [additions]
  | cons first rest ih =>
      by_cases present : first ∈ known
      · rw [additions, if_pos present, ih, List.mem_cons]
        constructor
        · rintro ⟨later, fresh⟩
          exact ⟨.inr later, fresh⟩
        · rintro ⟨rfl | later, fresh⟩
          · exact absurd present fresh
          · exact ⟨later, fresh⟩
      · rw [additions, if_neg present, List.mem_cons, ih, List.mem_cons, List.mem_append,
          List.mem_singleton]
        by_cases same : line = first
        · simp [same, present]
        · simp [same]

theorem nodup_additions {known lines : List (List Code)} (distinct : known.Nodup) :
    (known ++ additions known lines).Nodup := by
  induction lines generalizing known with
  | nil => simpa [additions] using distinct
  | cons first rest ih =>
      by_cases present : first ∈ known
      · rw [additions, if_pos present]
        exact ih distinct
      · have longer : (known ++ [first]).Nodup := by
          refine List.nodup_append.mpr ⟨distinct, List.nodup_singleton first, ?_⟩
          intro line member other alone same
          rw [List.mem_singleton.mp alone] at same
          exact present (same ▸ member)
        rw [additions, if_neg present]
        simpa using ih longer

def maskAll (masker : Masker) (values : List (List Code)) : Masker :=
  values.foldl (fun masker value => (masker.mask value).masker) masker

theorem maskAll_append (masker : Masker) (values : List (List Code)) (value : List Code) :
    masker.maskAll (values ++ [value]) = ((masker.maskAll values).mask value).masker := by
  simp [maskAll]

@[simp] theorem minLength_mask (masker : Masker) (value : List Code) :
    (masker.mask value).masker.minLength = masker.minLength := rfl

@[simp] theorem minLength_maskAll (masker : Masker) (values : List (List Code)) :
    (masker.maskAll values).minLength = masker.minLength := by
  induction values generalizing masker with
  | nil => rfl
  | cons value rest ih => exact ih (masker.mask value).masker

theorem isSecret_iff {masker : Masker} {line : List Code} :
    masker.isSecret line = true ↔ line ≠ [] ∧ masker.minLength ≤ line.length := by
  simp [isSecret]

theorem mem_secretLines {masker : Masker} {value line : List Code} :
    line ∈ masker.secretLines value ↔
      line ∈ Text.lines value ∧ line ≠ [] ∧ masker.minLength ≤ line.length := by
  rw [secretLines, List.mem_filter, isSecret_iff]

theorem secretLines_congr {first second : Masker} (same : first.minLength = second.minLength)
    (value : List Code) : first.secretLines value = second.secretLines value := by
  have alike : first.isSecret = second.isSecret := by
    funext line
    rw [isSecret, isSecret, same]
  rw [secretLines, secretLines, alike]

theorem mem_mask {masker : Masker} {value line : List Code} :
    line ∈ (masker.mask value).masker.lines ↔
      line ∈ masker.lines ∨ line ∈ masker.secretLines value := by
  simp only [mask, List.mem_append, mem_additions]
  by_cases present : line ∈ masker.lines <;> simp [present]

theorem mem_maskAll {masker : Masker} {values : List (List Code)} {line : List Code} :
    line ∈ (masker.maskAll values).lines ↔
      line ∈ masker.lines ∨ ∃ value ∈ values, line ∈ masker.secretLines value := by
  induction values generalizing masker with
  | nil => simp [maskAll]
  | cons value rest ih =>
      have same : ∀ other, (masker.mask value).masker.secretLines other = masker.secretLines other :=
        secretLines_congr (minLength_mask masker value)
      show line ∈ ((masker.mask value).masker.maskAll rest).lines ↔ _
      rw [ih, mem_mask, or_assoc]
      simp only [same, List.exists_mem_cons_iff]

theorem nodup_maskAll {masker : Masker} (distinct : masker.lines.Nodup)
    (values : List (List Code)) : (masker.maskAll values).lines.Nodup := by
  induction values generalizing masker with
  | nil => exact distinct
  | cons value rest ih => exact ih (nodup_additions distinct)

variable {minLength : Nat} {values : List (List Code)} {line : List Code}

theorem mem_lines_of_fresh :
    line ∈ ((ofLength minLength).maskAll values).lines ↔
      ∃ value ∈ values, line ∈ (ofLength minLength).secretLines value := by
  rw [mem_maskAll]
  simp [ofLength]

end SecretFill.Masker
