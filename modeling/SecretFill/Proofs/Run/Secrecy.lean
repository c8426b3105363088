import SecretFill.Proofs.Interpolation.Secrecy
import SecretFill.Proofs.Run.Course
/-!
What a run tells. The values that a provider returns come out in the text that is written and
nowhere else: neither what a run reports nor what an interpolation logs depends on them.
-/

namespace SecretFill

namespace Run

theorem run_result_unique {job : Job} {masker : Masker} {files : Files}
    {ask other : Nat → Text → Answer} {first second : RunResult}
    (one : (run job masker ask files).outcome = .ok first)
    (two : (run job masker other files).outcome = .ok second) : first = second := by
  have ends := run_ends job masker ask files
  have ends' := run_ends job masker other files
  rw [one] at ends
  rw [two] at ends'
  obtain ⟨references, values, parsed, answered, ⟨wrote⟩⟩ := ends
  obtain ⟨references', values', parsed', answered', ⟨wrote'⟩⟩ := ends'
  cases parsed.symm.trans parsed'
  obtain ⟨bytes, characters, report, _, _, found, _, decoded, interpolated, _, _, _, told⟩ :=
    wrote
  obtain ⟨bytes', characters', report', _, _, found', _, decoded', interpolated', _, _, _,
    told'⟩ := wrote'
  cases found.symm.trans found'
  cases decoded.symm.trans decoded'
  have keys : ((references.map Reference.output).zip values).map Prod.fst =
      ((references.map Reference.output).zip values').map Prod.fst :=
    (map_fst_zip answered.length).trans (map_fst_zip answered'.length).symm
  have reports := reports_alike keys interpolated interpolated'
  rw [told, told', reports.1]

end Run

/-- What an interpolation reports, what it logs and how it fails before it writes depend on the keys
alone, and what a run reports does not depend on the answers of its provider. -/
theorem values_tell_nothing {first second : SubstitutionMap}
    (keys : first.map Prod.fst = second.map Prod.fst) (text source : Text) (verbose : Bool) :
    (∀ error, (∀ fault, error ≠ .unwritable fault) →
      ((interpolate text first verbose source).outcome = .error error ↔
        (interpolate text second verbose source).outcome = .error error)) ∧
    (∀ report other, (interpolate text first verbose source).outcome = .ok report →
      (interpolate text second verbose source).outcome = .ok other →
      report.substitutions = other.substitutions ∧
        substitutedKeys report.substitutions = substitutedKeys other.substitutions ∧
        (interpolate text first verbose source).log =
          (interpolate text second verbose source).log) ∧
    ∀ job masker files ask ask' result result', (Run.run job masker ask files).outcome = .ok result →
      (Run.run job masker ask' files).outcome = .ok result' → result = result' := by
  refine ⟨?_, ?_, ?_⟩
  · intro error early
    exact ⟨error_of_alike keys early, error_of_alike keys.symm early⟩
  · intro report other one two
    obtain ⟨substitutions, log⟩ := reports_alike keys one two
    exact ⟨substitutions, congrArg substitutedKeys substitutions, log⟩
  · intro job masker files ask ask' result result' one two
    exact Run.run_result_unique one two

theorem values_tell_nothing_of_placeholder :
    let first : SubstitutionMap := [("A", "word")]
    let second : SubstitutionMap := [("A", "$\x7bA\x7d")]
    first.map Prod.fst = second.map Prod.fst ∧
      ∃ report other, (interpolate "a: $A\n" first true "doc").outcome = .ok report ∧
        (interpolate "a: $A\n" second true "doc").outcome = .ok other ∧
        report.document ≠ other.document ∧ report.substitutions = other.substitutions := by
  intro first second
  have keys : first.map Prod.fst = second.map Prod.fst := rfl
  have one : (interpolate "a: $A\n" first true "doc").outcome =
      .ok ⟨"a: word\n", [⟨"a", "A"⟩]⟩ := eq_ok_of_toOption (by decide +kernel)
  have two : (interpolate "a: $A\n" second true "doc").outcome =
      .ok ⟨"a: $\x7bA\x7d\n", [⟨"a", "A"⟩]⟩ := eq_ok_of_toOption (by decide +kernel)
  have reports := (values_tell_nothing keys "a: $A\n" "doc" true).2.1 _ _ one two
  exact ⟨keys, _, _, one, two, by decide, reports.1⟩

end SecretFill
