import SecretFill.Proofs.Forest.Planting
import SecretFill.Proofs.Interpolation.Substitution
import SecretFill.Proofs.Outcome
import SecretFill.Proofs.Yaml.Encodable
/-!
What comes of interpolating a text, its records apart. It fails in four ways: the text is not read
as documents, a scalar of it has no value, the walk over the documents stops, or what is filled in
cannot be written.
-/

namespace SecretFill

open SecretFill.Data SecretFill.Forest

/-! ### Reading the documents -/

theorem read_of_readDocuments {text source : Text} {stream : Stream}
    (read : readDocuments text source = .ok stream) : Yaml.read text.toList = .ok stream := by
  unfold readDocuments at read
  split at read
  · next result done =>
      cases read
      exact done
  · cases read
  · cases read

theorem readDocuments_of_read {text : Text} {stream : Stream}
    (read : Yaml.read text.toList = .ok stream) (source : Text) :
    readDocuments text source = .ok stream := by
  simp only [readDocuments, read]

theorem readDocuments_placed {text : Text} {failure : Yaml.Failure}
    (unread : Yaml.read text.toList = .error failure) (placed : ∀ fault, failure ≠ .scalar fault)
    (source : Text) :
    readDocuments text source = .error (.document ⟨source, text, failure⟩) := by
  unfold readDocuments
  rw [unread]
  cases failure with
  | scalar fault => exact absurd rfl (placed fault)
  | _ => rfl

/-! ### Interpolating -/

/-- Why a text is not interpolated. -/
inductive Fails (text source : Text) (map : SubstitutionMap) : InterpolationError → Prop
  | scalar {fault : Yaml.ScalarFault} (unread : Yaml.read text.toList = .error (.scalar fault)) :
      Fails text source map (.scalar fault)
  | document {failure : Yaml.Failure} (unread : Yaml.read text.toList = .error failure)
      (placed : ∀ fault, failure ≠ .scalar fault) :
      Fails text source map (.document ⟨source, text, failure⟩)
  | barred {stream : Stream} {error : PlantError} (read : Yaml.read text.toList = .ok stream)
      (barred : Barred stream.cells stream.roots.length 0 stream.roots error) :
      Fails text source map (reported error)
  | unwritable {stream changed : Stream} {substitutions : List Substitution}
      {error : Yaml.WriteError} (read : Yaml.read text.toList = .ok stream)
      (filled : stream.roots ≠ []) (substituted : substitute map stream = .ok (changed, substitutions))
      (unwritten : Yaml.write changed = .error error) :
      Fails text source map (.unwritable error)

section

variable {text source : Text} {map : SubstitutionMap} {verbose : Bool} {stream changed : Stream}
  {error : InterpolationError}

theorem substitute_error_iff :
    substitute map stream = .error error ↔
      ∃ stop, Barred stream.cells stream.roots.length 0 stream.roots stop ∧ error = reported stop := by
  rw [← plantAll_error_iff _ _ Forest.empty]
  cases planted : plantAll stream.cells stream.roots.length 0 stream.roots Forest.empty with
  | error other =>
      simp only [substitute, planted]
      constructor <;> (rintro ⟨⟩; rfl)
  | ok result =>
      obtain ⟨plots, forest⟩ := result
      obtain ⟨_, _, done, -⟩ := substitute_of_planted map planted
      simp [done]

theorem interpolate_outcome :
    (interpolate text map verbose source).outcome = (do
      let stream ← readDocuments text source
      if stream.roots.isEmpty then .ok ⟨text, []⟩
      else
        let result ← substitute map stream
        let document ← (Yaml.write result.1).mapError .unwritable
        .ok ⟨document, result.2⟩) := by
  simp only [interpolate, outcome_andThen, Logged.ofExcept]
  refine congrArg (readDocuments text source >>= ·) (funext fun stream => ?_)
  by_cases empty : stream.roots.isEmpty
  · simp only [if_pos empty, outcome_after]
    rfl
  · simp only [if_neg empty, outcome_after, outcome_andThen]
    refine congrArg (substitute map stream >>= ·) (funext fun result => ?_)
    cases Yaml.write result.1 <;> rfl

theorem interpolate_without_documents (read : readDocuments text source = .ok stream)
    (none : stream.roots = []) : (interpolate text map verbose source).outcome = .ok ⟨text, []⟩ := by
  rw [interpolate_outcome, read, bind_ok, if_pos (List.isEmpty_iff.mpr none)]

theorem interpolate_of_write {substitutions : List Substitution} {written : Text}
    (read : readDocuments text source = .ok stream) (filled : stream.roots ≠ [])
    (done : substitute map stream = .ok (changed, substitutions))
    (wrote : Yaml.write changed = .ok written) :
    (interpolate text map verbose source).outcome = .ok ⟨written, substitutions⟩ := by
  rw [interpolate_outcome, read, bind_ok, if_neg (mt List.isEmpty_iff.mp filled), done, bind_ok, wrote]
  rfl

/-- Interpolation of a text that could be decoded makes a text that can be encoded. -/
theorem whole_interpolate {report : Report} (whole : Text.Utf8.Whole text.toList)
    (ended : (interpolate text map verbose source).outcome = .ok report) :
    Text.Utf8.Whole report.document.toList := by
  rw [interpolate_outcome] at ended
  obtain ⟨stream, -, ended⟩ := bind_eq_ok ended
  split at ended
  · cases ended
    exact whole
  · obtain ⟨result, -, ended⟩ := bind_eq_ok ended
    obtain ⟨document, wrote, ended⟩ := bind_eq_ok ended
    cases ended
    cases written : Yaml.write result.1 with
    | error error =>
        rw [written] at wrote
        cases wrote
    | ok text =>
        rw [written] at wrote
        cases wrote
        exact (Yaml.whole_write result.1).of_eq_ok written

theorem fails_of_interpolate_error
    (failed : (interpolate text map verbose source).outcome = .error error) :
    Fails text source map error := by
  rw [interpolate_outcome] at failed
  -- The steps in the order in which they are taken; the first that fails is the reason.
  cases read : Yaml.read text.toList with
  | error failure =>
      by_cases scalar : ∃ fault, failure = .scalar fault
      · obtain ⟨fault, rfl⟩ := scalar
        simp only [readDocuments, read] at failed
        cases failed
        exact .scalar read
      · have placed : ∀ fault, failure ≠ .scalar fault := not_exists.mp scalar
        rw [readDocuments_placed read placed source] at failed
        cases failed
        exact .document read placed
  | ok stream =>
      rw [readDocuments_of_read read source, bind_ok] at failed
      by_cases empty : stream.roots.isEmpty = true
      · rw [if_pos empty] at failed
        cases failed
      rw [if_neg empty] at failed
      cases done : substitute map stream with
      | error stopped =>
          obtain ⟨stop, barred, rfl⟩ := substitute_error_iff.mp done
          rw [done] at failed
          cases failed
          exact .barred read barred
      | ok result =>
          obtain ⟨changed, substitutions⟩ := result
          rw [done, bind_ok] at failed
          cases written : Yaml.write changed with
          | ok document =>
              rw [written] at failed
              cases failed
          | error refused =>
              rw [written] at failed
              cases failed
              exact .unwritable read (mt List.isEmpty_iff.mpr empty) done written

theorem Fails.interpolate_error (verbose : Bool) (fails : Fails text source map error) :
    (interpolate text map verbose source).outcome = .error error := by
  rw [interpolate_outcome]
  cases fails with
  | scalar unread =>
      simp only [readDocuments, unread]
      rfl
  | document unread placed =>
      rw [readDocuments_placed unread placed source]
      rfl
  | @barred stream stop read barred =>
      have stops : substitute map stream = .error (reported stop) :=
        substitute_error_iff.mpr ⟨stop, barred, rfl⟩
      rw [readDocuments_of_read read source, bind_ok, if_neg (mt List.isEmpty_iff.mp barred.filled),
          stops]
      rfl
  | @unwritable stream changed substitutions refused read filled done unwritten =>
      rw [readDocuments_of_read read source, bind_ok, if_neg (mt List.isEmpty_iff.mp filled), done,
        bind_ok, unwritten]
      rfl

theorem interpolate_error_iff (verbose : Bool) :
    (interpolate text map verbose source).outcome = .error error ↔ Fails text source map error :=
  ⟨fails_of_interpolate_error, Fails.interpolate_error verbose⟩

end

end SecretFill
