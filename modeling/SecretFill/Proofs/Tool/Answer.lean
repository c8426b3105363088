import SecretFill.Proofs.Interpolation.Outcome
import SecretFill.Proofs.Yaml.Refusal
import SecretFill.Proofs.Yaml.Tidy
import SecretFill.Proofs.Yaml.Unwritable
import SecretFill.Tool
/-!
What comes of interpolating a text. Whatever is wrong with the text or the map, there is an answer,
but for three things: a scalar of the text has no value, an integer that is a key has too many
digits for a path, or an integer has too many digits to be written.
-/

namespace SecretFill

open SecretFill.Data SecretFill.Forest

theorem carries_substituted {map : SubstitutionMap} {stream changed : Stream}
    {substitutions : List Substitution} (closed : stream.Closed)
    (done : substitute map stream = .ok (changed, substitutions)) {root : Value}
    (member : root ∈ changed.roots) {number : Int}
    (carries : Carries changed.cells root (.atom (.int number))) :
    ∃ root ∈ stream.roots, Carries stream.cells root (.atom (.int number)) := by
  cases planted : plantAll stream.cells stream.roots.length 0 stream.roots Forest.empty with
  | error stopped =>
      simp only [substitute, planted] at done
      cases done
  | ok result =>
      obtain ⟨-, -, stands⟩ := plantAll_faithful ordered_empty planted
      obtain ⟨trees, unfolds⟩ := planted_unfold stands closed.cells closed.roots
      obtain ⟨_, _, again, replaced, kept⟩ := substitute_replaces map planted
      cases again.symm.trans done
      obtain ⟨_, among, there⟩ := forall₂_left (replaced trees unfolds) member
      obtain ⟨tree, inTrees, rfl⟩ := List.mem_map.mp among
      obtain ⟨start, inRoots, here⟩ := forall₂_left unfolds.flip inTrees
      exact ⟨start, inRoots, carries_replaced closed.cells map.replace kept here there carries⟩

namespace Tool

/-- What no answer is given to: a scalar without a value, which the syntax or a node of a document
is to blame for; a key without a text, if that is what stops the walk over the documents; and an
integer of a document that cannot be written. -/
inductive Unforeseen (text : Text) (map : SubstitutionMap) : InterpolationError → Prop
  | scalar {fault : Yaml.ScalarFault} (unread : Yaml.read text.toList = .error (.scalar fault))
      (blamed : Yaml.Syntactic (.scalar fault) ∨
        ∃ graph, Yaml.IsDocument text.toList graph ∧ Yaml.Refuses graph.nodes fault) :
      Unforeseen text map (.scalar fault)
  | unnamed {stream : Stream} (read : Yaml.read text.toList = .ok stream)
      (barred : Barred stream.cells stream.roots.length 0 stream.roots .unnamed) :
      Unforeseen text map .unnamedKey
  | number {stream changed : Stream} {substitutions : List Substitution}
      (read : Yaml.read text.toList = .ok stream)
      (substituted : substitute map stream = .ok (changed, substitutions))
      (unwritten : Yaml.write changed = .error (.number .tooManyDigitsWritten))
      (carried : ∃ root ∈ stream.roots, ∃ number, Decimal.writable number = false ∧
        Carries stream.cells root (.atom (.int number))) :
      Unforeseen text map (.unwritable (.number .tooManyDigitsWritten))

theorem unforeseen_iff {text : Text} {map : SubstitutionMap} {error : InterpolationError}
    (source : Text) :
    Unforeseen text map error ↔ Fails text source map error ∧ error.isForeseen = false := by
  constructor
  · intro unforeseen
    cases unforeseen with
    | scalar unread => exact ⟨.scalar unread, rfl⟩
    | unnamed read barred => exact ⟨.barred read barred, rfl⟩
    | number read done unwritten carried =>
        obtain ⟨root, member, -⟩ := carried
        exact ⟨.unwritable read (List.ne_nil_of_mem member) done unwritten, rfl⟩
  · rintro ⟨fails, escapes⟩
    cases fails with
    | scalar unread => exact .scalar unread (Yaml.read_scalar unread)
    | document => cases escapes
    | @barred stream stop read barred =>
        cases stop with
        | cycle path => cases escapes
        | unnamed => exact .unnamed read barred
    | @unwritable stream changed substitutions refused read filled done unwritten =>
        cases refused with
        | foreign shown => cases escapes
        | tooDeep => cases escapes
        | number fault =>
            obtain ⟨rfl, root, member, number, long, carries⟩ :=
              Yaml.write_overlong unwritten fault rfl
            obtain ⟨start, inRoots, carried⟩ :=
              carries_substituted (Yaml.read_tidy read).closed done member carries
            exact .number read done unwritten ⟨start, inRoots, number, long, carried⟩

section

variable (document : Text) (map : SubstitutionMap) (verbose : Bool)

theorem interpolateText_outcome :
    (interpolateText document map verbose).outcome =
      match (interpolate document map verbose stringSource).outcome with
      | .ok report => .ok (.document report)
      | .error error =>
          if error.isForeseen then .ok (.failure error.message) else .error error := by
  unfold interpolateText
  dsimp only
  cases (interpolate document map verbose stringSource).outcome with
  | ok report => rfl
  | error error =>
      dsimp only
      split <;> rfl

theorem interpolateText_error_iff (error : InterpolationError) :
    (interpolateText document map verbose).outcome = .error error ↔
      Unforeseen document map error := by
  rw [unforeseen_iff stringSource, ← interpolate_error_iff verbose,
    interpolateText_outcome]
  cases (interpolate document map verbose stringSource).outcome with
  | ok report => simp
  | error other =>
      by_cases foreseen : other.isForeseen
      · simp only [if_pos foreseen, Except.error.injEq]
        refine iff_of_false (fun same => nomatch same) ?_
        rintro ⟨rfl, escapes⟩
        simp [foreseen] at escapes
      · simp only [if_neg foreseen, Except.error.injEq]
        refine ⟨fun same => ⟨same, ?_⟩, And.left⟩
        exact same ▸ Bool.of_not_eq_true foreseen

theorem interpolateText_failure_iff (message : Text) :
    (interpolateText document map verbose).outcome = .ok (.failure message) ↔
      ∃ error, Fails document stringSource map error ∧ ¬ Unforeseen document map error ∧
        message = error.message := by
  have unforeseen error := interpolateText_error_iff document map verbose error
  simp only [← unforeseen, ← interpolate_error_iff verbose, interpolateText_outcome]
  cases (interpolate document map verbose stringSource).outcome with
  | ok report => simp
  | error error =>
      by_cases foreseen : error.isForeseen
      · simp [foreseen, eq_comm]
      · simp [foreseen]

/-- Interpolating a text has no outcome but these. An error leaves the tool exactly if it is one of
three kinds, each of them traced to the text; every other one is told in an answer that says so, as
is every rejection of the text that has a place in it; and an answer says that it succeeded or that
it failed. -/
theorem interpolateText_answers :
    (∀ error, (interpolateText document map verbose).outcome = .error error ↔
      Unforeseen document map error) ∧
    (∀ message, (interpolateText document map verbose).outcome = .ok (.failure message) ↔
      ∃ error, Fails document "<string>" map error ∧ ¬ Unforeseen document map error ∧
        message = error.message) ∧
    (∀ failure, Yaml.read document.toList = .error failure → (∀ fault, failure ≠ .scalar fault) →
      (interpolateText document map verbose).outcome =
        .ok (.failure ("Invalid YAML syntax in <string>: " ++ failure.message document.toList))) ∧
    ∀ reply, (interpolateText document map verbose).outcome = .ok reply →
      ∃ (status : Text) (members : _), (status = "success" ∨ status = "failure") ∧
        reply.json = .object (("status", .text status) :: members) := by
  refine ⟨interpolateText_error_iff document map verbose,
    interpolateText_failure_iff document map verbose, fun failure unread placed => ?_,
    fun reply answered => ?_⟩
  · have fails : Fails document stringSource map _ := .document unread placed
    rw [interpolateText_outcome, (interpolate_error_iff verbose).mpr fails]
    rfl
  · cases reply with
    | failure message => exact ⟨_, _, .inr rfl, rfl⟩
    | references found => exact ⟨_, _, .inl rfl, rfl⟩
    | document report => exact ⟨_, _, .inl rfl, rfl⟩
    | result result => exact ⟨_, _, .inl rfl, rfl⟩

theorem interpolateText_lets_month_escape :
    (interpolateText "a: 2001-13-01\n" [] false).outcome = .error (.scalar .month) := by
  decide +kernel

end

end Tool

end SecretFill
