import SecretFill.Tool
/-!
How a call opens. Before it looks at any file it either has its answer, or it has the job of a run
and a masker of its own that has registered nothing yet.
-/

namespace SecretFill.Tool

variable {context : Option Server.Context} {server : Server.Context} {arguments : FileArguments}
  {job : Job} {masker : Masker}

def opening (context : Option Server.Context) (arguments : FileArguments) :
    Except (Except Escape Reply) (Job × Masker) :=
  match context with
  | none => .error (.ok contextMissing)
  | some server =>
      match server.masker arguments.minMaskLength with
      | .error fault => .error (.error (.negativeLength fault))
      | .ok masker =>
          match jobOf server.settings arguments with
          | .error problem => .error (.ok (.failure (argumentsText arguments.secrets problem)))
          | .ok job => .ok (job, masker)

theorem interpolateFile_eq (context : Option Server.Context) (arguments : FileArguments)
    (ask : Nat → Text → Answer) (files : Files) :
    interpolateFile context arguments ask files =
      match opening context arguments with
      | .error outcome => ⟨[], [], files, outcome⟩
      | .ok (job, masker) => callOf (Run.run job masker ask files) := by
  cases context with
  | none => rfl
  | some server =>
      cases made : server.masker arguments.minMaskLength with
      | error fault => simp only [interpolateFile, opening, made]
      | ok masker =>
          cases checked : jobOf server.settings arguments with
          | error problem => simp only [interpolateFile, opening, made, checked]
          | ok job => simp only [interpolateFile, opening, made, checked]

theorem masker_fresh {minLength : Option Int} (made : server.masker minLength = .ok masker) :
    masker = Masker.ofLength masker.minLength := by
  unfold Server.Context.masker at made
  split at made
  · cases made
    rfl
  · unfold Masker.ofLength? at made
    split at made
    · cases made
    · cases made
      rfl

theorem opening_made (opens : opening context arguments = .ok (job, masker)) :
    ∃ server, context = some server ∧ server.masker arguments.minMaskLength = .ok masker := by
  cases context with
  | none => cases opens
  | some server =>
      cases made : server.masker arguments.minMaskLength with
      | error fault =>
          simp only [opening, made] at opens
          cases opens
      | ok fresh =>
          cases checked : jobOf server.settings arguments with
          | error problem =>
              simp only [opening, made, checked] at opens
              cases opens
          | ok other =>
              simp only [opening, made, checked] at opens
              cases opens
              exact ⟨server, rfl, made⟩

theorem opening_fresh (opens : opening context arguments = .ok (job, masker)) :
    masker = Masker.ofLength masker.minLength := by
  rcases opening_made opens with ⟨server, _, made⟩
  exact masker_fresh made

theorem files_callOf (history : Run.History) : (callOf history).files = history.files := by
  unfold callOf
  split
  · rfl
  · split
    · rfl
    · rfl

end SecretFill.Tool
