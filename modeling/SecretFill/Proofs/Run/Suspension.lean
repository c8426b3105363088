import SecretFill.Proofs.Run.Progress
/-!
A run that waits while others write. It has only looked whether its document is there, and a
document that is there stays there; so whatever the files become meanwhile, the run comes to what it
would have come to on them in one go.
-/

namespace SecretFill

namespace Files

def Has (files : Files) (document : Location) : Prop :=
  ∃ bytes, files.document document = .ok bytes

theorem Has.set {files : Files} {document : Location} (has : files.Has document) (written : Way)
    (bytes : List UInt8) : (files.set written bytes).Has document := by
  rcases has with ⟨old, found⟩
  rcases document_eq_ok.mp found with ⟨way, leads⟩
  exact ⟨_, document_eq_ok.mpr ⟨way, find_set written bytes leads⟩⟩

def Next (before after : Files) : Prop :=
  after = before ∨ ∃ way bytes, after = before.set way bytes

theorem Has.next {before after : Files} {document : Location} (has : before.Has document)
    (next : Next before after) : after.Has document := by
  rcases next with rfl | ⟨way, bytes, rfl⟩
  · exact has
  · exact has.set way bytes

end Files

namespace Run

theorem next_proceed (job : Job) (references : List Reference) (files : Files) (step : Fetch.Step) :
    files.Next (proceed job references files step).files := by
  unfold proceed
  split
  · exact .inl rfl
  · exact .inl rfl
  · next masker fetched _ =>
      rcases conclude_cases job references fetched masker files with
        ⟨error, _, same⟩ | ⟨result, _, ⟨wrote⟩⟩
      · exact .inl same
      · exact .inr ⟨_, _, wrote.written⟩

theorem next_begin (job : Job) (masker : Masker) (files : Files) :
    files.Next (begin job masker files).files := by
  unfold begin
  split
  · exact .inl rfl
  · split
    · exact .inl rfl
    · exact next_proceed job _ files _

theorem proceed_elsewhere {job : Job} {references : List Reference} {files : Files}
    {step : Fetch.Step} {waiting : Waiting}
    (paused : (proceed job references files step).state = .paused waiting) (other : Files) :
    proceed job references other step = { proceed job references files step with files := other } := by
  unfold proceed at paused ⊢
  split at paused
  · rfl
  · cases paused
  · next masker fetched _ =>
      rcases conclude_cases job references fetched masker files with
        ⟨error, ended, _⟩ | ⟨result, ended, _⟩
      · rw [ended] at paused
        cases paused
      · rw [ended] at paused
        cases paused

theorem files_of_paused {job : Job} {references : List Reference} {files : Files}
    {step : Fetch.Step} {waiting : Waiting}
    (paused : (proceed job references files step).state = .paused waiting) :
    (proceed job references files step).files = files :=
  congrArg Turn.files (proceed_elsewhere paused files)

/-- A run that begins with a request has found its document, and begins so wherever it is. -/
theorem begin_elsewhere {job : Job} {masker : Masker} {files : Files} {waiting : Waiting}
    (paused : (begin job masker files).state = .paused waiting) :
    files.Has job.document ∧ ∀ other : Files, other.Has job.document →
      begin job masker other = { begin job masker files with files := other } := by
  cases found : files.document job.document with
  | error error =>
      simp only [begin, found] at paused
      cases paused
  | ok bytes =>
      refine ⟨⟨bytes, found⟩, ?_⟩
      rintro other ⟨held, there⟩
      simp only [begin, found] at paused
      simp only [begin, found, there]
      split at paused
      · cases paused
      · next references _ =>
          have paused : (proceed job references files (Fetch.next masker [] references)).state =
            .paused waiting := paused
          rw [proceed_elsewhere paused other]

variable {job : Job} {masker : Masker} {ask : Nat → Text → Answer} {files : Files}
  {progress : Progress} {waiting : Waiting}

/-- A run that comes, on whatever files, to what it would come to on them in one go. -/
structure Resumes (job : Job) (masker : Masker) (ask : Nat → Text → Answer) (files : Files)
    (progress : Progress) : Prop where
  there : files.Has job.document
  finish : ∀ other : Files, other.Has job.document →
    progress.finish ask other = run job masker ask other

theorem Resumes.next {after : Files} (resumes : Resumes job masker ask files progress)
    (next : files.Next after) : Resumes job masker ask after progress where
  there := resumes.there.next next
  finish := resumes.finish

theorem resumes_begin (ask : Nat → Text → Answer)
    (paused : (begin job masker files).state = .paused waiting) :
    Resumes job masker ask files (.ofTurn (begin job masker files)) := by
  rcases begin_elsewhere paused with ⟨there, elsewhere⟩
  constructor
  · exact there
  · intro other has
    have whole := finish_ofTurn ask (begin job masker other)
    rw [elsewhere other has] at whole
    rw [run, elsewhere other has]
    exact whole

theorem Resumes.after (resumes : Resumes job masker ask files progress)
    (paused : progress.state = .paused waiting) {later : Waiting}
    (again : (progress.turn ask waiting files).state = .paused later) :
    Resumes job masker ask files
      (progress.after waiting.locator (progress.turn ask waiting files)) where
  there := resumes.there
  finish := by
    intro other has
    -- The turn has only asked for the next secret, so it might have been taken on the other files.
    have elsewhere : progress.turn ask waiting other =
        { progress.turn ask waiting files with files := other } := proceed_elsewhere again other
    have whole := finish_after paused ask other
    rw [elsewhere] at whole
    rw [← resumes.finish other has, ← whole]
    rfl

end Run

end SecretFill
