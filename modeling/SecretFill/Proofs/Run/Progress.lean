import SecretFill.Proofs.Masker.Registration
import SecretFill.Proofs.Run.Course
/-!
A run under way. Between two answers a run has asked for some secrets, has announced some lines, and
waits or has ended; the next answer takes it one step further, whatever the files are by then. Run
to its end from any such moment, it does what it would have done in one go.
-/

namespace SecretFill

def Fetch.State.masker : Fetch.State → Masker
  | .paused waiting => waiting.masker
  | .failed masker _ => masker
  | .done masker _ => masker

theorem Fetch.masker_next (masker : Masker) (fetched : SubstitutionMap) (later : List Reference) :
    (Fetch.next masker fetched later).state.masker = masker := by
  cases later <;> rfl

theorem Fetch.masker_resume (waiting : Fetch.Waiting) (answer : Answer) :
    (waiting.resume answer).state.masker =
      match answer.outcome with
      | .error _ => waiting.masker
      | .ok value => (waiting.masker.mask value.toList).masker := by
  cases outcome : answer.outcome with
  | error error => simp only [Fetch.Waiting.resume, outcome, Fetch.State.masker]
  | ok value => simp only [Fetch.Waiting.resume, outcome, Fetch.masker_next]

namespace Run

structure Progress where
  requested : List Text
  log : List Log.Record
  announced : List (List Code)
  state : State

def State.masker : State → Masker
  | .paused waiting => waiting.fetch.masker
  | .finished masker _ => masker

namespace Progress

def ofTurn (turn : Turn) : Progress := ⟨[], turn.log, turn.announced, turn.state⟩

def after (progress : Progress) (locator : Text) (turn : Turn) : Progress :=
  ⟨progress.requested ++ [locator], progress.log ++ turn.log, progress.announced ++ turn.announced,
    turn.state⟩

def answer (progress : Progress) (ask : Nat → Text → Answer) (waiting : Waiting) : Answer :=
  ask progress.requested.length waiting.locator

def turn (progress : Progress) (ask : Nat → Text → Answer) (waiting : Waiting) (files : Files) :
    Turn :=
  waiting.resume (progress.answer ask waiting) files

def finish (progress : Progress) (ask : Nat → Text → Answer) (files : Files) : History :=
  let rest := Turn.complete ask progress.requested.length ⟨[], [], files, progress.state⟩
  { rest with
    requested := progress.requested ++ rest.requested
    log := progress.log ++ rest.log
    announced := progress.announced ++ rest.announced }

end Progress

theorem complete_eq (ask : Nat → Text → Answer) (count : Nat) (turn : Turn) :
    turn.complete ask count =
      let rest := Turn.complete ask count ⟨[], [], turn.files, turn.state⟩
      { rest with log := turn.log ++ rest.log, announced := turn.announced ++ rest.announced } := by
  rcases turn with ⟨log, announced, files, state⟩
  cases state with
  | finished masker outcome => simp [Turn.complete]
  | paused waiting =>
      rw [Turn.complete, Turn.complete]
      simp

theorem finish_ofTurn (ask : Nat → Text → Answer) (turn : Turn) :
    (Progress.ofTurn turn).finish ask turn.files = turn.complete ask 0 := by
  rw [complete_eq]
  rfl

theorem finish_finished {progress : Progress} {masker : Masker} {outcome : Except RunError RunResult}
    (ended : progress.state = .finished masker outcome) (ask : Nat → Text → Answer)
    (files : Files) : progress.finish ask files =
      ⟨progress.requested, progress.log, progress.announced, files, masker, outcome⟩ := by
  simp [Progress.finish, ended, Turn.complete]

theorem finish_after {progress : Progress} {waiting : Waiting}
    (paused : progress.state = .paused waiting) (ask : Nat → Text → Answer) (files : Files) :
    (progress.after waiting.locator (progress.turn ask waiting files)).finish ask
        (progress.turn ask waiting files).files = progress.finish ask files := by
  have next : Turn.complete ask progress.requested.length ⟨[], [], files, .paused waiting⟩ =
      let rest := (progress.turn ask waiting files).complete ask (progress.requested.length + 1)
      { rest with requested := waiting.locator :: rest.requested } := by
    rw [Turn.complete]
    simp [Progress.turn, Progress.answer]
  simp only [Progress.finish, paused, next]
  rw [complete_eq ask _ (progress.turn ask waiting files)]
  simp [Progress.after]

/-- The values that a provider returned when it was asked for some secrets. -/
def Returned (ask : Nat → Text → Answer) (requested : List Text) (value : Text) : Prop :=
  ∃ count locator, requested[count]? = some locator ∧ (ask count locator).outcome = .ok value

theorem not_returned_nil (ask : Nat → Text → Answer) (value : Text) :
    ¬ Returned ask [] value := by
  rintro ⟨count, locator, asked, _⟩
  cases asked

theorem returned_append {ask : Nat → Text → Answer} {requested : List Text} {locator : Text}
    {value : Text} : Returned ask (requested ++ [locator]) value ↔
      Returned ask requested value ∨ (ask requested.length locator).outcome = .ok value := by
  constructor
  · rintro ⟨count, other, asked, answered⟩
    rcases Nat.lt_trichotomy count requested.length with before | last | beyond
    · rw [List.getElem?_append_left before] at asked
      exact .inl ⟨count, other, asked, answered⟩
    · subst last
      simp only [List.getElem?_concat_length, Option.some.injEq] at asked
      subst asked
      exact .inr answered
    · rw [List.getElem?_eq_none (by simp; omega)] at asked
      cases asked
  · rintro (⟨count, other, asked, answered⟩ | answered)
    · have before : count < requested.length := (List.getElem?_eq_some_iff.mp asked).1
      exact ⟨count, other, by rw [List.getElem?_append_left before, asked], answered⟩
    · exact ⟨requested.length, locator, List.getElem?_concat_length, answered⟩

/-- The lines that a masker with some least length has to hide: the secret ones of all values that
were returned. -/
def SecretLine (minLength : Nat) (ask : Nat → Text → Answer) (requested : List Text)
    (line : List Code) : Prop :=
  ∃ value, Returned ask requested value ∧
    line ∈ (Masker.ofLength minLength).secretLines value.toList

theorem masker_conclude (job : Job) (references : List Reference) (fetched : SubstitutionMap)
    (masker : Masker) (files : Files) :
    (conclude job references fetched masker files).state.masker = masker := by
  rcases conclude_cases job references fetched masker files with
    ⟨error, ended, _⟩ | ⟨result, ended, _⟩
  · rw [ended]
    rfl
  · rw [ended]
    rfl

theorem masker_proceed (job : Job) (references : List Reference) (files : Files)
    (step : Fetch.Step) :
    (proceed job references files step).state.masker = step.state.masker := by
  unfold proceed
  split
  · next waiting same =>
      rw [same]
      rfl
  · next masker error same =>
      rw [same]
      rfl
  · next masker fetched same =>
      rw [same]
      exact masker_conclude job references fetched masker files

theorem masker_begin (job : Job) (masker : Masker) (files : Files) :
    (begin job masker files).state.masker = masker := by
  unfold begin
  split
  · rfl
  · split
    · rfl
    · next references _ =>
        exact (masker_proceed job references files _).trans (Fetch.masker_next masker [] references)

theorem masker_turn (progress : Progress) (ask : Nat → Text → Answer) (waiting : Waiting)
    (files : Files) : (progress.turn ask waiting files).state.masker =
      match (progress.answer ask waiting).outcome with
      | .error _ => waiting.fetch.masker
      | .ok value => (waiting.fetch.masker.mask value.toList).masker :=
  (masker_proceed _ _ _ _).trans (Fetch.masker_resume _ _)

theorem announced_proceed (job : Job) (references : List Reference) (files : Files)
    (step : Fetch.Step) : (proceed job references files step).announced = step.announced := by
  unfold proceed
  split
  · rfl
  · rfl
  · simp only [conclude]
    split <;> exact List.append_nil _

theorem announced_turn (progress : Progress) (ask : Nat → Text → Answer) (waiting : Waiting)
    (files : Files) : (progress.turn ask waiting files).announced =
      match (progress.answer ask waiting).outcome with
      | .error _ => []
      | .ok value => waiting.fetch.masker.secretLines value.toList := by
  rw [Progress.turn, Waiting.resume, announced_proceed]
  cases outcome : (progress.answer ask waiting).outcome with
  | error error => simp only [Fetch.Waiting.resume, outcome]
  | ok value =>
      simp only [Fetch.Waiting.resume, outcome]
      cases waiting.fetch.later <;> exact List.append_nil _

theorem secretLine_append {minLength : Nat} {ask : Nat → Text → Answer} {requested : List Text}
    {locator : Text} {line : List Code} :
    SecretLine minLength ask (requested ++ [locator]) line ↔
      SecretLine minLength ask requested line ∨
        ∃ value, (ask requested.length locator).outcome = .ok value ∧
          line ∈ (Masker.ofLength minLength).secretLines value.toList := by
  simp only [SecretLine, returned_append, or_and_right, exists_or]

/-- The masker of a run holds the secret lines of the values that were returned and nothing else. -/
structure Progress.Registered (minLength : Nat) (ask : Nat → Text → Answer)
    (progress : Progress) : Prop where
  length : progress.state.masker.minLength = minLength
  lines : ∀ line, line ∈ progress.state.masker.lines ↔
    SecretLine minLength ask progress.requested line

theorem registered_start (job : Job) (minLength : Nat) (ask : Nat → Text → Answer)
    (files : Files) :
    (Progress.ofTurn (begin job (Masker.ofLength minLength) files)).Registered minLength ask where
  length := congrArg Masker.minLength (masker_begin job (Masker.ofLength minLength) files)
  lines := by
    intro line
    have empty : (Progress.ofTurn (begin job (Masker.ofLength minLength) files)).state.masker.lines =
        [] := congrArg Masker.lines (masker_begin job (Masker.ofLength minLength) files)
    rw [empty]
    constructor
    · intro member
      cases member
    · rintro ⟨value, returned, _⟩
      exact absurd returned (not_returned_nil ask value)

theorem Progress.Registered.after {minLength : Nat} {ask : Nat → Text → Answer}
    {progress : Progress} {waiting : Waiting} (registered : progress.Registered minLength ask)
    (paused : progress.state = .paused waiting) (files : Files) :
    (progress.after waiting.locator (progress.turn ask waiting files)).Registered minLength ask := by
  rcases registered with ⟨length, lines⟩
  rw [paused] at length lines
  have masker := masker_turn progress ask waiting files
  constructor
  · show (progress.turn ask waiting files).state.masker.minLength = minLength
    rw [masker]
    split
    · exact length
    · exact length
  · intro line
    show line ∈ (progress.turn ask waiting files).state.masker.lines ↔
      SecretLine minLength ask (progress.requested ++ [waiting.locator]) line
    rw [masker, secretLine_append, ← lines]
    -- An answer that failed adds no line to either side.
    cases outcome : (progress.answer ask waiting).outcome with
    | error error =>
        rw [Progress.answer] at outcome
        simp [outcome, State.masker]
    | ok value =>
        have same : waiting.fetch.masker.secretLines value.toList =
            (Masker.ofLength minLength).secretLines value.toList :=
          Masker.secretLines_congr length value.toList
        rw [Progress.answer] at outcome
        simp only [outcome, Except.ok.injEq, exists_eq_left', Masker.mem_mask]
        rw [← same]
        rfl

/-- The moments of a run that has the files for itself. -/
inductive Moment (job : Job) (masker : Masker) (ask : Nat → Text → Answer) (files : Files) :
    Progress → Files → Prop
  | start : Moment job masker ask files (.ofTurn (begin job masker files))
      (begin job masker files).files
  | step {progress : Progress} {current : Files} {waiting : Waiting}
      (before : Moment job masker ask files progress current)
      (paused : progress.state = .paused waiting) :
      Moment job masker ask files
        (progress.after waiting.locator (progress.turn ask waiting current))
        (progress.turn ask waiting current).files

variable {job : Job} {masker : Masker} {ask : Nat → Text → Answer} {files : Files}

theorem Moment.finish {progress : Progress} {current : Files}
    (moment : Moment job masker ask files progress current) :
    progress.finish ask current = run job masker ask files := by
  induction moment with
  | start => exact finish_ofTurn ask (begin job masker files)
  | step before paused ih => rw [finish_after paused, ih]

/-- From any moment on, a run comes to its end. The number of secrets still to come falls. -/
theorem Moment.ends {progress : Progress} {current : Files}
    (moment : Moment job masker ask files progress current) :
    ∃ last after masker' outcome, Moment job masker ask files last after ∧
      last.state = .finished masker' outcome := by
  induction pending : progress.state.pending using Nat.strongRecOn
    generalizing progress current with
  | _ count ih =>
      cases state : progress.state with
      | finished masker' outcome => exact ⟨progress, current, masker', outcome, moment, state⟩
      | paused waiting =>
          have fewer : (progress.turn ask waiting current).state.pending < count := by
            rw [← pending, state]
            exact pending_resume_lt waiting _ current
          exact ih _ fewer (moment.step state) rfl

theorem last_moment (job : Job) (masker : Masker) (ask : Nat → Text → Answer) (files : Files) :
    ∃ last, Moment job masker ask files last (run job masker ask files).files ∧
      last.state = .finished (run job masker ask files).masker (run job masker ask files).outcome ∧
      last.requested = (run job masker ask files).requested ∧
      last.log = (run job masker ask files).log ∧
      last.announced = (run job masker ask files).announced := by
  have first : Moment job masker ask files _ _ := .start
  rcases first.ends with
    ⟨last, after, masker', outcome, moment, ended⟩
  have history := moment.finish
  rw [finish_finished ended] at history
  rw [← history]
  exact ⟨last, moment, ended, rfl, rfl, rfl⟩

theorem Moment.registered {minLength : Nat} {progress : Progress} {current : Files}
    (moment : Moment job (Masker.ofLength minLength) ask files progress current) :
    progress.Registered minLength ask := by
  induction moment with
  | start => exact registered_start job minLength ask files
  | step before paused ih => exact ih.after paused _

theorem Moment.announced {progress : Progress} {current : Files}
    (moment : Moment job masker ask files progress current) :
    ∀ line ∈ progress.announced, line ∈ progress.state.masker.lines := by
  induction moment with
  | start =>
      have nothing : (begin job masker files).announced = [] := by
        unfold begin
        split
        · rfl
        · split
          · rfl
          · next references _ =>
              simp only [announced_proceed]
              cases references <;> rfl
      simp [Progress.ofTurn, nothing]
  | @step progress current waiting before paused ih =>
      rw [paused] at ih
      intro line member
      show line ∈ (progress.turn ask waiting current).state.masker.lines
      simp only [Progress.after, announced_turn, List.mem_append] at member
      rw [masker_turn]
      cases outcome : (progress.answer ask waiting).outcome with
      | error error =>
          simp only [outcome, List.not_mem_nil, or_false] at member
          exact ih line member
      | ok value =>
          simp only [outcome] at member
          exact Masker.mem_mask.mpr (member.imp_left (ih line))

/-- At its end a run has registered the secret lines of the values it was given, and no others. -/
theorem run_registered (job : Job) (minLength : Nat) (ask : Nat → Text → Answer) (files : Files)
    (line : List Code) :
    let history := run job (Masker.ofLength minLength) ask files
    line ∈ history.masker.lines ↔ SecretLine minLength ask history.requested line := by
  intro history
  rcases last_moment job (Masker.ofLength minLength) ask files with ⟨last, moment, ended, asked, _⟩
  have lines := moment.registered.lines line
  rw [ended, asked] at lines
  exact lines

theorem run_announced (job : Job) (minLength : Nat) (ask : Nat → Text → Answer) (files : Files) :
    let history := run job (Masker.ofLength minLength) ask files
    ∀ line ∈ history.announced, SecretLine minLength ask history.requested line := by
  intro history line member
  rcases last_moment job (Masker.ofLength minLength) ask files with
    ⟨last, moment, ended, asked, _, announced⟩
  have registered := moment.announced line (announced.symm ▸ member)
  rw [ended] at registered
  exact (run_registered job minLength ask files line).mp registered

end Run

end SecretFill
