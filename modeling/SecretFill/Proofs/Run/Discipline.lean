import SecretFill.Proofs.Run.Suspension
/-!
The discipline of a run. Secrets are asked for one after the other, in the order of the
specification and up to the first that cannot be had; and no value is kept, and no further secret
asked for, before the lines of the value are registered and announced.
-/

namespace SecretFill

namespace Run

variable {job : Job} {minLength : Nat} {ask : Nat → Text → Answer} {files : Files}
  {references earlier later : List Reference} {values : List Text} {progress : Progress}
  {current : Files}

def mapOf (earlier : List Reference) (values : List Text) : SubstitutionMap :=
  (earlier.map Reference.output).zip values

/-- The lines of some values that a masker with some least length announces, repeats included. -/
def secretsOf (minLength : Nat) (values : List Text) : List (List Code) :=
  values.flatMap fun value => (Masker.ofLength minLength).secretLines value.toList

def maskerOf (minLength : Nat) (values : List Text) : Masker :=
  (Masker.ofLength minLength).maskAll (values.map Text.toList)

def asking (job : Job) (minLength : Nat) (earlier : List Reference) (reference : Reference)
    (rest : List Reference) (values : List Text) : Waiting :=
  ⟨job, earlier ++ reference :: rest,
    ⟨reference, rest, maskerOf minLength values, mapOf earlier values⟩⟩

/-- Where a run stands that holds `values` for the references `earlier` and not yet those of
`later`, with the files as they are now: it asks for the next one, has ended there, or has come to
its conclusion with the map of each output to its value. -/
def Stands (job : Job) (minLength : Nat) (ask : Nat → Text → Answer) (files : Files)
    (earlier later : List Reference) (values : List Text) (requested : List Text)
    (current : Files) : State → Prop
  | .paused waiting => requested = earlier.map Reference.locator ∧ current = files ∧
      ∃ reference rest, later = reference :: rest ∧
        waiting = asking job minLength earlier reference rest values
  | .finished masker outcome =>
      match later with
      | [] =>
          let turn := conclude job earlier (mapOf earlier values) masker files
          requested = earlier.map Reference.locator ∧ turn.files = current ∧
            turn.state = .finished masker outcome
      | reference :: _ => requested = earlier.map Reference.locator ++ [reference.locator] ∧
          current = files ∧ ∃ error, (ask earlier.length reference.locator).outcome = .error error ∧
            outcome = .error (.secret error)

/-- A run that holds `values` for the references `earlier` and has masked all of them. -/
structure Holds (job : Job) (minLength : Nat) (ask : Nat → Text → Answer) (files : Files)
    (earlier later : List Reference) (values : List Text) (progress : Progress)
    (current : Files) : Prop where
  answered : Answered ask 0 earlier values
  announced : progress.announced = secretsOf minLength values
  masker : progress.state.masker = maskerOf minLength values
  stands : Stands job minLength ask files earlier later values progress.requested current
    progress.state

-- The step differs from that of `Fetch.next` in its records alone, so only its state is asked for.
theorem stands_proceed {step : Fetch.Step} (job : Job) (ask : Nat → Text → Answer) (files : Files)
    (asks : step.state =
      (Fetch.next (maskerOf minLength values) (mapOf earlier values) later).state) :
    let turn := proceed job (earlier ++ later) files step
    Stands job minLength ask files earlier later values (earlier.map Reference.locator) turn.files
      turn.state := by
  cases later with
  | nil =>
      have asks : step.state = .done (maskerOf minLength values) (mapOf earlier values) := asks
      simp only [proceed, asks, List.append_nil]
      rcases conclude_cases job earlier (mapOf earlier values) (maskerOf minLength values) files with
        ⟨error, ended, _⟩ | ⟨result, ended, _⟩
      · rw [ended]
        exact ⟨rfl, rfl, ended⟩
      · rw [ended]
        exact ⟨rfl, rfl, ended⟩
  | cons reference rest =>
      have asks : step.state = .paused ⟨reference, rest, maskerOf minLength values,
        mapOf earlier values⟩ := asks
      simp only [proceed, asks]
      exact ⟨rfl, rfl, reference, rest, rfl, rfl⟩

theorem mapOf_append (sizes : values.length = (earlier.map Reference.output).length)
    (reference : Reference) (value : Text) :
    mapOf (earlier ++ [reference]) (values ++ [value]) =
      mapOf earlier values ++ [(reference.output, value)] := by
  rw [mapOf, List.map_append, List.zip_append sizes.symm]
  rfl

theorem maskerOf_append (minLength : Nat) (values : List Text) (value : Text) :
    maskerOf minLength (values ++ [value]) =
      ((maskerOf minLength values).mask value.toList).masker := by
  rw [maskerOf, List.map_append, List.map_singleton, Masker.maskAll_append]
  rfl

theorem holds_start {bytes : List UInt8} (found : files.document job.document = .ok bytes)
    (parsed : Specification.parse job.secrets = .ok later) (minLength : Nat)
    (ask : Nat → Text → Answer) :
    let turn := begin job (Masker.ofLength minLength) files
    Holds job minLength ask files [] later [] (.ofTurn turn) turn.files := by
  have same : (begin job (Masker.ofLength minLength) files).state = (proceed job later files
        (Fetch.next (Masker.ofLength minLength) [] later)).state ∧
      (begin job (Masker.ofLength minLength) files).files = (proceed job later files
        (Fetch.next (Masker.ofLength minLength) [] later)).files := by
    simp only [begin, found, parsed, and_self]
  have announced : (begin job (Masker.ofLength minLength) files).announced = [] := by
    simp only [begin, found, parsed, announced_proceed]
    cases later <;> rfl
  constructor
  · exact .nil 0
  · exact announced
  · exact masker_begin job (Masker.ofLength minLength) files
  · show Stands job minLength ask files [] later [] [] (begin _ _ _).files (begin _ _ _).state
    rw [same.1, same.2]
    exact stands_proceed job ask files rfl

theorem secretLines_maskerOf (minLength : Nat) (values : List Text) (value : List Code) :
    (maskerOf minLength values).secretLines value =
      (Masker.ofLength minLength).secretLines value :=
  Masker.secretLines_congr (Masker.minLength_maskAll _ _) value

section Answer

variable {reference : Reference} {rest : List Reference}

theorem answer_asking (job : Job) (minLength : Nat) (ask : Nat → Text → Answer)
    (reference : Reference) (rest : List Reference) (values : List Text)
    (asked : progress.requested = earlier.map Reference.locator) :
    progress.answer ask (asking job minLength earlier reference rest values) =
      ask earlier.length reference.locator := by
  rw [Progress.answer, asked, List.length_map]
  rfl

theorem Holds.fails {error : SecretError}
    (holds : Holds job minLength ask files earlier (reference :: rest) values progress current)
    (asked : progress.requested = earlier.map Reference.locator)
    (failed : (ask earlier.length reference.locator).outcome = .error error) :
    let turn := progress.turn ask (asking job minLength earlier reference rest values) files
    Holds job minLength ask files earlier (reference :: rest) values
      (progress.after reference.locator turn) turn.files := by
  have answer := answer_asking job minLength ask reference rest values asked
  constructor
  · exact holds.answered
  · show progress.announced ++ (Progress.turn _ _ _ _).announced = _
    simp only [announced_turn, answer, failed, List.append_nil, holds.announced]
  · show (Progress.turn _ _ _ _).state.masker = _
    simp only [masker_turn, answer, failed]
    rfl
  · show Stands job minLength ask files earlier (reference :: rest) values
      (progress.requested ++ [reference.locator]) (Progress.turn _ _ _ _).files
      (Progress.turn _ _ _ _).state
    have ends := resume_failed (asking job minLength earlier reference rest values) files failed
    rw [Progress.turn, answer, ends.1, ends.2, asked]
    exact ⟨rfl, rfl, error, failed, rfl⟩

theorem Holds.answers {value : Text}
    (distinct : ((earlier ++ reference :: rest).map Reference.output).Nodup)
    (holds : Holds job minLength ask files earlier (reference :: rest) values progress current)
    (asked : progress.requested = earlier.map Reference.locator)
    (answered : (ask earlier.length reference.locator).outcome = .ok value) :
    let turn := progress.turn ask (asking job minLength earlier reference rest values) files
    Holds job minLength ask files (earlier ++ [reference]) rest (values ++ [value])
      (progress.after reference.locator turn) turn.files := by
  have answer := answer_asking job minLength ask reference rest values asked
  -- Outputs are distinct, so the value is added and replaces none.
  have absent : reference.output ∉ (mapOf earlier values).map Prod.fst := by
    rw [mapOf, map_fst_zip holds.answered.length]
    rw [List.map_append, List.map_cons] at distinct
    exact fun held => (List.nodup_append.mp distinct).2.2 _ held _ List.mem_cons_self rfl
  constructor
  · exact holds.answered.append (by simpa using answered)
  · show progress.announced ++ (Progress.turn _ _ _ _).announced = _
    simp only [announced_turn, answer, answered, holds.announced]
    show _ ++ (maskerOf minLength values).secretLines value.toList = _
    -- The lines announced now are those that the masker did not have before.
    rw [secretLines_maskerOf]
    simp [secretsOf]
  · show (Progress.turn _ _ _ _).state.masker = _
    simp only [masker_turn, answer, answered, maskerOf_append]
    rfl
  · show Stands job minLength ask files (earlier ++ [reference]) rest (values ++ [value])
      (progress.requested ++ [reference.locator]) (Progress.turn _ _ _ _).files
      (Progress.turn _ _ _ _).state
    have asks := resume_answered (asking job minLength earlier reference rest values).fetch answered
    simp only [asking] at asks
    rw [insert_of_absent value absent, ← mapOf_append holds.answered.length,
      ← maskerOf_append] at asks
    rw [Progress.turn, answer, Waiting.resume, asked]
    simpa [asking] using stands_proceed job ask files asks

end Answer

theorem Holds.step {waiting : Waiting}
    (distinct : ((earlier ++ later).map Reference.output).Nodup)
    (holds : Holds job minLength ask files earlier later values progress current)
    (paused : progress.state = .paused waiting) :
    let turn := progress.turn ask waiting current
    ∃ earlier' later' values', earlier ++ later = earlier' ++ later' ∧
      Holds job minLength ask files earlier' later' values' (progress.after waiting.locator turn)
        turn.files := by
  have stands := holds.stands
  rw [paused] at stands
  rcases stands with ⟨asked, rfl, reference, rest, rfl, rfl⟩
  cases outcome : (ask earlier.length reference.locator).outcome with
  | error error => exact ⟨earlier, reference :: rest, values, rfl, holds.fails asked outcome⟩
  | ok value =>
      exact ⟨earlier ++ [reference], rest, values ++ [value], by simp,
        holds.answers distinct asked outcome⟩

/-- Every moment of a run whose document is there and whose specification is accepted is one in
which it holds values for the first references, all of them masked. -/
theorem Moment.holds {bytes : List UInt8}
    (found : files.document job.document = .ok bytes)
    (parsed : Specification.parse job.secrets = .ok references)
    (moment : Moment job (Masker.ofLength minLength) ask files progress current) :
    ∃ earlier later values, references = earlier ++ later ∧
      Holds job minLength ask files earlier later values progress current := by
  induction moment with
  | start => exact ⟨[], references, [], rfl, holds_start found parsed minLength ask⟩
  | step before paused ih =>
      rcases ih with ⟨earlier, later, values, rfl, holds⟩
      exact holds.step (outputs_nodup parsed) paused

theorem complete_paused_fetch (ask : Nat → Text → Answer) (count : Nat) {step : Fetch.Step}
    {waiting : Fetch.Waiting} (state : step.state = .paused waiting) :
    (step.complete ask count).outcome =
      ((waiting.resume (ask count waiting.reference.locator)).complete ask (count + 1)).outcome := by
  rw [Fetch.Step.complete]
  split
  · next found =>
      rw [state] at found
      cases found
  · next found =>
      rw [state] at found
      cases found
  · next found =>
      rw [state] at found
      cases found
      rfl

/-- A fetch whose requests are all answered comes to the map that it had, with each output and its
value behind. -/
theorem fetch_outcome {count : Nat} {masker : Masker} {fetched : SubstitutionMap}
    {step : Fetch.Step} (answered : Answered ask count later values)
    (distinct : (fetched.map Prod.fst ++ later.map Reference.output).Nodup)
    (asks : step.state = (Fetch.next masker fetched later).state) :
    (step.complete ask count).outcome = .ok (fetched ++ mapOf later values) := by
  induction answered generalizing masker fetched step with
  | nil count =>
      rw [Fetch.Step.complete]
      split
      · next found => cases found.symm.trans asks
      · next found =>
          cases found.symm.trans asks
          rw [mapOf, List.zip_nil_right, List.append_nil]
      · next found => cases found.symm.trans asks
  | @cons count reference value later values answer rest ih =>
      have absent : reference.output ∉ fetched.map Prod.fst := fun held =>
        (List.nodup_append.mp distinct).2.2 _ held _ List.mem_cons_self rfl
      have inserted := insert_of_absent value absent
      have fresh : ((fetched.insert reference.output value).map Prod.fst ++
          later.map Reference.output).Nodup := by
        rw [inserted, List.map_append, List.append_assoc]
        exact distinct
      rw [complete_paused_fetch ask count asks,
        ih fresh (resume_answered ⟨reference, later, masker, fetched⟩ answer), inserted,
        List.append_assoc]
      rfl

theorem refused_asks_nothing (fresh : Masker) (ask : Nat → Text → Answer)
    (refused : (∃ error, files.document job.document = .error error) ∨
      ∃ error, Specification.parse job.secrets = .error error) :
    (run job fresh ask files).requested = [] ∧ (run job fresh ask files).announced = [] ∧
      (run job fresh ask files).masker = fresh := by
  have ends : ∃ error, begin job fresh files = ⟨[], [], files, .finished fresh (.error error)⟩ := by
    rcases refused with ⟨error, missing⟩ | ⟨error, rejected⟩
    · exact ⟨error, by simp only [begin, missing]⟩
    · cases found : files.document job.document with
      | error error => exact ⟨error, by simp only [begin, found]⟩
      | ok bytes => exact ⟨.reference error, by simp only [begin, found, rejected]⟩
  rcases ends with ⟨error, ends⟩
  simp [run, ends, Turn.complete]

theorem mem_maskerOf {minLength : Nat} {values : List Text} {line : List Code} :
    line ∈ (maskerOf minLength values).lines ↔
      ∃ value ∈ values, line ∈ Text.lines value.toList ∧ line ≠ [] ∧ minLength ≤ line.length := by
  rw [maskerOf, Masker.mem_lines_of_fresh]
  simp [Masker.mem_secretLines, Masker.ofLength]

end Run

/-- A run without a document or with a specification that is rejected asks for nothing. Any other
run asks for the secrets of its references in their order, up to the first that cannot be had, and
ends with that error; and at every moment the lines of all values it holds, and no others, are
registered and announced. Once all secrets are there, the fetch has come to the map of each output
to its value, and the run ends, with its files, as it concludes with that map. -/
theorem run_masks_before_it_goes_on (job : Job) (minLength : Nat) (ask : Nat → Text → Answer)
    (files : Files) :
    let fresh := Masker.ofLength minLength
    let history := Run.run job fresh ask files
    ((∃ error, files.document job.document = .error error) ∨
        (∃ error, Specification.parse job.secrets = .error error) →
      history.requested = [] ∧ history.announced = [] ∧ history.masker = fresh) ∧
    ∀ bytes references, files.document job.document = .ok bytes →
      Specification.parse job.secrets = .ok references →
      (∀ progress current, Run.Moment job fresh ask files progress current →
        ∃ earlier later values, references = earlier ++ later ∧
          Run.Holds job minLength ask files earlier later values progress current ∧
          ∀ line, line ∈ progress.state.masker.lines ↔ ∃ value ∈ values,
            line ∈ Text.lines value.toList ∧ line ≠ [] ∧ minLength ≤ line.length) ∧
      ∃ earlier later values, references = earlier ++ later ∧
        Run.Holds job minLength ask files earlier later values
          ⟨history.requested, history.log, history.announced,
            .finished history.masker history.outcome⟩ history.files ∧
        (later = [] → ((Fetch.next fresh [] references).complete ask 0).outcome =
          .ok (Run.mapOf references values)) := by
  intro fresh history
  constructor
  · exact Run.refused_asks_nothing fresh ask
  · intro bytes references found parsed
    constructor
    · intro progress current moment
      rcases moment.holds found parsed with ⟨earlier, later, values, split, holds⟩
      refine ⟨earlier, later, values, split, holds, fun line => ?_⟩
      rw [holds.masker]
      exact Run.mem_maskerOf
    · rcases Run.last_moment job fresh ask files with ⟨last, moment, state, asked, log, announced⟩
      rcases moment.holds found parsed with ⟨earlier, later, values, split, holds⟩
      have same : last = ⟨history.requested, history.log, history.announced,
          .finished history.masker history.outcome⟩ := by
        rw [← asked, ← log, ← announced, ← state]
      refine ⟨earlier, later, values, split, same ▸ holds, ?_⟩
      rintro rfl
      rw [List.append_nil] at split
      subst split
      have distinct : (([] : SubstitutionMap).map Prod.fst ++
          references.map Reference.output).Nodup := outputs_nodup parsed
      exact Run.fetch_outcome holds.answered distinct rfl

/-- The second of two secrets is not there. -/
theorem run_masks_before_it_fails :
    let files : Files := ⟨[], [(["d".toUTF8.toList], "a: $A\n".toUTF8.toList)], []⟩
    let job : Job := ⟨"p/a:A, p/b:B", Location.ofText "d", Location.ofText "d", false⟩
    let missing : SecretError := .notFound "p/b" none
    let ask (count : Nat) (_ : Text) : Answer :=
      .ofExcept (if count = 0 then .ok "one\r\nsecret" else .error missing)
    let history := Run.run job (Masker.ofLength 4) ask files
    history.requested = [("p/a" : Text), "p/b"] ∧ history.announced = [("secret" : Text).toList] ∧
    ∃ earlier later values, [⟨"p/a", "A"⟩, ⟨"p/b", "B"⟩] = earlier ++ later ∧
      Run.Holds job 4 ask files earlier later values
        ⟨history.requested, history.log, history.announced,
          .finished history.masker history.outcome⟩ history.files ∧
      (later = [] → ((Fetch.next (Masker.ofLength 4) [] [⟨"p/a", "A"⟩, ⟨"p/b", "B"⟩]).complete ask
        0).outcome = .ok (Run.mapOf [⟨"p/a", "A"⟩, ⟨"p/b", "B"⟩] values)) := by
  intro files job missing ask history
  have found : files.document job.document = .ok "a: $A\n".toUTF8.toList := by
    simp only [files, job]
    decide +kernel
  have parsed : Specification.parse job.secrets = .ok [⟨"p/a", "A"⟩, ⟨"p/b", "B"⟩] := by
    simp only [job]
    decide +kernel
  have asked : history.requested = [("p/a" : Text), "p/b"] := by
    simp only [history, job, ask, files, missing]
    decide +kernel
  have announced : history.announced = [("secret" : Text).toList] := by
    simp only [history, job, ask, files, missing]
    decide +kernel
  exact ⟨asked, announced, ((run_masks_before_it_goes_on job 4 ask files).2 _ _ found parsed).2⟩

end SecretFill
