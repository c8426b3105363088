import SecretFill.Proofs.Files
import SecretFill.Proofs.Interpolation.Outcome
import SecretFill.Proofs.Reference
import SecretFill.Run.Basic
/-!
The course of a run. Whatever the provider answers, a run either ends before the last secret is
there, with its files as they were, or comes to its conclusion with one value for each reference;
and only a conclusion that interpolates writes anything.
-/

namespace SecretFill

open SecretFill.Text

theorem whole_unixBreaks {text : List Code} (whole : Utf8.Whole text) :
    Utf8.Whole (unixBreaks text) := by
  induction text using unixBreaks.induct with
  | case1 => exact whole
  | case2 rest ih =>
      obtain ⟨-, later⟩ := List.forall_mem_cons.mp (List.forall_mem_cons.mp whole).2
      exact List.forall_mem_cons.mpr ⟨rfl, ih later⟩
  | case3 rest apart ih =>
      rw [unixBreaks.eq_3 _ apart]
      exact List.forall_mem_cons.mpr ⟨rfl, ih (List.forall_mem_cons.mp whole).2⟩
  | case4 character rest single apart ih =>
      obtain ⟨here, later⟩ := List.forall_mem_cons.mp whole
      rw [unixBreaks.eq_4 _ _ single apart]
      exact List.forall_mem_cons.mpr ⟨here, ih later⟩

theorem insert_of_absent {map : SubstitutionMap} {key : Text} (value : Text)
    (absent : key ∉ map.map Prod.fst) : map.insert key value = map ++ [(key, value)] := by
  induction map with
  | nil => rfl
  | cons entry rest ih =>
      obtain ⟨present, old⟩ := entry
      obtain ⟨apart, later⟩ := List.ne_and_not_mem_of_not_mem_cons absent
      simp only [SubstitutionMap.insert, if_neg apart.symm, List.cons_append]
      rw [ih later]

theorem map_fst_zip {outputs values : List Text} (sizes : values.length = outputs.length) :
    (outputs.zip values).map Prod.fst = outputs :=
  List.map_fst_zip (Nat.le_of_eq sizes.symm)

namespace Files

theorem document_eq_ok {files : Files} {document : Location} {bytes : List UInt8} :
    files.document document = .ok bytes ↔
      ∃ way, files.find document.characters = .ok (.file way bytes) := by
  unfold Files.document
  constructor
  · intro found
    split at found
    · next way held leads =>
        cases found
        exact ⟨way, leads⟩
    all_goals cases found
  · rintro ⟨way, leads⟩
    rw [leads]

theorem documentText_eq_ok {files : Files} {document : Location} {text : Text}
    (found : files.documentText document = .ok text) :
    ∃ bytes characters, files.document document = .ok bytes ∧
      files.read document.characters = .ok bytes ∧ Utf8.decode bytes = .ok characters ∧
      text = Text.ofList (unixBreaks characters) := by
  unfold documentText at found
  split at found
  · cases found
  · split at found
    · cases found
    · next bytes given =>
        split at found
        · next characters decoded =>
            cases found
            exact ⟨bytes, characters, document_eq_ok.mpr (read_eq_ok given), given, decoded, rfl⟩
        · cases found

end Files

namespace Run

theorem complete_finished (ask : Nat → Text → Answer) (count : Nat) {turn : Turn}
    {masker : Masker} {outcome : Except RunError RunResult}
    (state : turn.state = .finished masker outcome) :
    (turn.complete ask count).outcome = outcome ∧ (turn.complete ask count).files = turn.files := by
  rw [Turn.complete]
  split
  · next found =>
      rw [state] at found
      cases found
      exact ⟨rfl, rfl⟩
  · next found =>
      rw [state] at found
      cases found

theorem complete_paused (ask : Nat → Text → Answer) (count : Nat) {turn : Turn}
    {waiting : Waiting} (state : turn.state = .paused waiting) :
    let rest := (waiting.resume (ask count waiting.locator) turn.files).complete ask (count + 1)
    (turn.complete ask count).outcome = rest.outcome ∧
      (turn.complete ask count).files = rest.files := by
  intro rest
  rw [Turn.complete]
  split
  · next found =>
      rw [state] at found
      cases found
  · next found =>
      rw [state] at found
      cases found
      exact ⟨rfl, rfl⟩

/-- Values that answer the requests for some references, the first of them with number `count`. -/
inductive Answered (ask : Nat → Text → Answer) : Nat → List Reference → List Text → Prop
  | nil (count : Nat) : Answered ask count [] []
  | cons {count : Nat} {reference : Reference} {value : Text} {later : List Reference}
      {values : List Text} (answer : (ask count reference.locator).outcome = .ok value)
      (rest : Answered ask (count + 1) later values) :
      Answered ask count (reference :: later) (value :: values)

theorem Answered.length {ask : Nat → Text → Answer} {count : Nat} {references : List Reference}
    {values : List Text} (answered : Answered ask count references values) :
    values.length = (references.map Reference.output).length := by
  induction answered with
  | nil count => rfl
  | cons answer rest ih => simpa using ih

theorem Answered.append {ask : Nat → Text → Answer} {count : Nat} {references : List Reference}
    {values : List Text} {reference : Reference} {value : Text}
    (answered : Answered ask count references values)
    (answer : (ask (count + references.length) reference.locator).outcome = .ok value) :
    Answered ask count (references ++ [reference]) (values ++ [value]) := by
  induction answered with
  | nil count => exact .cons answer (.nil (count + 1))
  | cons first rest ih =>
      refine .cons first (ih ?_)
      rw [Nat.succ_add_eq_add_succ]
      exact answer

/-- What a run that succeeds has done, once it holds the secrets: the document was read, the text
that came of it can be encoded and is the new content of the output, and everything else is as it
was. -/
structure Wrote (job : Job) (references : List Reference) (map : SubstitutionMap)
    (before after : Files) (result : RunResult) where
  bytes : List UInt8
  characters : List Code
  report : Report
  way : Way
  old : List UInt8
  found : before.document job.document = .ok bytes
  given : before.read job.document.characters = .ok bytes
  decoded : Utf8.decode bytes = .ok characters
  interpolated : (interpolate (Text.ofList (unixBreaks characters)) map job.verbose
    job.document.text).outcome = .ok report
  whole : Utf8.Whole report.document.toList
  leads : before.target job.output.text.toList = .ok (way, old)
  written : after = before.set way (Utf8.encode report.document.toList)
  told : result = ⟨job.output, references, report.substitutions⟩

theorem wrote_of_interpolateFile {job : Job} {map : SubstitutionMap} {files after : Files}
    {substitutions : List Substitution} (references : List Reference)
    (ended : (interpolateFile job.document job.output map job.verbose files).outcome =
      .ok (after, substitutions)) :
    Nonempty (Wrote job references map files after ⟨job.output, references, substitutions⟩) := by
  obtain ⟨text, found, ended⟩ := andThen_eq_ok ended
  obtain ⟨bytes, characters, there, given, decoded, rfl⟩ := Files.documentText_eq_ok found
  obtain ⟨report, interpolated, ended⟩ := andThen_eq_ok ended
  have interpolated := mapError_eq_ok interpolated
  cases write : files.write job.output.text (Utf8.encode report.document.toList) with
  | error error =>
      rw [write] at ended
      cases ended
  | ok written =>
      rw [write] at ended
      cases ended
      obtain ⟨way, old, leads, rfl⟩ := Files.write_eq_ok write
      have whole := whole_interpolate
          (whole_unixBreaks (Utf8.decode_eq_ok_iff.mp decoded).1) interpolated
      exact ⟨⟨bytes, characters, report, way, old, there, given, decoded, interpolated, whole, leads,
        rfl, rfl⟩⟩

theorem conclude_cases (job : Job) (references : List Reference) (map : SubstitutionMap)
    (masker : Masker) (files : Files) :
    (∃ error, (conclude job references map masker files).state = .finished masker (.error error) ∧
        (conclude job references map masker files).files = files) ∨
      ∃ result, (conclude job references map masker files).state = .finished masker (.ok result) ∧
        Nonempty (Wrote job references map files
          (conclude job references map masker files).files result) := by
  cases ended : (interpolateFile job.document job.output map job.verbose files).outcome with
  | error error =>
      refine .inl ⟨error, ?_⟩
      simp only [conclude, ended, and_self]
  | ok pair =>
      obtain ⟨after, substitutions⟩ := pair
      have succeeded : (conclude job references map masker files).state =
            .finished masker (.ok ⟨job.output, references, substitutions⟩) ∧
          (conclude job references map masker files).files = after := by
        simp only [conclude, ended, and_self]
      obtain ⟨state, written⟩ := succeeded
      rw [written]
      exact .inr ⟨_, state, wrote_of_interpolateFile references ended⟩

theorem resume_failed (waiting : Waiting) {answer : Answer} {error : SecretError} (files : Files)
    (failed : answer.outcome = .error error) :
    (waiting.resume answer files).state =
        .finished waiting.fetch.masker (.error (.secret error)) ∧
      (waiting.resume answer files).files = files := by
  simp only [Waiting.resume, Fetch.Waiting.resume, failed, proceed, and_self]

theorem resume_answered (waiting : Fetch.Waiting) {answer : Answer} {value : Text}
    (answered : answer.outcome = .ok value) :
    (waiting.resume answer).state = (Fetch.next (waiting.masker.mask value.toList).masker
      (waiting.fetched.insert waiting.reference.output value) waiting.later).state := by
  simp only [Fetch.Waiting.resume, answered]

/-- Where a run stands at its end: it has failed and left the files, or it holds a value for each
reference and has written the output. -/
def Ends (job : Job) (references : List Reference) (ask : Nat → Text → Answer) (count : Nat)
    (fetched : SubstitutionMap) (later : List Reference) (before after : Files)
    (outcome : Except RunError RunResult) : Prop :=
  match outcome with
  | .error _ => after = before
  | .ok result => ∃ values, Answered ask count later values ∧
      Nonempty (Wrote job references
        (fetched ++ (later.map Reference.output).zip values) before after result)

theorem ends_cons {job : Job} {references : List Reference} {ask : Nat → Text → Answer}
    {count : Nat} {fetched : SubstitutionMap} {reference : Reference} {later : List Reference}
    {before after : Files} {outcome : Except RunError RunResult} {value : Text}
    (answer : (ask count reference.locator).outcome = .ok value)
    (ends : Ends job references ask (count + 1) (fetched ++ [(reference.output, value)]) later
      before after outcome) :
    Ends job references ask count fetched (reference :: later) before after outcome := by
  cases outcome with
  | error error => exact ends
  | ok result =>
      obtain ⟨values, answered, wrote⟩ := ends
      refine ⟨value :: values, .cons answer answered, ?_⟩
      rw [List.append_assoc] at wrote
      exact wrote

/-- The induction is on the references still to come. The steps of a fetch differ in their records,
so the run is described by the state of its turn alone. -/
theorem complete_ends (job : Job) (references : List Reference) (ask : Nat → Text → Answer)
    (files : Files) (later : List Reference) {count : Nat} {masker : Masker}
    {fetched : SubstitutionMap} {step : Fetch.Step} {turn : Turn}
    (distinct : (fetched.map Prod.fst ++ later.map Reference.output).Nodup)
    (asks : step.state = (Fetch.next masker fetched later).state)
    (state : turn.state = (proceed job references files step).state)
    (kept : turn.files = (proceed job references files step).files) :
    Ends job references ask count fetched later files (turn.complete ask count).files
      (turn.complete ask count).outcome := by
  -- Each answer takes one reference off the list, until all are answered or an answer fails.
  induction later generalizing count masker fetched step turn with
  | nil =>
      have asks : step.state = .done masker fetched := asks
      simp only [proceed, asks] at state kept
      rcases conclude_cases job references fetched masker files with
        ⟨error, finished, same⟩ | ⟨result, finished, wrote⟩
      · obtain ⟨outcome, after⟩ := complete_finished ask count (state.trans finished)
        rw [outcome, after, kept, same]
        rfl
      · obtain ⟨outcome, after⟩ := complete_finished ask count (state.trans finished)
        rw [outcome, after, kept]
        refine ⟨[], .nil count, ?_⟩
        simpa using wrote
  | cons reference later ih =>
      have asks : step.state = .paused ⟨reference, later, masker, fetched⟩ := asks
      simp only [proceed, asks] at state kept
      obtain ⟨outcome, after⟩ := complete_paused ask count state
      rw [outcome, after, kept]
      let waiting : Waiting := ⟨job, references, ⟨reference, later, masker, fetched⟩⟩
      show Ends job references ask count fetched (reference :: later) files
        ((waiting.resume (ask count reference.locator) files).complete ask (count + 1)).files
        ((waiting.resume (ask count reference.locator) files).complete ask (count + 1)).outcome
      cases answer : (ask count reference.locator).outcome with
      | error error =>
          obtain ⟨failed, same⟩ := resume_failed waiting files answer
          obtain ⟨outcome, after⟩ := complete_finished ask (count + 1) failed
          rw [outcome, after, same]
          rfl
      | ok value =>
          obtain ⟨kept, coming, apart⟩ := List.nodup_append.mp distinct
          have absent : reference.output ∉ fetched.map Prod.fst :=
            fun held => apart _ held _ List.mem_cons_self rfl
          have appended := insert_of_absent value absent
          have fresh : ((fetched.insert reference.output value).map Prod.fst ++
              later.map Reference.output).Nodup := by
            rw [appended, List.map_append, List.append_assoc]
            exact distinct
          have ends : Ends job references ask (count + 1) (fetched.insert reference.output value)
              later files
              ((waiting.resume (ask count reference.locator) files).complete ask (count + 1)).files
              ((waiting.resume (ask count reference.locator) files).complete ask
                (count + 1)).outcome :=
            ih fresh (resume_answered waiting.fetch answer) rfl rfl
          rw [appended] at ends
          exact ends_cons answer ends

/-- A run ends before its first request, or as its fetch does. -/
theorem run_ends (job : Job) (masker : Masker) (ask : Nat → Text → Answer) (files : Files) :
    match (run job masker ask files).outcome with
    | .error _ => (run job masker ask files).files = files
    | .ok result => ∃ references values, Specification.parse job.secrets = .ok references ∧
        Answered ask 0 references values ∧
        Nonempty (Wrote job references ((references.map Reference.output).zip values) files
          (run job masker ask files).files result) := by
  unfold run
  -- Nothing is asked before the document is there and the references are read.
  cases document : files.document job.document with
  | error error =>
      have state : (begin job masker files).state = .finished masker (.error error) ∧
          (begin job masker files).files = files := by
        simp only [begin, document, and_self]
      obtain ⟨outcome, after⟩ := complete_finished ask 0 state.1
      rw [outcome, after, state.2]
  | ok bytes =>
      cases parsed : Specification.parse job.secrets with
      | error error =>
          have state : (begin job masker files).state =
                .finished masker (.error (.reference error)) ∧
              (begin job masker files).files = files := by
            simp only [begin, document, parsed, and_self]
          obtain ⟨outcome, after⟩ := complete_finished ask 0 state.1
          rw [outcome, after, state.2]
      | ok references =>
          have started : (begin job masker files).state =
                (proceed job references files (Fetch.next masker [] references)).state ∧
              (begin job masker files).files =
                (proceed job references files (Fetch.next masker [] references)).files := by
            simp only [begin, document, parsed, and_self]
          have distinct : (([] : SubstitutionMap).map Prod.fst ++
              references.map Reference.output).Nodup := outputs_nodup parsed
          have ends : Ends job references ask 0 [] references files
              ((begin job masker files).complete ask 0).files
              ((begin job masker files).complete ask 0).outcome :=
            complete_ends job references ask files references distinct rfl started.1 started.2
          cases outcome : ((begin job masker files).complete ask 0).outcome with
          | error error =>
              rw [outcome] at ends
              exact ends
          | ok result =>
              rw [outcome] at ends
              obtain ⟨values, answered, wrote⟩ := ends
              exact ⟨references, values, rfl, answered, wrote⟩

end Run

/-- A run that fails, for whatever reason, leaves all files as they were. One that succeeds has
changed the output alone, which holds the text that interpolation made of the document with one
value for each reference: a text without halves, so that the bytes are UTF-8. -/
theorem run_leaves_or_writes (settings : ActionSettings) (masker : Masker)
    (ask : Nat → Text → Answer) (files : Files) :
    match (Run.run settings.job masker ask files).outcome with
    | .error _ => (Run.run settings.job masker ask files).files = files
    | .ok result => ∃ references values bytes characters report way old,
        Specification.parse settings.secrets = .ok references ∧
        Run.Answered ask 0 references values ∧
        files.document settings.document = .ok bytes ∧
        files.read settings.document.characters = .ok bytes ∧
        Utf8.decode bytes = .ok characters ∧
        (interpolate (Text.ofList (unixBreaks characters))
          ((references.map Reference.output).zip values) settings.verbose
          settings.document.text).outcome = .ok report ∧
        Utf8.Whole report.document.toList ∧
        result = ⟨settings.target, references, report.substitutions⟩ ∧
        files.target settings.target.text.toList = .ok (way, old) ∧
        (Run.run settings.job masker ask files).files.bytes? way =
          some (Utf8.encode report.document.toList) ∧
        (∀ other ≠ way, (Run.run settings.job masker ask files).files.bytes? other =
          files.bytes? other) ∧
        (Run.run settings.job masker ask files).files.directories = files.directories ∧
        (Run.run settings.job masker ask files).files.refusals = files.refusals := by
  have ends := Run.run_ends settings.job masker ask files
  cases outcome : (Run.run settings.job masker ask files).outcome with
  | error error =>
      rw [outcome] at ends
      exact ends
  | ok result =>
      rw [outcome] at ends
      obtain ⟨references, values, parsed, answered, ⟨wrote⟩⟩ := ends
      obtain ⟨bytes, characters, report, way, old, found, given, decoded, interpolated, whole, leads,
        written, told⟩ := wrote
      refine ⟨references, values, bytes, characters, report, way, old, parsed, answered, found, given,
        decoded, interpolated, whole, told, leads, ?_, ?_, ?_⟩
      · rw [written, Files.bytes?_set, if_pos rfl]
      · intro other apart
        rw [written, Files.bytes?_set, if_neg apart]
      · rw [written]
        exact ⟨Files.directories_set _ _ _, rfl⟩

-- A document that may not be opened is found, and refused once its secret was fetched.
example :
    let way : Way := ["d".toUTF8.toList]
    let files : Files := ⟨[], [(way, [])], [((way, .opening), ⟨13, "Permission denied"⟩)]⟩
    let job : Job := ⟨"p/a:A", Location.ofText "d", Location.ofText "e", false⟩
    let history := Run.run job (Masker.ofLength 4) (fun _ _ => .ofExcept (.ok "secret")) files
    history.requested = [("p/a" : Text)] ∧ history.files = files ∧ history.outcome.toOption = none := by
  decide +kernel

end SecretFill
