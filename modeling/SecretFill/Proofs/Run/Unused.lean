import SecretFill.Proofs.Interpolation.Outcome
import SecretFill.Proofs.Interpolation.Tour
import SecretFill.Proofs.Run.Discipline
/-!
The outputs that a run did not use. A text takes one value as a whole, so a key may stand in a
document and yet replace nothing: then another key that goes before it stands wherever it does. Such
outputs are reported and warned about like those that stand nowhere.
-/

namespace SecretFill

open SecretFill.Data SecretFill.Forest SecretFill.Text
open Placeholder (Stands)

/-- One of some keys goes before another one: it is longer, or it is as long and stands earlier. -/
def Outranks (keys : List Text) (first second : Text) : Prop :=
  second.length < first.length ∨
    second.length = first.length ∧ keys.idxOf first < keys.idxOf second

namespace SubstitutionMap

variable {map : SubstitutionMap} {first second : Text × Text}

theorem idxOf_map_fst (distinct : (map.map Prod.fst).Nodup) (member : first ∈ map) :
    (map.map Prod.fst).idxOf first.1 = map.idxOf first := by
  have inside : map.idxOf first < map.length := List.idxOf_lt_length_of_mem member
  have there := distinct.idxOf_getElem (map.idxOf first) (by simpa using inside)
  rwa [List.getElem_map, List.getElem_idxOf inside] at there

theorem precedes_iff (distinct : (map.map Prod.fst).Nodup) (member : first ∈ map)
    (member' : second ∈ map) :
    map.Precedes first second ↔ Outranks (map.map Prod.fst) first.1 second.1 := by
  rw [Precedes, Outranks, idxOf_map_fst distinct member, idxOf_map_fst distinct member']

end SubstitutionMap

/-! ### Keys that are recorded -/

def Used (map : SubstitutionMap) (stream : Stream) (key : Text) : Prop :=
  ∃ root ∈ stream.roots, ∃ text, Reaches stream.cells root (.atom (.text text)) ∧
    ∃ entry, map.Chooses text entry ∧ entry.1 = key

theorem Tour.recorded_iff {stream : Stream} {plots : List Plot} {forest : Forest}
    {seats : List Seat} (tour : Tour stream plots forest seats) {map : SubstitutionMap}
    {key : Text} :
    key ∈ ((postingsOf map seats).map Posting.record).map Substitution.key ↔
      Used map stream key := by
  simp only [List.map_map, List.mem_map]
  constructor
  · rintro ⟨posting, member, rfl⟩
    obtain ⟨inside, text, value, chosen, -⟩ := mem_postingsOf.mp member
    obtain ⟨root, document, reaches⟩ := tour.reaches inside
    exact ⟨root, document, text, value ▸ reaches, posting.entry, chosen, rfl⟩
  · rintro ⟨root, document, text, reaches, entry, chosen, rfl⟩
    obtain ⟨seat, inside, value⟩ := tour.seated document reaches
    exact ⟨⟨seat, entry, formIn entry.1 text⟩,
      mem_postingsOf.mpr ⟨inside, text, value, chosen, rfl⟩, rfl⟩

theorem recorded_iff {text source : Text} {map : SubstitutionMap} {verbose : Bool}
    {report : Report} (unequal : map.Nodup)
    (ended : (interpolate text map verbose source).outcome = .ok report) :
    ∃ stream, readDocuments text source = .ok stream ∧
      ∀ key, key ∈ report.substitutions.map Substitution.key ↔ Used map stream key := by
  rw [interpolate_outcome] at ended
  obtain ⟨stream, read, ended⟩ := bind_eq_ok ended
  refine ⟨stream, read, fun key => ?_⟩
  -- Without documents nothing is recorded, and no key is used.
  by_cases empty : stream.roots = []
  · rw [if_pos (List.isEmpty_iff.mpr empty)] at ended
    cases ended
    simp [Used, empty]
  · rw [if_neg (mt List.isEmpty_iff.mp empty)] at ended
    obtain ⟨⟨changed, substitutions⟩, done, ended⟩ := bind_eq_ok ended
    obtain ⟨document, wrote, ended⟩ := bind_eq_ok ended
    cases ended
    cases accepted : plantAll stream.cells stream.roots.length 0 stream.roots Forest.empty with
    | error error =>
        simp only [substitute, accepted] at done
        cases done
    | ok planted =>
        obtain ⟨plots, forest⟩ := planted
        obtain ⟨seats, tour⟩ := exists_tour accepted
        cases done.symm.trans (tour.substitutes accepted unequal)
        exact tour.recorded_iff

section Keys

variable {map : SubstitutionMap} {entry : Text × Text} {text : Text}

theorem chooses_key_iff (distinct : (map.map Prod.fst).Nodup) (member : entry ∈ map) :
    (∃ chosen, map.Chooses text chosen ∧ chosen.1 = entry.1) ↔ map.Chooses text entry := by
  refine ⟨?_, fun chosen => ⟨entry, chosen, rfl⟩⟩
  rintro ⟨chosen, chooses, same⟩
  have inside := ((SubstitutionMap.chooses_iff distinct.of_map).mp chooses).1
  rwa [List.inj_on_of_nodup_map distinct inside member same] at chooses

theorem exists_outranks_iff (distinct : (map.map Prod.fst).Nodup) (member : entry ∈ map) :
    (∃ other ∈ map, Stands other.1.toList text.toList ∧ map.Precedes other entry) ↔
      ∃ other ∈ map.map Prod.fst, Stands other.toList text.toList ∧
        Outranks (map.map Prod.fst) other entry.1 := by
  constructor
  · rintro ⟨other, member', present, before⟩
    exact ⟨other.1, List.mem_map_of_mem member', present,
      (SubstitutionMap.precedes_iff distinct member' member).mp before⟩
  · rintro ⟨_, held, present, before⟩
    obtain ⟨other, member', rfl⟩ := List.mem_map.mp held
    exact ⟨other, member', present,
      (SubstitutionMap.precedes_iff distinct member' member).mpr before⟩

/-- A key of a map replaces nothing if wherever it stands another key that goes before it does too.
-/
theorem not_used_iff (distinct : (map.map Prod.fst).Nodup) (stream : Stream)
    (member : entry ∈ map) :
    ¬ Used map stream entry.1 ↔ ∀ root ∈ stream.roots, ∀ text,
      Reaches stream.cells root (.atom (.text text)) → Stands entry.1.toList text.toList →
        ∃ other ∈ map.map Prod.fst, Stands other.toList text.toList ∧
          Outranks (map.map Prod.fst) other entry.1 := by
  have passed (text : Text) : (¬ ∃ chosen, map.Chooses text chosen ∧ chosen.1 = entry.1) ↔
      (Stands entry.1.toList text.toList → ∃ other ∈ map.map Prod.fst,
        Stands other.toList text.toList ∧ Outranks (map.map Prod.fst) other entry.1) := by
    rw [chooses_key_iff distinct member, SubstitutionMap.not_chooses_iff distinct.of_map member,
      exists_outranks_iff distinct member]
  simp only [← passed, Used, not_exists, not_and]

end Keys

/-! ### Warnings -/

theorem quiet_progress (verbose : Bool) (message : Text) :
    (Log.progress verbose message).level ≠ .warning := by
  cases verbose <;> simp [Log.progress]

theorem quiet_andThen {ε α β : Type} {first : Logged ε α} {next : α → Logged ε β}
    (here : ∀ record ∈ first.log, record.level ≠ .warning)
    (onward : ∀ value, ∀ record ∈ (next value).log, record.level ≠ .warning) :
    ∀ record ∈ (first.andThen next).log, record.level ≠ .warning := by
  unfold Logged.andThen
  split
  · next value _ => exact List.forall_mem_append.mpr ⟨here, onward value⟩
  · exact here

theorem quiet_interpolate (text : Text) (map : SubstitutionMap) (verbose : Bool)
    (source : Text) :
    ∀ record ∈ (interpolate text map verbose source).log, record.level ≠ .warning := by
  refine quiet_andThen (List.forall_mem_nil _) fun stream => ?_
  split
  · simp [Logged.after, Logged.ok, Log.debug]
  · refine quiet_andThen (List.forall_mem_nil _) fun result => ?_
    refine List.forall_mem_append.mpr ⟨fun record member => ?_, ?_⟩
    · obtain ⟨substitution, -, rfl⟩ := List.mem_map.mp member
      exact quiet_progress _ _
    · split
      · exact List.forall_mem_nil _
      · simp [Logged.after, Logged.ok, quiet_progress]

theorem quiet_interpolateFile (document output : Location) (map : SubstitutionMap) (verbose : Bool)
    (files : Files) :
    ∀ record ∈ (interpolateFile document output map verbose files).log,
      record.level ≠ .warning := by
  refine quiet_andThen (List.forall_mem_nil _) fun text => ?_
  refine quiet_andThen (quiet_interpolate _ _ _ _) fun report => ?_
  split
  · exact List.forall_mem_nil _
  · simp [Logged.after, Logged.ok, writtenRecord, Log.info]

namespace Run

def State.warnings (document : Location) : State → List Log.Record
  | .finished _ (.ok result) => result.unusedOutputs.map (unusedRecord document)
  | _ => []

/-- Some records end with the warnings of a state, and what else warns there was said elsewhere. -/
def Tells (document : Location) (state : State) (elsewhere : Log.Record → Prop)
    (log : List Log.Record) : Prop :=
  ∃ before, log = before ++ state.warnings document ∧
    ∀ record ∈ before, record.level = .warning → elsewhere record

variable {job : Job} {state : State} {elsewhere : Log.Record → Prop} {log : List Log.Record}
  {ask : Nat → Text → Answer} {files : Files}

theorem Tells.prepend {document : Location} {records : List Log.Record}
    (tells : Tells document state elsewhere log)
    (here : ∀ record ∈ records, record.level = .warning → elsewhere record) :
    Tells document state elsewhere (records ++ log) := by
  obtain ⟨before, rfl, said⟩ := tells
  exact ⟨records ++ before, (List.append_assoc _ _ _).symm,
    List.forall_mem_append.mpr ⟨here, said⟩⟩

theorem tells_conclude (job : Job) (references : List Reference) (fetched : SubstitutionMap)
    (masker : Masker) (files : Files) (elsewhere : Log.Record → Prop) :
    Tells job.document (conclude job references fetched masker files).state elsewhere
      (conclude job references fetched masker files).log := by
  have quiet := quiet_interpolateFile job.document job.output fetched job.verbose files
  have silent : ∀ record ∈ (interpolateFile job.document job.output fetched job.verbose files).log,
      record.level = .warning → elsewhere record :=
    fun record member warns => absurd warns (quiet record member)
  simp only [conclude]
  split
  · exact ⟨_, (List.append_nil _).symm, silent⟩
  · exact ⟨_, rfl, silent⟩

theorem tells_proceed (job : Job) (references : List Reference) (files : Files) (step : Fetch.Step)
    (said : ∀ record ∈ step.log, record.level = .warning → elsewhere record) :
    Tells job.document (proceed job references files step).state elsewhere
      (proceed job references files step).log := by
  unfold proceed
  split
  · exact ⟨_, (List.append_nil _).symm, said⟩
  · exact ⟨_, (List.append_nil _).symm, said⟩
  · exact (tells_conclude job references _ _ files elsewhere).prepend said

theorem quiet_next (masker : Masker) (fetched : SubstitutionMap) (later : List Reference) :
    ∀ record ∈ (Fetch.next masker fetched later).log, record.level ≠ .warning := by
  cases later <;> simp [Fetch.next, Log.info]

theorem said_of_resume (waiting : Fetch.Waiting) (answer : Answer) :
    ∀ record ∈ (waiting.resume answer).log, record.level = .warning → record ∈ answer.log := by
  intro record member warns
  unfold Fetch.Waiting.resume at member
  split at member
  · exact member
  · rcases List.mem_append.mp member with said | own
    · exact said
    · rcases List.mem_cons.mp own with rfl | later
      · cases warns
      · exact absurd warns (quiet_next _ _ _ record later)

theorem tells_begin (job : Job) (masker : Masker) (files : Files) (elsewhere : Log.Record → Prop) :
    Tells job.document (begin job masker files).state elsewhere (begin job masker files).log := by
  have none : ∀ record ∈ ([] : List Log.Record), record.level = .warning → elsewhere record :=
    List.forall_mem_nil _
  unfold begin
  split
  · exact ⟨[], rfl, none⟩
  · split
    · exact ⟨[], rfl, none⟩
    · next references _ =>
        have silent : ∀ record ∈ (Fetch.next masker [] references).log,
            record.level = .warning → elsewhere record :=
          fun record member warns => absurd warns (quiet_next _ _ _ record member)
        show Tells _ _ elsewhere ([Log.info _] ++ _)
        refine (tells_proceed job references files _ silent).prepend fun record member warns => ?_
        rw [List.mem_singleton.mp member] at warns
        cases warns

/-- A record comes with the answer to one of some requests. -/
def Brought (ask : Nat → Text → Answer) (requested : List Text) (record : Log.Record) : Prop :=
  ∃ count locator, requested[count]? = some locator ∧ record ∈ (ask count locator).log

theorem Brought.append {requested : List Text} {record : Log.Record} (locator : Text)
    (brought : Brought ask requested record) : Brought ask (requested ++ [locator]) record := by
  obtain ⟨count, other, asked, said⟩ := brought
  have inside : count < requested.length := (List.getElem?_eq_some_iff.mp asked).1
  exact ⟨count, other, (List.getElem?_append_left inside).trans asked, said⟩

theorem job_of_proceed {references : List Reference} {step : Fetch.Step} {waiting : Waiting}
    (paused : (proceed job references files step).state = .paused waiting) : waiting.job = job := by
  unfold proceed at paused
  split at paused
  · cases paused
    rfl
  · cases paused
  · next masker fetched _ =>
      have ended := pending_conclude job references fetched masker files
      rw [paused] at ended
      cases ended

theorem job_of_begin {masker : Masker} {waiting : Waiting}
    (paused : (begin job masker files).state = .paused waiting) : waiting.job = job := by
  unfold begin at paused
  split at paused
  · cases paused
  · split at paused
    · cases paused
    · exact job_of_proceed paused

theorem Moment.keeps_job {masker : Masker} {progress : Progress} {current : Files} {waiting : Waiting}
    (moment : Moment job masker ask files progress current)
    (paused : progress.state = .paused waiting) : waiting.job = job := by
  induction moment generalizing waiting with
  | start => exact job_of_begin paused
  | step before earlier ih => exact (job_of_proceed paused).trans (ih earlier)

/-- A run warns about the outputs that it did not use when it ends, and of its own about nothing
else. -/
theorem Moment.tells {masker : Masker} {progress : Progress} {current : Files}
    (moment : Moment job masker ask files progress current) :
    Tells job.document progress.state (Brought ask progress.requested) progress.log := by
  induction moment with
  | start => exact tells_begin job masker files _
  | @step progress current waiting before paused ih =>
      have said : ∀ record ∈ (waiting.fetch.resume (progress.answer ask waiting)).log,
          record.level = .warning →
            Brought ask (progress.requested ++ [waiting.locator]) record :=
        fun record member warns => ⟨progress.requested.length, waiting.locator,
          List.getElem?_concat_length, said_of_resume _ _ record member warns⟩
      obtain ⟨earlier, whole, quiet⟩ := ih
      -- A run that waits has not warned about any output yet.
      rw [paused] at whole
      rw [← before.keeps_job paused]
      have told := tells_proceed waiting.job waiting.references current _ said
      refine told.prepend fun record member warns => ?_
      rw [whole] at member
      exact (quiet record ((List.append_nil earlier) ▸ member) warns).append waiting.locator

theorem run_tells (job : Job) (masker : Masker) (ask : Nat → Text → Answer) (files : Files) :
    let history := run job masker ask files
    Tells job.document (.finished history.masker history.outcome) (Brought ask history.requested)
      history.log := by
  obtain ⟨last, moment, ended, asked, log, -⟩ := last_moment job masker ask files
  have tells := moment.tells
  rwa [ended, asked, log] at tells

theorem concludes (minLength : Nat) (ask : Nat → Text → Answer) {references : List Reference}
    {bytes : List UInt8} (found : files.document job.document = .ok bytes)
    (parsed : Specification.parse job.secrets = .ok references)
    (answers : ∀ count locator error, (ask count locator).outcome ≠ .error error) :
    ∃ values masker, Answered ask 0 references values ∧
      (conclude job references (mapOf references values) masker files).state =
        .finished masker (run job (Masker.ofLength minLength) ask files).outcome := by
  obtain ⟨last, moment, ended, -⟩ := last_moment job (Masker.ofLength minLength) ask files
  obtain ⟨earlier, later, values, rfl, holds⟩ := moment.holds found parsed
  have stands := holds.stands
  rw [ended] at stands
  cases later with
  | nil =>
      rw [List.append_nil]
      exact ⟨values, _, holds.answered, stands.2.2⟩
  | cons reference later =>
      -- References are left over only where an answer was an error.
      obtain ⟨-, -, error, failed, -⟩ := stands
      exact absurd failed (answers _ _ error)

end Run

/-- An output is listed as unused, and warned about at the end, exactly if it loses every text that
could use it: each text of the document that holds a placeholder of it, as far as a walk comes to
texts, holds one of another output too that is longer, or as long and of an earlier reference. Of
its own a run warns about nothing else. -/
theorem unused_outputs_are_outranked (job : Job) (masker : Masker)
    (ask : Nat → Text → Answer) (files : Files) (result : RunResult)
    (returned : (Run.run job masker ask files).outcome = .ok result) :
    let history := Run.run job masker ask files
    let outputs := result.references.map Reference.output
    ∃ document stream, files.documentText job.document = .ok document ∧
      readDocuments document job.document.text = .ok stream ∧
      Specification.parse job.secrets = .ok result.references ∧
      (∀ output ∈ outputs, output ∈ result.unusedOutputs ↔ ∀ root ∈ stream.roots, ∀ text,
        Reaches stream.cells root (.atom (.text text)) → Stands output.toList text.toList →
          ∃ other ∈ outputs, Stands other.toList text.toList ∧ Outranks outputs other output) ∧
      ∃ before, history.log = before ++ result.unusedOutputs.map (unusedRecord job.document) ∧
        ∀ record ∈ before, record.level = .warning → Run.Brought ask history.requested record := by
  intro history outputs
  have ends := Run.run_ends job masker ask files
  rw [returned] at ends
  obtain ⟨references, values, parsed, answered, ⟨wrote⟩⟩ := ends
  have told := wrote.told
  obtain rfl : result.references = references := congrArg RunResult.references told
  have keys : (outputs.zip values).map Prod.fst = outputs := map_fst_zip answered.length
  have distinct : ((outputs.zip values).map Prod.fst).Nodup := by
    rw [keys]
    exact outputs_nodup parsed
  have document : files.documentText job.document =
      .ok (Text.ofList (unixBreaks wrote.characters)) := by
    simp only [Files.documentText, wrote.found, wrote.given, wrote.decoded]
  obtain ⟨stream, read, recorded⟩ := recorded_iff distinct.of_map wrote.interpolated
  refine ⟨_, stream, document, read, parsed, fun output member => ?_, ?_⟩
  · obtain ⟨entry, inside, rfl⟩ := List.mem_map.mp (keys.symm ▸ member)
    have unused : entry.1 ∈ result.unusedOutputs ↔
        ¬ Used (outputs.zip values) stream entry.1 := by
      rw [RunResult.unusedOutputs, List.mem_filter, and_iff_right member, decide_eq_true_eq, told,
        recorded]
    have passed := not_used_iff distinct stream inside
    rw [keys] at passed
    exact unused.trans passed
  · have tells : Run.Tells _ (.finished history.masker history.outcome) _ _ :=
      Run.run_tells job masker ask files
    rwa [returned] at tells

/-! ### A text with two keys -/

def twoKeysStream : Stream :=
  ⟨#[.mapping [(.atom (.text "a"), .atom (.text "$A $BB"))]], [.cell 0]⟩

theorem interpolate_two_keys (verbose : Bool) :
    (interpolate "a: $A $BB\n" [("A", "value-a"), ("BB", "value-b")] verbose "d").outcome =
      .ok ⟨"a: value-b\n", [⟨"a", "BB"⟩]⟩ := by
  let changed : Stream := ⟨#[.mapping [(.atom (.text "a"), .atom (.text "$A $BB"))],
    .mapping [(.atom (.text "a"), .atom (.text "value-b"))]], [.cell 1]⟩
  have read : readDocuments "a: $A $BB\n" "d" = .ok twoKeysStream := by decide +kernel
  have sorted : SubstitutionMap.longestFirst [("A", "value-a"), ("BB", "value-b")] =
      ([("BB", "value-b"), ("A", "value-a")] : SubstitutionMap) := by
    simp [SubstitutionMap.longestFirst, List.mergeSort, List.merge]
    decide
  have done : substitute [("A", "value-a"), ("BB", "value-b")] twoKeysStream =
      .ok (changed, [⟨"a", "BB"⟩]) := by
    rw [substitute, sorted]
    decide +kernel
  have wrote : Yaml.write changed = .ok "a: value-b\n" := by decide +kernel
  exact interpolate_of_write read (by simp [twoKeysStream]) done wrote

theorem run_two_keys :
    let files : Files := ⟨[], [(["d".toUTF8.toList], "a: $A $BB\n".toUTF8.toList)], []⟩
    let job : Job := ⟨"p/a:A\np/b:BB", Location.ofText "d", Location.ofText "d", false⟩
    let ask (count : Nat) (_ : Text) : Answer :=
      .ofExcept (.ok (if count = 0 then ("value-a" : Text) else "value-b"))
    (Run.run job (Masker.ofLength 4) ask files).outcome =
      .ok ⟨Location.ofText "d", [⟨"p/a", "A"⟩, ⟨"p/b", "BB"⟩], [⟨"a", "BB"⟩]⟩ := by
  intro files job ask
  let references : List Reference := [⟨"p/a", "A"⟩, ⟨"p/b", "BB"⟩]
  let after : Files := ⟨[], [(["d".toUTF8.toList], "a: value-b\n".toUTF8.toList)], []⟩
  have found : files.document job.document = .ok "a: $A $BB\n".toUTF8.toList := by decide +kernel
  have text : files.documentText job.document = .ok "a: $A $BB\n" := by decide +kernel
  have parsed : Specification.parse job.secrets = .ok references := by decide +kernel
  have kept : files.write job.output.text (Utf8.encode ("a: value-b\n" : Text).toList) = .ok after := by
    decide +kernel
  have made : (interpolateFile job.document job.output
      (Run.mapOf references ["value-a", "value-b"]) job.verbose files).outcome =
      .ok (after, [⟨"a", "BB"⟩]) := by
    have interpolated : (interpolate "a: $A $BB\n" (Run.mapOf references ["value-a", "value-b"])
        job.verbose job.document.text).outcome = _ := interpolate_two_keys job.verbose
    simp only [interpolateFile, outcome_andThen, Logged.ofExcept, text, bind_ok, Logged.mapError,
      interpolated, Except.mapError, kept]
    rfl
  obtain ⟨values, masker, answered, ended⟩ := Run.concludes 4 ask found parsed
    fun count locator error same => by cases same
  have same : values = [("value-a" : Text), "value-b"] := by
    simp only [references] at answered
    obtain - | ⟨one, - | ⟨two, ⟨⟩⟩⟩ := answered
    cases one
    cases two
    rfl
  have concluded : (Run.conclude job references (Run.mapOf references values) masker files).state =
      .finished masker (.ok ⟨job.output, references, [⟨"a", "BB"⟩]⟩) := by
    simp only [same, Run.conclude, made]
  rw [concluded] at ended
  exact (Run.State.finished.inj ended).2.symm

/-- Of the two keys in the text the shorter one is unused, though it is there. -/
theorem unused_outputs_are_outranked_two_keys :
    let files : Files := ⟨[], [(["d".toUTF8.toList], "a: $A $BB\n".toUTF8.toList)], []⟩
    let job : Job := ⟨"p/a:A\np/b:BB", Location.ofText "d", Location.ofText "d", false⟩
    let ask (count : Nat) (_ : Text) : Answer :=
      .ofExcept (.ok (if count = 0 then ("value-a" : Text) else "value-b"))
    ∃ result document stream, (Run.run job (Masker.ofLength 4) ask files).outcome = .ok result ∧
      result.unusedOutputs = [("A" : Text)] ∧ readDocuments document "d" = .ok stream ∧
      ∀ output ∈ (["A", "BB"] : List Text), output ∈ result.unusedOutputs ↔
          ∀ root ∈ stream.roots, ∀ text,
        Reaches stream.cells root (.atom (.text text)) → Stands output.toList text.toList →
          ∃ other ∈ (["A", "BB"] : List Text), Stands other.toList text.toList ∧
            Outranks ["A", "BB"] other output := by
  intro files job ask
  obtain ⟨document, stream, -, read, -, exact, -⟩ :=
    unused_outputs_are_outranked job (Masker.ofLength 4) ask files _ run_two_keys
  exact ⟨_, document, stream, run_two_keys, by decide, read, exact⟩

/-- A key whose placeholder stands in the document is reported and warned about as unused. -/
theorem unused_output_stands_in_document :
    let files : Files := ⟨[], [(["d".toUTF8.toList], "a: $A $BB\n".toUTF8.toList)], []⟩
    let job : Job := ⟨"p/a:A\np/b:BB", Location.ofText "d", Location.ofText "d", false⟩
    let ask (count : Nat) (_ : Text) : Answer :=
      .ofExcept (.ok (if count = 0 then ("value-a" : Text) else "value-b"))
    let history := Run.run job (Masker.ofLength 4) ask files
    ∃ result, history.outcome = .ok result ∧
      files.documentText job.document = .ok "a: $A $BB\n" ∧
      readDocuments "a: $A $BB\n" job.document.text = .ok twoKeysStream ∧
      (∃ root ∈ twoKeysStream.roots,
        Reaches twoKeysStream.cells root (.atom (.text "$A $BB")) ∧
          Stands ("A" : Text).toList ("$A $BB" : Text).toList) ∧
      ("A" : Text) ∈ result.unusedOutputs ∧ unusedRecord job.document "A" ∈ history.log := by
  intro files job ask history
  have tells : Run.Tells _ (.finished history.masker history.outcome) _ _ :=
    Run.run_tells job (Masker.ofLength 4) ask files
  have returned : history.outcome = _ := run_two_keys
  have inside : Inside twoKeysStream.cells (.cell 0) (.atom (.text "$A $BB")) :=
    (inside_cell rfl _).mpr List.mem_cons_self
  have listed : ("A" : Text) ∈ RunResult.unusedOutputs
      ⟨job.output, [⟨"p/a", "A"⟩, ⟨"p/b", "BB"⟩], [⟨"a", "BB"⟩]⟩ := by decide
  refine ⟨_, returned, by decide +kernel, by decide +kernel,
    ⟨.cell 0, List.mem_cons_self, .single inside, ?_⟩, listed, ?_⟩
  · exact (Placeholder.occurs_iff_stands _ _).mp (by decide)
  · rw [returned] at tells
    obtain ⟨before, whole, -⟩ := tells
    rw [whole]
    exact List.mem_append_right _ (List.mem_map_of_mem listed)

end SecretFill
