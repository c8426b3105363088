import SecretFill.Files.Basic
import SecretFill.Run.Fetch
import SecretFill.Settings.Basic
/-!
A run: the document is looked for, the specification is read, the secrets are fetched one by one,
and then the document is interpolated and written. Nothing is written before that, so a run that
fails leaves every file as it was. Between two answers a run is a value that waits.
-/

namespace SecretFill

open SecretFill.Text

inductive RunError
  | absent (document : Location)
  | notFile (document : Location)
  | unreadable (document : Location) (fault : FileFault)
  /-- The document is not UTF-8. -/
  | notText (document : Location) (fault : Utf8.Fault)
  | reference (error : ReferenceError)
  | secret (error : SecretError)
  | interpolation (error : InterpolationError)
  | file (error : FileError)
  deriving DecidableEq, Repr

def RunError.message : RunError → Text
  | .absent document => "File " ++ document.text ++ " does not exist"
  | .notFile document => "Path is not a file: " ++ document.text
  | .unreadable document fault =>
      "Failed to read file '" ++ document.text ++ "': " ++ FileError.message ⟨document.text, fault⟩
  | .notText document fault =>
      "Failed to read file '" ++ document.text ++ "': " ++ fault.message
  | .reference error => error.message
  | .secret error => error.message
  | .interpolation error => error.message
  | .file error => error.message

structure Job where
  secrets : Text
  document : Location
  output : Location
  verbose : Bool
  deriving DecidableEq, Repr

def ActionSettings.job (settings : ActionSettings) : Job :=
  ⟨settings.secrets, settings.document, settings.target, settings.verbose⟩

/-- What a run did, without any value. -/
structure RunResult where
  output : Location
  references : List Reference
  substitutions : List Substitution
  deriving DecidableEq, Repr

def RunResult.unusedOutputs (result : RunResult) : List Text :=
  (result.references.map Reference.output).filter fun output =>
    output ∉ result.substitutions.map Substitution.key

/-- The bytes of a document that is there. Whether they can be read is not asked. -/
def Files.document (files : Files) (document : Location) : Except RunError (List UInt8) :=
  match files.find document.characters with
  | .ok (.file _ bytes) => .ok bytes
  | .ok (.directory _) => .error (.notFile document)
  | .ok (.vacant _) => .error (.absent document)
  | .error .nameTooLong => .error (.file ⟨document.text, .nameTooLong⟩)
  | .error (.refused access refusal) => .error (.file ⟨document.text, .refused access refusal⟩)
  -- Any other path that cannot be followed counts as absent.
  | .error _ => .error (.absent document)

/-- The text of a document, its line breaks written as line feeds. -/
def Files.documentText (files : Files) (document : Location) : Except RunError Text :=
  match files.document document with
  | .error error => .error error
  | .ok _ =>
      match files.read document.characters with
      | .error fault => .error (.unreadable document fault)
      | .ok bytes =>
          match Utf8.decode bytes with
          | .ok text => .ok (Text.ofList (unixBreaks text))
          | .error fault => .error (.notText document fault)

def writtenRecord (output : Location) (substitutions : List Substitution) : Log.Record :=
  let keys := Text.intercalate ", " (substitutedKeys substitutions)
  Log.info ("Wrote " ++ output.text ++ " (" ++ toString substitutions.length ++
    " substitution(s), keys: " ++ (if keys.isEmpty then ("none" : Text) else keys) ++ ")")

def interpolateFile (document output : Location) (map : SubstitutionMap) (verbose : Bool)
    (files : Files) : Logged RunError (Files × List Substitution) :=
  (Logged.ofExcept (files.documentText document)).andThen fun text =>
    ((interpolate text map verbose document.text).mapError RunError.interpolation).andThen
      fun report =>
        match files.write output.text (Utf8.encode report.document.toList) with
        | .error error => .fail (.file error)
        | .ok files =>
            Logged.after [writtenRecord output report.substitutions]
              (.ok (files, report.substitutions))

def unusedRecord (document : Location) (output : Text) : Log.Record :=
  Log.warning ("Output key '" ++ output ++ "' matched no placeholder in " ++ document.text)

namespace Run

structure Waiting where
  job : Job
  references : List Reference
  fetch : Fetch.Waiting
  deriving DecidableEq, Repr

inductive State
  | paused (waiting : Waiting)
  | finished (masker : Masker) (outcome : Except RunError RunResult)

/-- What happens between two answers, with the files as they are after it. -/
structure Turn where
  log : List Log.Record
  announced : List (List Code)
  files : Files
  state : State

def conclude (job : Job) (references : List Reference) (fetched : SubstitutionMap)
    (masker : Masker) (files : Files) : Turn :=
  let written := interpolateFile job.document job.output fetched job.verbose files
  match written.outcome with
  -- Nothing was written: the files are those of before.
  | .error error => ⟨written.log, [], files, .finished masker (.error error)⟩
  | .ok (files, substitutions) =>
      let result : RunResult := ⟨job.output, references, substitutions⟩
      ⟨written.log ++ result.unusedOutputs.map (unusedRecord job.document), [], files,
        .finished masker (.ok result)⟩

def proceed (job : Job) (references : List Reference) (files : Files) (step : Fetch.Step) :
    Turn :=
  match step.state with
  | .paused fetch => ⟨step.log, step.announced, files, .paused ⟨job, references, fetch⟩⟩
  | .failed masker error =>
      ⟨step.log, step.announced, files, .finished masker (.error (.secret error))⟩
  | .done masker fetched =>
      let turn := conclude job references fetched masker files
      { turn with
        log := step.log ++ turn.log
        announced := step.announced ++ turn.announced }

def begin (job : Job) (masker : Masker) (files : Files) : Turn :=
  match files.document job.document with
  | .error error => ⟨[], [], files, .finished masker (.error error)⟩
  -- So far the document only has to be there; its text is read once all secrets are.
  | .ok _ =>
      match Specification.parse job.secrets with
      | .error error => ⟨[], [], files, .finished masker (.error (.reference error))⟩
      | .ok references =>
          let turn := proceed job references files (Fetch.next masker [] references)
          { turn with
            log := Log.info ("Parsed " ++ toString references.length ++ " secret reference(s)") ::
              turn.log }

def Waiting.resume (waiting : Waiting) (answer : Answer) (files : Files) : Turn :=
  proceed waiting.job waiting.references files (waiting.fetch.resume answer)

def Waiting.locator (waiting : Waiting) : Text := waiting.fetch.reference.locator

def State.pending : State → Nat
  | .paused waiting => (Fetch.State.paused waiting.fetch).pending
  | .finished _ _ => 0

theorem pending_conclude (job : Job) (references : List Reference) (fetched : SubstitutionMap)
    (masker : Masker) (files : Files) :
    (conclude job references fetched masker files).state.pending = 0 := by
  simp only [conclude]
  split <;> rfl

theorem pending_proceed_le (job : Job) (references : List Reference) (files : Files)
    (step : Fetch.Step) :
    (proceed job references files step).state.pending ≤ step.state.pending := by
  unfold proceed
  split
  · next fetch same => simp [State.pending, same]
  · exact Nat.zero_le _
  · simp [pending_conclude]

theorem pending_resume_lt (waiting : Waiting) (answer : Answer) (files : Files) :
    (waiting.resume answer files).state.pending < (State.paused waiting).pending :=
  Nat.lt_of_le_of_lt (pending_proceed_le _ _ _ _) (Fetch.pending_resume_lt waiting.fetch answer)

structure History where
  requested : List Text
  log : List Log.Record
  announced : List (List Code)
  files : Files
  masker : Masker
  outcome : Except RunError RunResult

/-- Completes a run; `ask` answers the requests, which are counted. -/
def Turn.complete (ask : Nat → Text → Answer) (count : Nat) (turn : Turn) : History :=
  match state : turn.state with
  | .finished masker outcome => ⟨[], turn.log, turn.announced, turn.files, masker, outcome⟩
  | .paused waiting =>
      let locator := waiting.locator
      let rest := (waiting.resume (ask count locator) turn.files).complete ask (count + 1)
      { rest with
        requested := locator :: rest.requested
        log := turn.log ++ rest.log
        announced := turn.announced ++ rest.announced }
termination_by turn.state.pending
decreasing_by
  rw [state]
  exact pending_resume_lt waiting _ _

def run (job : Job) (masker : Masker) (ask : Nat → Text → Answer) (files : Files) : History :=
  (begin job masker files).complete ask 0

end Run

end SecretFill
