import SecretFill.Json.Value
import SecretFill.Run.Basic
import SecretFill.Server
import SecretFill.Settings.Check
/-!
The tools of the server. A tool answers with an object that says whether it succeeded; it never
holds a fetched value, and errors of a run are redacted with the masker of that run. An error that
is not foreseen escapes the tool.
-/

namespace SecretFill

open SecretFill.Text

/-- Whether a tool reports this error. Others escape it. -/
def InterpolationError.isForeseen : InterpolationError → Bool
  | .document _ => true
  | .scalar _ => false
  | .cycle _ => true
  | .unnamedKey => false
  | .unwritable (.number _) => false
  | .unwritable _ => true

def RunError.isForeseen : RunError → Bool
  | .interpolation error => error.isForeseen
  | .secret (.client _) => false
  | .secret (.unannounced _ _) => false
  | .file ⟨_, .nullCharacter⟩ => false
  | .file ⟨_, .notEncodable _⟩ => false
  | _ => true

namespace Tool

inductive Reply
  | failure (message : Text)
  | references (references : List Reference)
  | document (report : Report)
  | result (result : RunResult)
  deriving DecidableEq, Repr

def referenceJson (reference : Reference) : Json.Value :=
  .object [("locator", .text reference.locator), ("output", .text reference.output)]

def substitutionJson (substitution : Substitution) : Json.Value :=
  .object [("path", .text substitution.path), ("key", .text substitution.key)]

def resultMembers (result : RunResult) : List (Text × Json.Value) :=
  [("output_file", .text result.output.text),
    ("references", .array (result.references.map referenceJson)),
    ("substitutions", .array (result.substitutions.map substitutionJson)),
    ("unused_outputs", .array (result.unusedOutputs.map .text))]

def success : Text × Json.Value := ("status", .text "success")

def Reply.json : Reply → Json.Value
  | .failure message => .object [("status", .text "failure"), ("error", .text message)]
  | .references found =>
      .object [success, ("references", .array (found.map referenceJson))]
  | .document written =>
      .object [success, ("document", .text written.document),
        ("substitutions", .array (written.substitutions.map substitutionJson))]
  | .result reached => .object (success :: resultMembers reached)

/-- Reads a specification and fetches nothing. -/
def parseReferences (secrets : Text) : Reply :=
  match Specification.parse secrets with
  | .error error => .failure error.message
  | .ok references => .references references

def stringSource : Text := "<string>"

def interpolateText (document : Text) (map : SubstitutionMap) (verbose : Bool) :
    Logged InterpolationError Reply :=
  let reading := interpolate document map verbose stringSource
  match reading.outcome with
  | .ok report => ⟨reading.log, .ok (.document report)⟩
  | .error error =>
      if error.isForeseen then ⟨reading.log, .ok (.failure error.message)⟩
      else ⟨reading.log, .error error⟩

structure FileArguments where
  secrets : Text
  document : Text
  output : Option Text
  minMaskLength : Option Int
  deriving DecidableEq, Repr

inductive Escape
  | negativeLength (fault : NegativeLength)
  | run (error : RunError)
  deriving DecidableEq, Repr

structure Call where
  log : List Log.Record
  requested : List Text
  files : Files
  outcome : Except Escape Reply

def abridged (text : List Code) : List Code :=
  if text.length ≤ 50 then text
  else text.take 25 ++ ("..." : Text).toList ++ text.drop (text.length - 24)

def problemName : Problem → Text
  | .notUnicode => "string_unicode"
  | .emptyText => "string_too_short"
  | _ => "value_error"

def argumentsText (secrets : Text) (problem : Problem) : Text :=
  "Invalid arguments: 1 validation error for ActionConfig\nsecrets\n  " ++ problem.message ++
    " [type=" ++ problemName problem ++ ", input_value=" ++
    Text.ofList (abridged (quotedCharacters secrets.toList)) ++
    ", input_type=str]\n    For further information visit " ++
    "https://errors.pydantic.dev/2.14/v/" ++ problemName problem

def contextMissing : Reply :=
  .failure "Server context not available. Tool requires context to access resources."

def jobOf (settings : Settings) (arguments : FileArguments) : Except Problem Job :=
  (Setting.secrets (.text arguments.secrets)).map fun secrets =>
    let document := Location.ofText arguments.document
    ⟨secrets, document, (arguments.output.map Location.ofText).getD document, settings.verbose⟩

def callOf (history : Run.History) : Call :=
  match history.outcome with
  | .ok result =>
      ⟨history.log, history.requested, history.files, .ok (.result result)⟩
  | .error error =>
      if error.isForeseen then
        -- Redacted once, for the log and for the answer.
        let message := history.masker.redacted error.message
        ⟨history.log ++ [Log.warning ("Interpolation failed: " ++ message)], history.requested,
          history.files, .ok (.failure message)⟩
      else ⟨history.log, history.requested, history.files, .error (.run error)⟩

def interpolateFile (context : Option Server.Context) (arguments : FileArguments)
    (ask : Nat → Text → Answer) (files : Files) : Call :=
  match context with
  | none => ⟨[], [], files, .ok contextMissing⟩
  | some context =>
      -- The least length is looked at before the arguments are.
      match context.masker arguments.minMaskLength with
      | .error fault => ⟨[], [], files, .error (.negativeLength fault)⟩
      | .ok masker =>
          match jobOf context.settings arguments with
          | .error problem =>
              ⟨[], [], files, .ok (.failure (argumentsText arguments.secrets problem))⟩
          | .ok job => callOf (Run.run job masker ask files)

end Tool

end SecretFill
