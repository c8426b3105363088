import SecretFill.Log.Threshold
import SecretFill.Run.Basic
import SecretFill.Settings.Source
import SecretFill.Workflow.Output
/-!
The action. It reads its settings from the environment, runs, and sets the output of the step;
every secret line is announced to the log by a command. A failure is reported once, redacted, as
the last command, and makes the action fail. Standard output may refuse a command, and then that is
what fails; if it refuses the report of a failure, nothing is reported.
-/

namespace SecretFill

open SecretFill.Text SecretFill.Workflow

inductive ActionError
  | settings (error : SettingsError)
  | run (error : RunError)
  | output (error : OutputError)
  /-- Standard output refused a command. -/
  | unprinted (refusal : Text)
  deriving DecidableEq, Repr

def ActionError.message : ActionError → Text
  | .settings error => error.message
  | .run error => error.message
  | .output error => error.message
  | .unprinted refusal => refusal

namespace Action

structure Host where
  environment : Environment
  /-- The answer to the n-th request. -/
  send : Nat → Request → Exchange
  /-- What standard output says if it does not take a text. -/
  refuses : Text → Option Text
  /-- A text that no other step is given. -/
  unique : Text
  files : Files

/-- Standard output that takes what UTF-8 can write. -/
def refusesHalves (text : Text) : Option Text :=
  (Utf8.refusal? Code.isHalf 0 text.toList).map Utf8.EncodeFault.message

structure Report where
  commands : List Command
  log : List Log.Record
  requested : List Text
  files : Files
  outcome : Except ActionError RunResult

def failureText (message : Text) : Text := "yaml-secrets failed with: " ++ message

def failedRecord : Log.Record := Log.debug "Action failed"

def reportedRecord : Log.Record := Log.debug "Action marked as failed"

def messageOf (masker : Option Masker) (error : ActionError) : Text :=
  match masker with
  | none => error.message
  | some masker => masker.redacted error.message

def fail (host : Host) (report : Report) (masker : Option Masker) (error : ActionError) : Report :=
  let command := Command.error (failureText (messageOf masker error))
  let failed := { report with log := report.log ++ [failedRecord], outcome := .error error }
  match host.refuses command.text with
  | some _ => failed
  | none =>
      { failed with
        commands := failed.commands ++ [command]
        log := failed.log ++ [reportedRecord] }

def outputName : Text := "output_file"

def successRecord (result : RunResult) : Log.Record :=
  Log.info ("Interpolated " ++ toString result.substitutions.length ++ " value(s) into " ++
    result.output.text)

def conclude (host : Host) (report : Report) (masker : Masker) (result : RunResult) : Report :=
  let (files, set) :=
    Output.set host.environment host.unique outputName result.output.text report.files
  let report := { report with files := files }
  match set with
  | .error error => fail host report (some masker) (.output error)
  | .ok commands =>
      match commands.findSome? fun command => host.refuses command.text with
      | some refusal => fail host report (some masker) (.unprinted refusal)
      | none =>
          { report with
            commands := report.commands ++ commands
            log := report.log ++ [successRecord result] }

def announcement (line : List Code) : Command := Command.addMask (Text.ofList line)

/-- Announces lines up to the first one that is refused: the lines before it, and what is said to
that one. -/
def Host.announce (host : Host) : List (List Code) → List (List Code) × Option Text
  | [] => ([], none)
  | line :: rest =>
      match host.refuses (announcement line).text with
      | some refusal => ([], some refusal)
      | none =>
          let (told, refusal) := host.announce rest
          (line :: told, refusal)

def Host.ask (host : Host) (settings : ActionSettings) (count : Nat) (locator : Text) : Answer :=
  settings.provider.get host.environment (host.send count) locator

/-- A value is lost if the log cannot be told all its lines. -/
def Host.announced (host : Host) (settings : ActionSettings) (value : Text) :
    Except SecretError Text :=
  let lines := (Masker.ofLength settings.minMaskLength).secretLines value.toList
  match (host.announce lines).2 with
  | none => .ok value
  | some refusal => .error (.unannounced lines refusal)

/-- What the run hears when it asks for a secret. -/
def Host.heard (host : Host) (settings : ActionSettings) (count : Nat) (locator : Text) : Answer :=
  let answer := host.ask settings count locator
  ⟨answer.log, answer.outcome.bind (host.announced settings)⟩

/-- The lines that the log was told of a secret before one was refused. -/
def Host.toldLast (host : Host) : Except RunError RunResult → List (List Code)
  | .error (.secret (.unannounced lines _)) => (host.announce lines).1
  | _ => []

def runWith (host : Host) (settings : ActionSettings) : Report :=
  let history :=
    Run.run settings.job (Masker.ofLength settings.minMaskLength) (host.heard settings) host.files
  let report (outcome : Except ActionError RunResult) : Report :=
    ⟨(history.announced ++ host.toldLast history.outcome).map announcement,
      Log.info ("Secret provider: " ++ settings.provider.name) :: history.log, history.requested,
      history.files, outcome⟩
  match history.outcome with
  | .error error => fail host (report (.error (.run error))) (some history.masker) (.run error)
  | .ok result => conclude host (report (.ok result)) history.masker result

def run (host : Host) : Report :=
  match ActionSettings.ofEnvironment host.environment with
  | .error error =>
      fail host ⟨[], [], [], host.files, .error (.settings error)⟩ none (.settings error)
  | .ok settings => runWith host settings

def Report.text (report : Report) : Text := Text.join (report.commands.map Command.text)

def Report.exitCode (report : Report) : UInt32 :=
  match report.outcome with
  | .ok _ => 0
  | .error _ => 1

end Action

end SecretFill
