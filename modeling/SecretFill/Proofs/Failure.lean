import SecretFill.Action
import SecretFill.Proofs.Masker.Redaction
import SecretFill.Proofs.Run.Progress
import SecretFill.Proofs.Text.Utf8
import SecretFill.Proofs.Tool.Opening
import SecretFill.Proofs.Workflow.Command
/-!
Failures as they are reported. The masker of a run has registered what the provider returned, so the
redacted message of its error shows none of it; and since every command keeps to its own line, what
an action prints says exactly once, at its end, that it failed, or not at all.
-/

namespace SecretFill

open SecretFill.Text SecretFill.Workflow

namespace Run

variable {minLength : Nat} {ask : Nat → Text → Answer} {requested : List Text}

def Separable (minLength : Nat) (ask : Nat → Text → Answer) (requested : List Text) : Prop :=
  ∀ line, SecretLine minLength ask requested line → Masker.ClearOfMarker line

def Hidden (minLength : Nat) (ask : Nat → Text → Answer) (requested : List Text)
    (text : Text) : Prop :=
  ∀ line, SecretLine minLength ask requested line → ¬ line <:+: text.toList

theorem hidden_redacted (job : Job) (minLength : Nat) (ask : Nat → Text → Answer) (files : Files)
    (text : Text) :
    let history := run job (Masker.ofLength minLength) ask files
    Separable minLength ask history.requested →
      Hidden minLength ask history.requested (history.masker.redacted text) := by
  intro history separable line secret
  have registered := run_registered job minLength ask files
  have clear : ∀ line ∈ history.masker.lines, Masker.ClearOfMarker line :=
    fun line member => separable line ((registered line).mp member)
  rw [Masker.redacted, Text.toList_ofList]
  exact Masker.redact_hides clear text.toList line ((registered line).mpr secret)

end Run

namespace Action

variable {host : Host} {settings : ActionSettings}

def Host.history (host : Host) (settings : ActionSettings) : Run.History :=
  Run.run settings.job (Masker.ofLength settings.minMaskLength) (host.heard settings) host.files

/-! ### Standard output -/

/-- Standard output takes the announcements of all secret lines of a value. -/
def Host.Takes (host : Host) (settings : ActionSettings) (value : Text) : Prop :=
  ∀ line ∈ (Masker.ofLength settings.minMaskLength).secretLines value.toList,
    host.refuses (announcement line).text = none

theorem refusesHalves_eq_none_iff (text : Text) :
    refusesHalves text = none ↔ Utf8.Whole text.toList := by
  rw [refusesHalves, Option.map_eq_none_iff]
  exact Utf8.refusal?_eq_none_iff 0

theorem announce_fst (host : Host) (lines : List (List Code)) :
    ∀ line ∈ (host.announce lines).1, host.refuses (announcement line).text = none := by
  induction lines with
  | nil => exact List.forall_mem_nil _
  | cons line rest ih =>
      rw [Host.announce]
      cases taken : host.refuses (announcement line).text with
      | some refusal => exact List.forall_mem_nil _
      | none => exact List.forall_mem_cons.mpr ⟨taken, ih⟩

theorem announce_snd_eq_none_iff (host : Host) (lines : List (List Code)) :
    (host.announce lines).2 = none ↔
      ∀ line ∈ lines, host.refuses (announcement line).text = none := by
  induction lines with
  | nil => simp [Host.announce]
  | cons line rest ih =>
      rw [Host.announce, List.forall_mem_cons]
      cases host.refuses (announcement line).text with
      | some refusal => simp
      | none => simpa using ih

theorem announced_eq_ok_iff {value other : Text} :
    host.announced settings value = .ok other ↔ value = other ∧ host.Takes settings value := by
  rw [Host.announced, Host.Takes, ← announce_snd_eq_none_iff]
  cases (host.announce _).2 <;> simp

theorem heard_eq_ok_iff {count : Nat} {locator value : Text} :
    (host.heard settings count locator).outcome = .ok value ↔
      (host.ask settings count locator).outcome = .ok value ∧ host.Takes settings value := by
  rw [Host.heard]
  cases (host.ask settings count locator).outcome with
  | error error => simp [Except.bind]
  | ok other =>
      rw [Except.bind, announced_eq_ok_iff, Except.ok.injEq]
      exact and_congr_right fun same => by rw [same]

theorem returned_heard {requested : List Text} {value : Text} :
    Run.Returned (host.heard settings) requested value ↔
      Run.Returned (host.ask settings) requested value ∧ host.Takes settings value := by
  simp only [Run.Returned, heard_eq_ok_iff, ← and_assoc, exists_and_right]

theorem secretLine_heard {requested : List Text}
    (takes : ∀ value, Run.Returned (host.ask settings) requested value → host.Takes settings value)
    (line : List Code) :
    Run.SecretLine settings.minMaskLength (host.heard settings) requested line ↔
      Run.SecretLine settings.minMaskLength (host.ask settings) requested line := by
  simp only [Run.SecretLine, returned_heard]
  refine exists_congr fun value => and_congr_left' ?_
  exact and_iff_left_of_imp (takes value)

/-! ### Commands -/

def errorMark : List Code := [Code.char ':', ':', 'e', 'r', 'r', 'o', 'r', ':', ':']

theorem read?_of_name {name : Text} (colon : Code.char ':' ∉ name.toList)
    (blank : Code.char ' ' ∉ name.toList) (data : List Code) :
    Command.read? ([Code.char ':', ':'] ++ (name.toList ++ ([Code.char ':', ':'] ++ data))) =
      some ⟨name, [], Text.ofList (unescapeData data)⟩ := by
  rw [Command.read?, dropPrefix?_append]
  simp only [Option.bind_eq_bind, Option.bind_some, cutAt_append colon, Command.readHeader,
    cutAt_of_absent blank, Text.ofList_toList]

theorem read?_errorMark (data : List Code) :
    Command.read? (errorMark ++ data) =
      some (Command.error (Text.ofList (unescapeData data))) := by
  have shape : errorMark ++ data =
      [Code.char ':', ':'] ++ (("error" : Text).toList ++ ([Code.char ':', ':'] ++ data)) := by
    simp [errorMark]
  rw [shape]
  exact read?_of_name (by decide) (by decide) data

/-- A line that begins like an error is one: the runner reads it so, and reads what was issued. -/
theorem name_of_errorMark {command : Command} (plain : command.Plain)
    (starts : errorMark <+: command.line) : command.name = "error" := by
  rcases starts with ⟨data, same⟩
  have read := Command.read?_line plain
  rw [← same, read?_errorMark] at read
  rw [← Option.some.inj read]
  rfl

theorem plain_setOutput (value : Text) : (Command.setOutput outputName value).Plain where
  name := by
    show ∀ character ∈ [Code.char ' ', ':', '\r', '\n'], character ∉ ("set-output" : Text).toList
    decide
  keys := by
    intro property member
    rw [List.mem_singleton.mp member]
    show ∀ character ∈ [Code.char '=', ',', ':', '\r', '\n'], character ∉ ("name" : Text).toList
    decide

theorem line_error (message : Text) :
    (Command.error message).line = errorMark ++ escapeData message.toList := by
  show Code.char ':' :: ':' :: ("error" : Text).toList ++ [] ++
      Code.char ':' :: ':' :: escapeData message.toList = _
  simp [errorMark]

/-- What an action prints before it reports how it ended: it keeps the secret lines out of the log
and perhaps sets its output, and standard output takes it. -/
def Quiet (host : Host) (commands : List Command) : Prop :=
  ∀ command ∈ commands, command.Plain ∧ command.name ≠ "error" ∧ host.refuses command.text = none

theorem quiet_announced {announced : List (List Code)}
    (taken : ∀ line ∈ announced, host.refuses (announcement line).text = none) :
    Quiet host (announced.map announcement) := by
  intro command member
  rcases List.mem_map.mp member with ⟨line, announces, rfl⟩
  refine ⟨Command.plain_of_name _ (by decide), ?_, taken line announces⟩
  show ("add-mask" : Text) ≠ "error"
  decide

theorem quiet_set {environment : Environment} {unique value : Text} {files after : Files}
    {commands : List Command}
    (set : Output.set environment unique outputName value files = (after, .ok commands))
    (taken : (commands.findSome? fun command => host.refuses command.text) = none) :
    Quiet host commands := by
  intro command member
  rw [List.findSome?_eq_none_iff] at taken
  simp only [Output.set] at set
  split at set
  · cases set
    refine ⟨?_, ?_, taken command member⟩
    · rw [List.mem_singleton.mp member]
      exact plain_setOutput value
    · rw [List.mem_singleton.mp member]
      show ("set-output" : Text) ≠ "error"
      decide
  · split at set
    · cases set
    · split at set
      · cases set
      · cases set
        cases member

def Host.shown (host : Host) (error : ActionError) : Text :=
  match ActionSettings.ofEnvironment host.environment with
  | .error _ => error.message
  | .ok settings => (host.history settings).masker.redacted error.message

/-- How an action reports its end: quietly, or with one error, unless standard output refuses it. -/
def Tells (host : Host) (shown : ActionError → Text) (report : Report) : Prop :=
  match report.outcome with
  | .ok _ => Quiet host report.commands
  | .error error =>
      let last := Command.error (failureText (shown error))
      ∃ earlier, Quiet host earlier ∧ report.commands = earlier ++
        match host.refuses last.text with
        | none => [last]
        | some _ => []

theorem tells_fail {report : Report} {masker : Option Masker} {error : ActionError}
    {shown : ActionError → Text} (quiet : Quiet host report.commands)
    (same : shown error = messageOf masker error) :
    Tells host shown (fail host report masker error) := by
  simp only [fail, ← same]
  cases taken : host.refuses (Command.error (failureText (shown error))).text with
  | none => exact ⟨report.commands, quiet, by simp only [taken]⟩
  | some refusal => exact ⟨report.commands, quiet, by simp only [taken, List.append_nil]⟩

theorem requested_fail (host : Host) (report : Report) (masker : Option Masker)
    (error : ActionError) : (fail host report masker error).requested = report.requested := by
  unfold fail
  dsimp only
  split <;> rfl

theorem requested_runWith (host : Host) (settings : ActionSettings) :
    (runWith host settings).requested = (host.history settings).requested := by
  simp only [runWith, conclude]
  split
  · exact requested_fail _ _ _ _
  · split
    · exact requested_fail _ _ _ _
    · split
      · exact requested_fail _ _ _ _
      · rfl

theorem tells_runWith (host : Host) (settings : ActionSettings) :
    Tells host (fun error => (host.history settings).masker.redacted error.message)
      (runWith host settings) := by
  have announced : ∀ line ∈ (host.history settings).announced,
      host.refuses (announcement line).text = none := by
    intro line member
    obtain ⟨value, returned, secret⟩ := Run.run_announced settings.job settings.minMaskLength
      (host.heard settings) host.files line member
    exact (returned_heard.mp returned).2 line secret
  have told : ∀ line ∈ host.toldLast (host.history settings).outcome,
      host.refuses (announcement line).text = none := by
    unfold Host.toldLast
    split
    · exact announce_fst host _
    · exact List.forall_mem_nil _
  have quiet := quiet_announced (List.forall_mem_append.mpr ⟨announced, told⟩)
  -- Each way to fail redacts with the masker that the run has left.
  simp only [runWith]
  split
  · exact tells_fail quiet rfl
  · simp only [conclude]
    split
    · exact tells_fail quiet rfl
    · next commands set =>
        split
        · exact tells_fail quiet rfl
        · next taken =>
            have sets := quiet_set (Prod.ext rfl set) taken
            exact List.forall_mem_append.mpr ⟨quiet, sets⟩

theorem tells_run (host : Host) : Tells host host.shown (run host) := by
  unfold run Host.shown
  cases read : ActionSettings.ofEnvironment host.environment with
  | error error => exact tells_fail (List.forall_mem_nil _) rfl
  | ok settings => exact tells_runWith host settings

theorem not_errorMark_of_quiet {commands : List Command} (quiet : Quiet host commands) :
    ∀ line ∈ commands.map Command.line ++ [[]], ¬ errorMark <+: line := by
  intro line member starts
  rcases List.mem_append.mp member with printed | last
  · rcases List.mem_map.mp printed with ⟨command, present, rfl⟩
    have ⟨plain, other, _⟩ := quiet command present
    exact other (name_of_errorMark plain starts)
  · rw [List.mem_singleton.mp last] at starts
    exact absurd (List.prefix_nil.mp starts) (by decide)

/-- What the runner finds in the lines of an action that failed with a message: an error that says
so on the last line, or none if standard output refused it. -/
def Host.Reports (host : Host) (lines : List (List Code)) (message : Text) : Prop :=
  match host.refuses (Command.error (failureText message)).text with
  | some _ => ∀ line ∈ lines, ¬ errorMark <+: line
  | none => ∃ earlier data, lines = earlier ++ [errorMark ++ data, []] ∧
      (∀ line ∈ earlier, ¬ errorMark <+: line) ∧
      unescapeData data = (failureText message).toList

section Report

variable {shown : ActionError → Text} {report : Report}

theorem Tells.plain (tells : Tells host shown report) :
    ∀ command ∈ report.commands, command.Plain ∧ host.refuses command.text = none := by
  unfold Tells at tells
  split at tells
  · exact fun command member => ⟨(tells command member).1, (tells command member).2.2⟩
  · rcases tells with ⟨earlier, quiet, commands⟩
    intro command member
    rw [commands] at member
    rcases List.mem_append.mp member with early | last
    · exact ⟨(quiet command early).1, (quiet command early).2.2⟩
    · split at last
      · next taken =>
          rw [List.mem_singleton.mp last]
          exact ⟨Command.plain_of_name _ (by decide), taken⟩
      · cases last

theorem Tells.lines (tells : Tells host shown report) :
    Text.lines report.text.toList = report.commands.map Command.line ++ [[]] :=
  Command.lines_commands fun command member => (tells.plain command member).1

theorem Tells.reports (tells : Tells host shown report) :
    match report.outcome with
    | .ok _ => report.exitCode = 0 ∧ ∀ line ∈ Text.lines report.text.toList, ¬ errorMark <+: line
    | .error error => report.exitCode = 1 ∧
        host.Reports (Text.lines report.text.toList) (shown error) := by
  have printed := tells.lines
  unfold Tells at tells
  -- A run that failed said so last, and one that succeeded said nothing of the kind.
  split
  · next result ended =>
      rw [ended] at tells
      refine ⟨by rw [Report.exitCode, ended], ?_⟩
      rw [printed]
      exact not_errorMark_of_quiet tells
  · next error ended =>
      rw [ended] at tells
      refine ⟨by rw [Report.exitCode, ended], ?_⟩
      rcases tells with ⟨earlier, quiet, commands⟩
      rw [Host.Reports, printed, commands]
      split
      · next refused =>
          simp only [refused, List.append_nil]
          exact not_errorMark_of_quiet quiet
      · next taken =>
          refine ⟨earlier.map Command.line, escapeData (failureText (shown error)).toList, ?_,
            fun line member => ?_, unescapeData_escapeData _⟩
          · simp only [taken, List.map_append, List.append_assoc, ← line_error]
            rfl
          · exact not_errorMark_of_quiet quiet line (List.mem_append_left _ member)

end Report

/-- A message shows no secret line of a value that the run heard of; if standard output takes all
announcements, these are all values that were returned. -/
def Host.Hides (host : Host) (settings : ActionSettings) (requested : List Text)
    (message : Text) : Prop :=
  (Run.Separable settings.minMaskLength (host.heard settings) requested →
    Run.Hidden settings.minMaskLength (host.heard settings) requested message) ∧
  ((∀ value, Run.Returned (host.ask settings) requested value → host.Takes settings value) →
    Run.Separable settings.minMaskLength (host.ask settings) requested →
      Run.Hidden settings.minMaskLength (host.ask settings) requested message)

theorem hides_redacted (host : Host) (settings : ActionSettings) (text : Text) :
    host.Hides settings (host.history settings).requested
      ((host.history settings).masker.redacted text) := by
  have hidden := Run.hidden_redacted settings.job settings.minMaskLength (host.heard settings)
    host.files text
  refine ⟨hidden, fun takes separable => ?_⟩
  have same := secretLine_heard takes
  simp only [Run.Separable, Run.Hidden, ← same] at separable ⊢
  exact hidden separable

end Action

theorem Tool.failure_hides {server : Server.Context} {arguments : FileArguments}
    {ask : Nat → Text → Answer} {files : Files} {message : Text}
    (failed : (interpolateFile (some server) arguments ask files).outcome = .ok (.failure message)) :
    ∃ masker, server.masker arguments.minMaskLength = .ok masker ∧
      let requested := (interpolateFile (some server) arguments ask files).requested
      (Run.Separable masker.minLength ask requested →
        Run.Hidden masker.minLength ask requested message) := by
  cases made : server.masker arguments.minMaskLength with
  | error fault =>
      simp only [interpolateFile, made] at failed
      cases failed
  | ok masker =>
      refine ⟨masker, rfl, ?_⟩
      cases checked : jobOf server.settings arguments with
      | error problem =>
          -- Arguments that are refused ask for nothing, so there is nothing to hide.
          simp only [interpolateFile, made, checked]
          intro _ line secret
          rcases secret with ⟨value, returned, _⟩
          exact absurd returned (Run.not_returned_nil ask value)
      | ok job =>
          have hidden := Run.hidden_redacted job masker.minLength ask files
          rw [← masker_fresh made] at hidden
          simp only [interpolateFile, made, checked, callOf] at failed ⊢
          split at failed
          · cases failed
          · split at failed
            · cases failed
              next error _ foreseen =>
                simp only [foreseen, if_true]
                exact hidden error.message
            · cases failed

/-- No failure shows a line of a secret that was fetched before it. An action that fails exits with
1, and its failure is the last thing it prints and is printed once, unless standard output refuses
the report of it: then nothing is. In UTF-8 it refuses what has half of a surrogate pair in it, and
nothing else. -/
theorem failures_show_no_secret_line (host : Action.Host) (context : Option Server.Context)
    (arguments : Tool.FileArguments) (ask : Nat → Text → Answer) (files : Files) :
    (let report := Action.run host
      let lines := Text.lines report.text.toList
      lines = report.commands.map Command.line ++ [[]] ∧
      (∀ command ∈ report.commands,
        Command.read? command.line = some command ∧ host.refuses command.text = none) ∧
      match report.outcome with
      | .ok _ => report.exitCode = 0 ∧ ∀ line ∈ lines, ¬ Action.errorMark <+: line
      | .error error => report.exitCode = 1 ∧ host.Reports lines (host.shown error) ∧
          match ActionSettings.ofEnvironment host.environment with
          | .error _ => report.requested = []
          | .ok settings => host.Hides settings report.requested (host.shown error)) ∧
    (∀ text, Action.refusesHalves text = none ↔ Utf8.Whole text.toList) ∧
    let call := Tool.interpolateFile context arguments ask files
    ∀ message, call.outcome = .ok (.failure message) →
      match context with
      | none => call.requested = []
      | some server => ∃ masker, server.masker arguments.minMaskLength = .ok masker ∧
          (Run.Separable masker.minLength ask call.requested →
            Run.Hidden masker.minLength ask call.requested message) := by
  refine ⟨?_, Action.refusesHalves_eq_none_iff, ?_⟩
  · have tells := Action.tells_run host
    refine ⟨tells.lines, fun command member => ?_, ?_⟩
    · obtain ⟨plain, taken⟩ := tells.plain command member
      exact ⟨Command.read?_line plain, taken⟩
    · have reports := tells.reports
      split
      · next result ended =>
          rw [ended] at reports
          exact reports
      · next error ended =>
          rw [ended] at reports
          refine ⟨reports.1, reports.2, ?_⟩
          cases read : ActionSettings.ofEnvironment host.environment with
          | error error =>
              simp only [Action.run, read]
              exact Action.requested_fail _ _ _ _
          | ok settings =>
              simp only [Action.run, read, Action.requested_runWith, Action.Host.shown]
              exact Action.hides_redacted host settings error.message
  · intro call message failed
    cases context with
    | none => rfl
    | some server => exact Tool.failure_hides failed

/-- The second of two secrets is not there, and its name is the value of the first. -/
theorem failures_show_no_secret_line_of_locator :
    let environment : Environment := [("INPUT_SECRETS", "p/a:A, p/hunter2:B"),
      ("INPUT_HELM_VALUE_FILE", "d"), ("YAML_SECRETS_PROVIDER", "env"),
      ("YAML_SECRET_P_A", "hunter2")]
    let host : Action.Host := ⟨environment, fun _ _ => .error ⟨"", ""⟩, Action.refusesHalves, "",
      ⟨[], [(["d".toUTF8.toList], [])], []⟩⟩
    let settings : Settings := ⟨.environment, Settings.defaultEndpoint, none,
      Settings.defaultTimeout, Settings.defaultPrefix, Settings.defaultMaskLength, false⟩
    let action : ActionSettings := ⟨settings, "p/a:A, p/hunter2:B", Location.ofText "d", none⟩
    let server : Server.Context := ⟨settings, settings.provider⟩
    let arguments : Tool.FileArguments := ⟨"p/a:A, p/hunter2:B", "d", none, none⟩
    let call := Tool.interpolateFile (some server) arguments (host.heard action) host.files
    let missing : SecretError := .notFound "p/hunter2"
      (some "Set environment variable: YAML_SECRET_P_HUNTER2=<secret_value>")
    let message := host.shown (.run (.secret missing))
    (∃ earlier data,
      Text.lines (Action.run host).text.toList = earlier ++ [Action.errorMark ++ data, []] ∧
      unescapeData data = (Action.failureText message).toList ∧
      ¬ ("hunter2" : Text).toList <:+: message.toList) ∧
    ∃ message, call.outcome = .ok (.failure message) ∧
      ¬ ("hunter2" : Text).toList <:+: message.toList := by
  intro environment host settings action server arguments call missing message
  let asked : List Text := ["p/a", "p/hunter2"]
  have read : ActionSettings.ofEnvironment host.environment = .ok action := by
    simp only [host, environment, action, settings]
    decide +kernel
  have first : (host.heard action 0 "p/a").outcome = .ok "hunter2" := by
    simp only [host, environment, action, settings]
    decide +kernel
  have second : (host.heard action 1 "p/hunter2").outcome = .error missing := by
    simp only [host, environment, action, settings, missing]
    decide +kernel
  have lines : (Masker.ofLength 4).secretLines ("hunter2" : Text).toList =
      [("hunter2" : Text).toList] := by
    decide +kernel
  have secrets : ∀ line, Run.SecretLine 4 (host.heard action) asked line ↔
      line = ("hunter2" : Text).toList := by
    intro line
    rw [show asked = ([] ++ [("p/a" : Text)]) ++ [("p/hunter2" : Text)] from rfl, Run.secretLine_append,
      Run.secretLine_append]
    constructor
    · rintro ((⟨value, returned, _⟩ | ⟨value, answered, member⟩) | ⟨value, answered, _⟩)
      · exact absurd returned (Run.not_returned_nil _ value)
      · cases Except.ok.inj (first.symm.trans answered)
        rw [lines] at member
        exact List.mem_singleton.mp member
      · cases second.symm.trans answered
    · rintro rfl
      exact .inl (.inr ⟨"hunter2", first, by rw [lines]; exact List.mem_cons_self⟩)
  have separable : Run.Separable 4 (host.heard action) asked := by
    intro line secret
    rw [(secrets line).mp secret]
    decide +kernel
  have secret := (secrets ("hunter2" : Text).toList).mpr rfl
  rcases failures_show_no_secret_line host (some server) arguments (host.heard action) host.files with
    ⟨⟨_, _, shown⟩, _, answered⟩
  constructor
  · have requested : (Action.run host).requested = asked := by
      simp only [host, environment, asked]
      decide +kernel
    have failed : (Action.run host).outcome = .error (.run (.secret missing)) := by
      simp only [host, environment, missing]
      decide +kernel
    have taken : host.refuses (Workflow.Command.error (Action.failureText message)).text = none := by
      simp only [message, host, environment, missing]
      decide +kernel
    rw [failed] at shown
    simp only [read, requested, Action.Host.Reports, taken, message] at shown
    rcases shown with ⟨_, ⟨earlier, data, printed, _, unescaped⟩, hidden, _⟩
    exact ⟨earlier, data, printed, unescaped, hidden separable _ secret⟩
  · have requested : call.requested = asked := by
      simp only [call, host, environment, action, settings, server, arguments, asked]
      decide +kernel
    have failed : call.outcome = .ok (.failure ("Secret 'p/***REDACTED***' not found. " ++
        "Set environment variable: YAML_SECRET_P_HUNTER2=<secret_value>")) := by
      simp only [call, host, environment, action, settings, server, arguments]
      decide +kernel
    have shown := answered _ failed
    simp only [call] at requested
    simp only [requested] at shown
    rcases shown with ⟨masker, made, hidden⟩
    cases made
    exact ⟨_, failed, hidden separable _ secret⟩

/-- The document holds itself below a key that is half of a surrogate pair, so the message has that
half in it. Standard output does not take the report, and no failure is reported. -/
theorem failure_with_half_is_not_reported :
    let environment : Environment := [("INPUT_SECRETS", "p/a:A"), ("INPUT_HELM_VALUE_FILE", "d"),
      ("YAML_SECRETS_PROVIDER", "env"), ("YAML_SECRET_P_A", "hunter2")]
    let host : Action.Host := ⟨environment, fun _ _ => .error ⟨"", ""⟩, Action.refusesHalves, "",
      ⟨[], [(["d".toUTF8.toList], "\"\\ud800\": &x [*x]\n".toUTF8.toList)], []⟩⟩
    let report := Action.run host
    report.outcome = .error (.run (.interpolation (.cycle
        (Text.ofList [Code.half 0, '[', '0', ']'])))) ∧
      report.exitCode = 1 ∧ report.commands = [Action.announcement ("hunter2" : Text).toList] ∧
      ∀ line ∈ Text.lines report.text.toList, ¬ Action.errorMark <+: line := by
  decide +kernel

end SecretFill
