import SecretFill.Environment
import SecretFill.Settings.Check
import SecretFill.Workflow.Input
/-!
Settings from the environment. The settings of the provider are variables of their own; an action
has inputs besides. A variable that is empty but for white space is not set.
-/

namespace SecretFill

open SecretFill.Text SecretFill.Workflow

inductive SettingsError
  | input (error : InputError)
  | invalid (faults : List SettingFault)
  deriving DecidableEq, Repr

def SettingsError.message : SettingsError → Text
  | .input error => error.message
  | .invalid faults =>
      "Invalid configuration: " ++ Text.intercalate "; " (faults.map SettingFault.message)

namespace Settings

def variableNames : List (Text × Text) :=
  [("provider", "YAML_SECRETS_PROVIDER"), ("endpoint", "YAML_SECRETS_ENDPOINT"),
    ("timeout", "YAML_SECRETS_TIMEOUT"), ("access_token", "GOOGLE_OAUTH_ACCESS_TOKEN"),
    ("env_prefix", "YAML_SECRETS_ENV_PREFIX")]

def fieldOf (environment : Environment) (name variableName : Text) :
    Option (Text × Json.Value) :=
  let value := trimmed (environment.getD variableName)
  if value.isEmpty then none
  else if name = "provider" then some (name, .text (Text.ofList (lower value.toList)))
  else some (name, .text value)

def fieldsOf (environment : Environment) : Fields :=
  variableNames.filterMap fun (name, variableName) => fieldOf environment name variableName

def ofEnvironment (environment : Environment) : Except SettingsError Settings :=
  (ofFields (fieldsOf environment)).mapError .invalid

end Settings

namespace ActionSettings

/-- A field that an input sets unless it is empty. -/
def inputField (environment : Environment) (name input : Text) : Fields :=
  let value := Input.text environment input
  if value.isEmpty then [] else [(name, .text value)]

/-- Inputs are looked at before any setting is checked. -/
def ofEnvironment (environment : Environment) : Except SettingsError ActionSettings := do
  let secrets ← (Input.required environment "secrets").mapError SettingsError.input
  let document ← (Input.required environment "helm_value_file").mapError SettingsError.input
  let verbose ← (Input.boolean environment "verbose" false).mapError SettingsError.input
  let inputs : Fields :=
    [("secrets", .text secrets), ("document_path", .text document), ("verbose", .bool verbose)]
  let fields := Settings.fieldsOf environment ++ inputs ++
    inputField environment "output_path" "output_file" ++
    inputField environment "min_mask_length" "min_mask_length"
  (ofFields fields).mapError .invalid

end ActionSettings

end SecretFill
