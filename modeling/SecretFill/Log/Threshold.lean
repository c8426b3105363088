import SecretFill.Environment
import SecretFill.Log
import SecretFill.Text.LetterCase
/-!
How much of the log is shown. The level is a variable of the environment, in any case; a name that
is no level gives a warning and the level that holds without it.
-/

namespace SecretFill.Log

open SecretFill.Text

inductive Threshold
  | critical
  | debug
  | error
  | info
  | warning
  deriving DecidableEq, Repr

namespace Threshold

def all : List Threshold := [.critical, .debug, .error, .info, .warning]

def name : Threshold → Text
  | .critical => "CRITICAL"
  | .debug => "DEBUG"
  | .error => "ERROR"
  | .info => "INFO"
  | .warning => "WARNING"

def admits : Threshold → Level → Bool
  | .critical, _ => false
  | .debug, _ => true
  | .error, level => level = .error
  | .info, level => level ≠ .debug
  | .warning, level => level = .warning || level = .error

def standard : Threshold := .info

def variableName : Text := "YAML_SECRETS_LOG_LEVEL"

def layout : Text := "%(asctime)s - %(name)s - %(levelname)s - %(message)s"

def unknownWarning (given : Text) : Text :=
  "Warning: Invalid YAML_SECRETS_LOG_LEVEL '" ++ given ++ "'. Valid levels: " ++
    Text.intercalate ", " (all.map name) ++ ". Using " ++ standard.name ++ ".\n"

/-- The level, and the warning for standard error. -/
def ofEnvironment (environment : Environment) : Threshold × Text :=
  let given := Text.ofList (upper ((environment.get? variableName).getD standard.name).toList)
  match all.find? fun threshold => threshold.name = given with
  | some threshold => (threshold, "")
  | none => (standard, unknownWarning given)

end Threshold

end SecretFill.Log
