import SecretFill.Decimal.Binary64
import SecretFill.Files.Location
/-!
Settings. They choose where secrets come from and how much is logged; those of an action also name
the secrets, the document, and where the result goes.
-/

namespace SecretFill

open SecretFill.Decimal

inductive Backend
  | secretManager
  | environment
  deriving DecidableEq, Repr

def Backend.text : Backend → Text
  | .secretManager => "secretmanager"
  | .environment => "env"

structure Settings where
  backend : Backend
  endpoint : Text
  accessToken : Option Text
  /-- Seconds until a request is given up. -/
  timeout : Binary64
  variablePrefix : Text
  minMaskLength : Nat
  verbose : Bool
  deriving DecidableEq, Repr

namespace Settings

def defaultEndpoint : Text := "https://secretmanager.googleapis.com"

def defaultTimeout : Binary64 := Binary64.ofNat 30

def defaultPrefix : Text := "YAML_SECRET_"

def defaultMaskLength : Nat := 4

end Settings

structure ActionSettings extends Settings where
  secrets : Text
  document : Location
  output : Option Location
  deriving DecidableEq, Repr

/-- Where the result goes: in place, unless an output is given. -/
def ActionSettings.target (settings : ActionSettings) : Location :=
  settings.output.getD settings.document

end SecretFill
