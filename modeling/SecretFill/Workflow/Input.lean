import SecretFill.Environment
import SecretFill.Text.Blank
import SecretFill.Text.LetterCase
/-!
The inputs of an action. An input is a variable of the environment, named for it in capitals with
underscores for blanks; its value is trimmed, and an empty one counts as missing.
-/

namespace SecretFill.Workflow

open SecretFill.Text

inductive InputError
  | missing (name : Text)
  | notBoolean (name : Text)
  deriving DecidableEq, Repr

def InputError.message : InputError → Text
  | .missing name => "Input required and not supplied: " ++ name
  | .notBoolean name =>
      "Input does not meet YAML 1.2 \"Core Schema\" specification: " ++ name ++ "\n" ++
        "Support boolean input list: `true | True | TRUE | false | False | FALSE`"

namespace Input

def variableName (name : Text) : Text :=
  "INPUT_" ++ Text.ofList (upper (name.toList.map fun character : Code =>
    if character = ' ' then Code.char '_' else character))

def text (environment : Environment) (name : Text) : Text :=
  trimmed (environment.getD (variableName name))

def required (environment : Environment) (name : Text) : Except InputError Text :=
  let value := text environment name
  if value.isEmpty then .error (.missing name) else .ok value

def boolean (environment : Environment) (name : Text) (default : Bool) :
    Except InputError Bool :=
  let value := text environment name
  if value.isEmpty then .ok default
  else if value ∈ (["true", "True", "TRUE"] : List Text) then .ok true
  else if value ∈ (["false", "False", "FALSE"] : List Text) then .ok false
  else .error (.notBoolean name)

end Input

end SecretFill.Workflow
