import SecretFill.Environment
import SecretFill.Secret.Failure
import SecretFill.Text.Blank
import SecretFill.Text.LetterCase
/-!
Secrets in the environment. A locator stands for the variable that is named for it: a prefix, then
the trimmed locator in capitals with an underscore for everything but letters and digits of ASCII.
-/

namespace SecretFill

open SecretFill.Text

structure SecretVariables where
  leading : Text
  deriving DecidableEq, Repr

namespace SecretVariables

def name : Text := "EnvVarSecretProvider"

def nameCharacter (character : Code) : Code :=
  if character.isUpper || character.isDigit then character else '_'

def variableFor (source : SecretVariables) (locator : Text) : Text :=
  source.leading ++ Text.ofList ((upper (trim locator.toList)).map nameCharacter)

def get (source : SecretVariables) (environment : Environment) (locator : Text) :
    Except SecretError Text :=
  let variableName := source.variableFor locator
  match environment.get? variableName with
  | some value => .ok value
  | none =>
      .error (.notFound locator
        (some ("Set environment variable: " ++ variableName ++ "=<secret_value>")))

end SecretVariables

end SecretFill
