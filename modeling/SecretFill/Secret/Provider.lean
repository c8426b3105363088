import SecretFill.Secret.Manager
import SecretFill.Secret.Variables
import SecretFill.Settings.Basic
/-!
Providers of secrets: what the settings choose between.
-/

namespace SecretFill

inductive Provider
  | manager (source : SecretManager)
  | environment (source : SecretVariables)
  deriving DecidableEq, Repr

/-- What came of asking for a secret, with the log of it. -/
abbrev Answer := Logged SecretError Text

namespace Provider

def name : Provider → Text
  | .manager _ => SecretManager.name
  | .environment _ => SecretVariables.name

def get (environment : Environment) (send : Request → Exchange) (locator : Text) :
    Provider → Answer
  | .manager source => source.get send locator
  | .environment source => .ofExcept (source.get environment locator)

end Provider

def Settings.provider (settings : Settings) : Provider :=
  match settings.backend with
  | .environment => .environment ⟨settings.variablePrefix⟩
  | .secretManager =>
      .manager (SecretManager.ofEndpoint settings.endpoint settings.accessToken
        (.real settings.timeout))

end SecretFill
