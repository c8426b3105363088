import SecretFill.Log
import SecretFill.Masker
import SecretFill.Secret.Provider
import SecretFill.Settings.Source
/-!
The server. While it lives it holds one provider, built from the environment; it ends because it
is done, is interrupted, or fails.
-/

namespace SecretFill.Server

structure Context where
  settings : Settings
  provider : Provider

/-- A fresh masker for one call, with the least length of the settings unless one is given. -/
def Context.masker (context : Context) (minLength : Option Int) :
    Except NegativeLength Masker :=
  match minLength with
  | none => .ok (Masker.ofLength context.settings.minMaskLength)
  | some length => Masker.ofLength? length

def openingLog (context : Context) : List Log.Record :=
  Log.info ("Using " ++ context.provider.name ++ " (min mask length " ++
    toString context.settings.minMaskLength ++ ")") ::
  if context.settings.backend = .secretManager ∧ (context.settings.accessToken.getD "").isEmpty
  then [Log.warning ("GOOGLE_OAUTH_ACCESS_TOKEN is not set. " ++
    "Secret Manager requests will be unauthenticated.")]
  else []

def closingLog : List Log.Record := [Log.info "Secret provider released"]

def start (environment : Environment) : Logged SettingsError Context :=
  match Settings.ofEnvironment environment with
  | .error error => .fail error
  | .ok settings =>
      let context : Context := ⟨settings, settings.provider⟩
      Logged.after (openingLog context) (.ok context)

inductive Ending
  | stopped
  | interrupted
  | misconfigured (message : Text)
  | failed (message : Text)
  deriving DecidableEq, Repr

def startRecord : Log.Record := Log.info "yaml-secrets MCP server starting on stdio"

def stopRecord : Log.Record := Log.info "yaml-secrets MCP server stopped"

def Ending.log : Ending → List Log.Record
  | .stopped => [startRecord, stopRecord]
  | .interrupted => [startRecord, Log.info "Interrupted, stopping", stopRecord]
  | .misconfigured message =>
      [startRecord, Log.error ("Invalid server configuration: " ++ message)]
  | .failed message => [startRecord, Log.error ("MCP server failed: " ++ message)]

def Ending.exitCode : Ending → Nat
  | .stopped => 0
  | .interrupted => 0
  | .misconfigured _ => 1
  | .failed _ => 1

end SecretFill.Server
