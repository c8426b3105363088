import SecretFill.Reference
/-!
Why a secret is not there. A message names the locator and what went wrong, never a value.
-/

namespace SecretFill

inductive PayloadFault
  | notJson
  /-- The response, or the secret in it, is not UTF-8. -/
  | notText
  | missingKey
  | wrongType
  | notBase64
  /-- An integer in the response has too many digits. -/
  | tooManyDigits
  | notAscii
  deriving DecidableEq, Repr

def PayloadFault.name : PayloadFault → Text
  | .notJson => "JSONDecodeError"
  | .notText => "UnicodeDecodeError"
  | .missingKey => "KeyError"
  | .wrongType => "TypeError"
  | .notBase64 => "Error"
  | .tooManyDigits => "ValueError"
  | .notAscii => "ValueError"

/-- Why a request had no response: the name that the client gives the failure, and its text. -/
structure TransportFault where
  name : Text
  text : Text
  deriving DecidableEq, Repr

def TransportFault.timeoutNames : List Text :=
  ["TimeoutException", "ConnectTimeout", "ReadTimeout", "WriteTimeout", "PoolTimeout"]

def TransportFault.isTimeout (fault : TransportFault) : Bool :=
  fault.name ∈ TransportFault.timeoutNames

/-- The names of failures of the client itself, which are not laid to the provider. -/
def TransportFault.clientNames : List Text := ["CookieConflict", "InvalidURL", "StreamError"]

def TransportFault.isOfClient (fault : TransportFault) : Bool :=
  fault.name ∈ TransportFault.clientNames

inductive ProviderFault
  | transport (fault : TransportFault) (url timeout : Text)
  | status (code : Nat) (explanation : Text)
  | payload (fault : PayloadFault)
  | other (details : Text)
  deriving DecidableEq, Repr

def statusText (code : Nat) (explanation : Text) : Text :=
  "HTTP " ++ toString code ++ ": " ++ explanation

def ProviderFault.details : ProviderFault → Text
  | .transport fault url timeout =>
      if fault.isTimeout then "request timeout after " ++ timeout ++ "s: " ++ url
      else "network error for " ++ url ++ ": " ++ fault.text
  | .status code explanation => statusText code explanation
  | .payload fault => "malformed access response: " ++ fault.name
  | .other details => details

inductive SecretError
  /-- The locator is not the name of a secret. -/
  | unresolved (error : ReferenceError)
  | notFound (locator : Text) (hint : Option Text)
  | accessDenied (locator reason : Text)
  | provider (name : Text) (fault : ProviderFault) (locator : Option Text)
  /-- The client failed by itself. -/
  | client (fault : TransportFault)
  /-- The system refused something. -/
  | system (text : Text)
  /-- The secret was there, but the log could not be told all its lines. -/
  | unannounced (lines : List (List Code)) (refusal : Text)
  deriving DecidableEq, Repr

def SecretError.message : SecretError → Text
  | .unresolved error => error.message
  | .notFound locator hint =>
      "Secret '" ++ locator ++ "' not found" ++
        match hint with
        | none => ""
        | some hint => if hint.isEmpty then "" else ". " ++ hint
  | .accessDenied locator reason => "Access denied for secret '" ++ locator ++ "': " ++ reason
  | .provider name fault _ => "Secret provider '" ++ name ++ "' error: " ++ fault.details
  | .client fault => fault.text
  | .system text => text
  | .unannounced _ refusal => refusal

end SecretFill
