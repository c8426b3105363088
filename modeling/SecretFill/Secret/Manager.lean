import SecretFill.Json.Reading
import SecretFill.Log
import SecretFill.ResourceName
import SecretFill.Secret.Failure
import SecretFill.Secret.StatusCode
import SecretFill.Text.Base64
/-!
Secrets from a manager over HTTP. A locator that is the name of a secret version makes one
request; the status of the response decides what became of it, and a success holds the secret in
Base64 inside a JSON object.
-/

namespace SecretFill

open SecretFill.Decimal SecretFill.Text

structure Request where
  url : Text
  accept : Text
  authorization : Option Text
  deriving DecidableEq, Repr

structure Response where
  status : Nat
  body : List UInt8
  deriving DecidableEq, Repr

abbrev Exchange := Except TransportFault Response

inductive Seconds
  | whole (count : Int)
  | real (count : Binary64)
  deriving DecidableEq, Repr

def Seconds.text : Seconds → Text
  | .whole count => toString count
  | .real count => count.text

structure SecretManager where
  endpoint : Text
  accessToken : Option Text
  timeout : Seconds
  deriving DecidableEq, Repr

namespace SecretManager

def name : Text := "SecretManagerProvider"

/-- A manager at an endpoint, whose last slashes do not count. -/
def ofEndpoint (endpoint : Text) (accessToken : Option Text) (timeout : Seconds) :
    SecretManager :=
  ⟨Text.ofList (dropEndWhile (fun character : Code => character == '/') endpoint.toList), accessToken,
    timeout⟩

def accessUrl (manager : SecretManager) (locator : Text) : Except ReferenceError Text :=
  (resolveLocator locator).map fun resource =>
    manager.endpoint ++ "/v1/" ++ resource ++ ":access"

def token? (manager : SecretManager) : Option Text :=
  manager.accessToken.filter fun token => !token.isEmpty

def request (manager : SecretManager) (url : Text) : Request :=
  ⟨url, "application/json", manager.token?.map fun token => "Bearer " ++ token⟩

def faultOfJson : Json.Fault → PayloadFault
  | .syntaxError => .notJson
  | .tooManyDigits => .tooManyDigits
  | .notText => .notText

def member (key : Text) : Json.Value → Except PayloadFault Json.Value
  | .object members =>
      match Json.Value.get? key members with
      | some value => .ok value
      | none => .error .missingKey
  | _ => .error .wrongType

def inside (body : List UInt8) (outer inner : Text) : Except PayloadFault Json.Value := do
  let value ← (Json.ofBytes body).mapError faultOfJson
  member inner (← member outer value)

def decoded : Json.Value → Except PayloadFault Text
  | .text encoded =>
      if encoded.toList.any fun character => 128 ≤ character.toNat then .error .notAscii
      else match Base64.decodeStrict encoded.toList with
      | .error _ => .error .notBase64
      | .ok bytes =>
          match Utf8.decode bytes with
          | .ok text => .ok (Text.ofList text)
          | .error _ => .error .notText
  | _ => .error .wrongType

def secret (body : List UInt8) : Except PayloadFault Text := do
  decoded (← inside body "payload" "data")

/-- What a service says about a failure: its own message, or else the phrase of the status. -/
def explanation (response : Response) : Text :=
  match inside response.body "error" "message" with
  | .ok value => value.display
  | .error _ => (StatusCode.phrase? response.status).getD "unknown error"

def classify (manager : SecretManager) (locator url : Text) (exchange : Exchange) :
    Except SecretError Text :=
  let failed (fault : ProviderFault) : Except SecretError Text :=
    .error (.provider name fault (some locator))
  match exchange with
  | .error fault =>
      if fault.isOfClient then .error (.client fault)
      else failed (.transport fault url manager.timeout.text)
  | .ok response =>
      if response.status = 404 then
        .error (.notFound locator
          (some "Check that the secret and version exist and are enabled"))
      else if response.status = 401 ∨ response.status = 403 then
        .error (.accessDenied locator (statusText response.status (explanation response)))
      else if 200 ≤ response.status ∧ response.status < 300 then
        match secret response.body with
        | .ok value => .ok value
        | .error fault => failed (.payload fault)
      else failed (.status response.status (explanation response))

/-- Fetches a secret. `send` answers the request, and may have effects of its own. -/
def access {m : Type → Type} [Monad m] (manager : SecretManager) (send : Request → m Exchange)
    (locator : Text) : m (Logged SecretError Text) :=
  match manager.accessUrl locator with
  | .error error => pure (.fail (.unresolved error))
  | .ok url => do
      let unauthenticated :=
        if manager.token?.isNone then
          [Log.warning "No access token configured, calling Secret Manager unauthenticated"]
        else []
      let exchange ← send (manager.request url)
      pure (Logged.after (unauthenticated ++ [Log.debug ("Accessing secret " ++ locator)])
        (.ofExcept (manager.classify locator url exchange)))

def get (manager : SecretManager) (send : Request → Exchange) (locator : Text) :
    Logged SecretError Text :=
  (manager.access (m := Id) (fun request => pure (send request)) locator).run

end SecretManager

end SecretFill
