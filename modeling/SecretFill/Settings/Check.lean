import SecretFill.Json.Value
import SecretFill.Settings.Basic
import SecretFill.Settings.Number
import SecretFill.Text.Blank
/-!
Checking settings. A setting is given as text or as a value; every field is checked, and all
faults are reported together, in the order of the fields.
-/

namespace SecretFill

open SecretFill.Decimal SecretFill.Text

abbrev Fields := List (Text × Json.Value)

inductive Problem
  | missing
  | notText
  | notUnicode
  | emptyText
  | blankSecrets
  | unknownBackend
  | notReal
  | realText
  | aboveLongestTimeout
  | notPositive
  | notWhole
  | wholeText
  | wholeTooLarge
  | fraction
  | notFinite
  | negative
  | notFlag
  | flagText
  | notPath
  deriving DecidableEq, Repr

def Problem.message : Problem → Text
  | .missing => "Field required"
  | .notText => "Input should be a valid string"
  | .notUnicode =>
      "Input should be a valid string, unable to parse raw data as a unicode string"
  | .emptyText => "Text should have at least 1 character"
  | .blankSecrets => "Value error, secrets specification is empty"
  | .unknownBackend => "Input should be 'secretmanager' or 'env'"
  | .notReal => "Input should be a valid number"
  | .realText => "Input should be a valid number, unable to parse string as a number"
  | .aboveLongestTimeout => "Input should be less than or equal to 600"
  | .notPositive => "Input should be greater than 0"
  | .notWhole => "Input should be a valid integer"
  | .wholeText => "Input should be a valid integer, unable to parse string as an integer"
  | .wholeTooLarge => "Unable to parse input string as an integer, exceeded maximum size"
  | .fraction => "Input should be a valid integer, got a number with a fractional part"
  | .notFinite => "Input should be a finite number"
  | .negative => "Input should be greater than or equal to 0"
  | .notFlag => "Input should be a valid boolean"
  | .flagText => "Input should be a valid boolean, unable to interpret input"
  | .notPath => "Input is not a valid path"

structure SettingFault where
  field : Text
  problem : Problem
  deriving DecidableEq, Repr

def SettingFault.message (fault : SettingFault) : Text :=
  fault.field ++ ": " ++ fault.problem.message

inductive Checked (α : Type)
  | ok (value : α)
  | faulty (faults : List SettingFault)

namespace Checked

variable {α β : Type}

def map (change : α → β) : Checked α → Checked β
  | .ok value => .ok (change value)
  | .faulty faults => .faulty faults

def also (first : Checked (α → β)) (second : Checked α) : Checked β :=
  match first, second with
  | .ok make, .ok value => .ok (make value)
  | .ok _, .faulty faults => .faulty faults
  | .faulty faults, .ok _ => .faulty faults
  | .faulty faults, .faulty more => .faulty (faults ++ more)

def outcome : Checked α → Except (List SettingFault) α
  | .ok value => .ok value
  | .faulty faults => .error faults

end Checked

namespace Setting

/-- Reads one field; one that is not given has its default, if there is any. -/
def field {α : Type} (fields : Fields) (name : Text) (default : Option α)
    (read : Json.Value → Except Problem α) : Checked α :=
  match Json.Value.get? name fields, default with
  | some value, _ =>
      match read value with
      | .ok value => .ok value
      | .error problem => .faulty [⟨name, problem⟩]
  | none, some value => .ok value
  | none, none => .faulty [⟨name, .missing⟩]

def text : Json.Value → Except Problem Text
  | .text value => .ok value
  | _ => .error .notText

/-- A text that is looked into, which takes one that can be encoded. -/
def legible (value : Text) : Except Problem Text :=
  if value.toList.any Code.isHalf then .error .notUnicode else .ok value

def nonEmptyText (value : Json.Value) : Except Problem Text := do
  let value ← legible (← text value)
  if value.isEmpty then .error .emptyText else .ok value

def optional {α : Type} (read : Json.Value → Except Problem α) :
    Json.Value → Except Problem (Option α)
  | .null => .ok none
  | value => (read value).map some

def secrets (value : Json.Value) : Except Problem Text := do
  let value ← nonEmptyText value
  if (trim value.toList).isEmpty then .error .blankSecrets else .ok value

def backend : Json.Value → Except Problem Backend
  | .text value => do
      let value ← legible value
      if value = Backend.secretManager.text then .ok .secretManager
      else if value = Backend.environment.text then .ok .environment
      else .error .unknownBackend
  | _ => .error .unknownBackend

def real : Json.Value → Except Problem Binary64
  | .real value => .ok value
  | .int value =>
      let size := Binary64.ofNat value.natAbs
      .ok (if value < 0 then size.negate else size)
  | .bool value => .ok (if value then Binary64.ofNat 1 else .zero)
  | .text value => do
      let value ← legible value
      (Settings.readReal value.toList).mapError fun _ => .realText
  | _ => .error .notReal

def longestTimeout : Nat := 600

/-- Whether a number is at most the given one. NaN is not. -/
def atMost (number limit : Binary64) : Bool :=
  !number.isNaN && (number.negative || number.magnitude ≤ limit.magnitude)

def isPositive (number : Binary64) : Bool := !number.negative && number.magnitude != 0

def timeout (value : Json.Value) : Except Problem Binary64 := do
  let value ← real value
  if !atMost value (Binary64.ofNat longestTimeout) then .error .aboveLongestTimeout
  else if isPositive value then .ok value
  else .error .notPositive

/-- Whole numbers are taken from real ones only below this. -/
def largestWhole : Nat := twoTo 63

def wholePart (value : Binary64) : Except Problem Int :=
  if value.isNaN || value.isInfinite then .error .notFinite
  else
    let size :=
      if 0 ≤ value.exponent then some (value.significand * twoTo value.exponent.toNat)
      else
        let divisor := twoTo (-value.exponent).toNat
        if value.significand % divisor = 0 then some (value.significand / divisor) else none
    match size with
    | none => .error .fraction
    | some size =>
        if largestWhole ≤ size then .error .wholeTooLarge else .ok (value.signed size)

def whole : Json.Value → Except Problem Int
  | .int value => .ok value
  | .bool value => .ok (if value then 1 else 0)
  | .real value => wholePart value
  | .text value => do
      let value ← legible value
      (Settings.readWhole value.toList).mapError fun
        | .notNumber => .wholeText
        | .tooLong => .wholeTooLarge
  | _ => .error .notWhole

def count (value : Json.Value) : Except Problem Nat := do
  let value ← whole value
  if value < 0 then .error .negative else .ok value.toNat

def flag : Json.Value → Except Problem Bool
  | .bool value => .ok value
  | .int value => if value = 1 then .ok true else if value = 0 then .ok false else .error .flagText
  | .real value =>
      if value.isInteger 1 then .ok true else if value.isInteger 0 then .ok false
      else .error .flagText
  | .text value => do
      let value ← legible value
      let word := Text.ofList (value.toList.map Code.toLower)
      if word ∈ (["1", "on", "t", "true", "y", "yes"] : List Text) then .ok true
      else if word ∈ (["0", "off", "f", "false", "n", "no"] : List Text) then .ok false
      else .error .flagText
  | _ => .error .notFlag

def path : Json.Value → Except Problem Location
  | .text value => .ok (Location.ofText value)
  | _ => .error .notPath

end Setting

namespace Settings

def check (fields : Fields) : Checked Settings :=
  (Setting.field fields "provider" (some .secretManager) Setting.backend).map Settings.mk
    |>.also (Setting.field fields "endpoint" (some defaultEndpoint) Setting.text)
    |>.also (Setting.field fields "access_token" (some none) (Setting.optional Setting.text))
    |>.also (Setting.field fields "timeout" (some defaultTimeout) Setting.timeout)
    |>.also (Setting.field fields "env_prefix" (some defaultPrefix) Setting.nonEmptyText)
    |>.also (Setting.field fields "min_mask_length" (some defaultMaskLength) Setting.count)
    |>.also (Setting.field fields "verbose" (some false) Setting.flag)

def ofFields (fields : Fields) : Except (List SettingFault) Settings := (check fields).outcome

end Settings

namespace ActionSettings

def check (fields : Fields) : Checked ActionSettings :=
  (Settings.check fields).map ActionSettings.mk
    |>.also (Setting.field fields "secrets" none Setting.secrets)
    |>.also (Setting.field fields "document_path" none Setting.path)
    |>.also (Setting.field fields "output_path" (some none) (Setting.optional Setting.path))

def ofFields (fields : Fields) : Except (List SettingFault) ActionSettings :=
  (check fields).outcome

end ActionSettings

end SecretFill
