import SecretFill.Data.Value
import SecretFill.Text.LetterCase
import SecretFill.Text.Pieces
import SecretFill.Yaml.Resolution
/-!
The value of a scalar's text under each tag. Underscores in numbers do not count; numbers may be
written in base sixty with colons between their parts.
-/

namespace SecretFill.Yaml.Scalar

open SecretFill.Data SecretFill.Decimal SecretFill.Text

def dropUnderscores (text : List Code) : List Code := text.filter (· != '_')

def sumSixties (parts : List Int) : Int := parts.foldl (fun sum part => sum * 60 + part) 0

def integerIn (base : Nat) (text : List Code) : Except ScalarFault Int :=
  match readInteger base text with
  | .ok number => .ok number
  | .error fault => .error (.number fault)

def unsignedInteger (text : List Code) : Except ScalarFault Int :=
  match text with
  | [] => .error .emptyNumber
  | ['0'] => .ok 0
  | '0' :: 'b' :: digits => integerIn 2 digits
  | '0' :: 'x' :: digits => integerIn 16 digits
  -- A zero in front means base eight.
  | '0' :: _ => integerIn 8 text
  | _ =>
      if text.contains ':' then do
        let parts ← (segments ':' text).mapM (integerIn 10)
        .ok (sumSixties parts)
      else integerIn 10 text

def integer (text : List Code) : Except ScalarFault Int := do
  let digits := dropUnderscores text
  if digits.isEmpty then .error .emptyNumber
  else
    let (negative, body) := splitSign digits
    let number ← unsignedInteger body
    .ok (if negative then -number else number)

def realIn (text : List Code) : Except ScalarFault Binary64 :=
  match readReal text with
  | .ok number => .ok number
  | .error fault => .error (.number fault)

/-- Adds the parts of a number in base sixty, the last one first; `base` is the weight of the next
part. -/
def addSixties (base : Nat) (sum : Binary64) : List Binary64 → Except ScalarFault Binary64
  | [] => .ok sum
  | part :: rest =>
      let weight := Binary64.ofNat base
      if weight.isInfinite then .error .integerTooLarge
      else addSixties (base * 60) (sum.add (part.mul weight)) rest

/-- A real number, or nothing if it is a NaN that is not written with the word for it. -/
def real (text : List Code) : Except ScalarFault (Option Binary64) := do
  let digits := lower (dropUnderscores text)
  if digits.isEmpty then .error .emptyNumber
  else
    let (negative, body) := splitSign digits
    if body = (".nan" : Text).toList then .ok (some Binary64.nan)
    else
      let number ←
        if body = (".inf" : Text).toList then .ok Binary64.infinity
        else if body.contains ':' then do
          let parts ← (segments ':' body).mapM realIn
          addSixties 1 Binary64.zero parts.reverse
        else realIn body
      if number.isNaN then .ok none
      else .ok (some (if negative then number.negate else number))

def bool (text : List Code) : Except ScalarFault Bool :=
  let word := Text.ofList (lower text)
  if (["yes", "true", "on"] : List Text).contains word then .ok true
  else if (["no", "false", "off"] : List Text).contains word then .ok false
  else .error (.notBool word)

def timestamp (text : List Code) : Except ScalarFault Cell :=
  match Timestamp.form? (Resolution.dropFinalBreak text) with
  | none => .error .notTimestamp
  | some form =>
      match form.clock with
      | none => form.date.map Cell.date
      | some clock => (form.moment clock).map Cell.moment

/-- The first run of characters beyond ASCII, as positions from its start to before its end. -/
def notAsciiRun (position : Nat) : List Code → Option (Nat × Nat × Code)
  | [] => none
  | character :: rest =>
      if character.toNat < 128 then notAsciiRun (position + 1) rest
      else
        let others := (rest.takeWhile fun other => 128 ≤ other.toNat).length
        some (position, position + 1 + others, character)

def notAsciiMessage (start stop : Nat) (first : Code) : Text :=
  let code := first.toNat
  let shown :=
    if code ≤ 0xFF then "\\x" ++ Text.ofList (hexDigits 2 code)
    else if code ≤ 0xFFFF then "\\u" ++ Text.ofList (hexDigits 4 code)
    else "\\U" ++ Text.ofList (hexDigits 8 code)
  if stop = start + 1 then
    "'ascii' codec can't encode character '" ++ shown ++ "' in position " ++ toString start ++
      ": ordinal not in range(128)"
  else
    "'ascii' codec can't encode characters in position " ++ toString start ++ "-" ++
      toString (stop - 1) ++ ": ordinal not in range(128)"

def bytes (text : List Code) : Except Problem (List UInt8) :=
  match notAsciiRun 0 text with
  | some (start, stop, first) => .error (.notAscii (notAsciiMessage start stop first))
  | none =>
      match Base64.decodeLenient text with
      | .ok bytes => .ok bytes
      | .error fault => .error (.badBase64 fault)

end SecretFill.Yaml.Scalar
