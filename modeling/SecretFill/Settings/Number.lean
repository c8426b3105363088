import SecretFill.Decimal.Reading
/-!
Numbers in the text of settings. White space around them does not count, and single underscores
may group the digits of a number. A whole number may have leading zeros and a fraction of zeros;
a real number may have an exponent, or be a word for infinity or NaN. All digits are ASCII.
-/

namespace SecretFill.Settings

open SecretFill.Decimal SecretFill.Text

inductive NumberError
  | notNumber
  | tooLong
  deriving DecidableEq, Repr

def hasDoubleUnderscore : List Code → Bool
  | '_' :: '_' :: _ => true
  | _ :: rest => hasDoubleUnderscore rest
  | [] => false

def dropGrouping (text : List Code) : List Code :=
  if text.head? = some '_' ∨ text.getLast? = some '_' ∨ hasDoubleUnderscore text then text
  else text.filter fun character : Code => character != '_'

/-- Drops the zeros before a number that goes on after them; `last` is the zero or underscore
before the text. -/
def dropZeros (last : Code) : List Code → Option (List Code)
  | [] => some [last]
  | character :: rest =>
      if character = '0' ∨ character = '_' then dropZeros character rest
      else if character = '.' then some (last :: character :: rest)
      else if character.isDigit then some (character :: rest)
      else none

def dropLeadingZeros : List Code → Option (List Code)
  | '0' :: rest => dropZeros '0' rest
  | first :: rest => if first.isDigit ∨ first = '-' then some (first :: rest) else none
  | [] => none

def dropZeroFraction (text : List Code) : List Code :=
  match text.dropWhile (fun character : Code => character != '.') with
  | '.' :: fraction =>
      if fraction.all (fun character : Code => character = '0') then
        text.takeWhile fun character : Code => character != '.'
      else text
  | _ => text

def readDigits (digits : List Code) : Option Nat :=
  match digits with
  | [] => none
  | ['0'] => some 0
  | first :: _ =>
      if first ≠ '0' ∧ digits.all Code.isDigit then some (ofDigits 10 digits) else none

/-- A plus sign may not stand before a minus sign. -/
def dropPlus : List Code → Option (List Code)
  | '+' :: '-' :: _ => none
  | '+' :: rest => some rest
  | text => some text

def readWhole (text : List Code) : Except NumberError Int :=
  match (dropPlus (trimNumber text)).bind dropLeadingZeros with
  | none => .error .notNumber
  | some body =>
      let body := dropGrouping (dropZeroFraction body)
      if maxDigits < body.length then .error .tooLong
      else
        let number :=
          match body with
          | '-' :: digits => (readDigits digits).map fun size => -Int.ofNat size
          | digits => (readDigits digits).map Int.ofNat
        match number with
        | some number => .ok number
        | none => .error .notNumber

/-- A real number. One that has its digits grouped may not have white space around it. -/
def readReal (text : List Code) : Except NumberError Binary64 :=
  let body := trimNumber text
  let body := if body.contains '_' then dropGrouping text else body
  if body.contains '_' then .error .notNumber
  else
    match readDecimal body with
    | some number => .ok number
    | none => .error .notNumber

end SecretFill.Settings
