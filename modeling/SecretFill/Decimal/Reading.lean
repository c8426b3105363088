import SecretFill.Decimal.Notation
import SecretFill.Text.Blank
import SecretFill.Text.Digit
import SecretFill.Text.LetterCase
import SecretFill.Text.Quoted
/-!
Reading numbers. `readInteger` takes an optional sign, an optional base mark and digits of any
script, with white space around them; `readReal` takes a decimal with an optional fraction and
exponent, or a word for infinity or NaN. Decimal integers of more than `maxDigits` digits are
neither read nor written.
-/

namespace SecretFill.Decimal

open SecretFill.Text

def maxDigits : Nat := 4300

inductive NumberFault
  /-- The text is not an integer in the base. -/
  | notInteger (text : Text) (base : Nat)
  | notReal (text : Text)
  | tooManyDigitsRead (count : Nat)
  | tooManyDigitsWritten
  deriving DecidableEq, Repr

def NumberFault.message : NumberFault → Text
  | .notInteger text base =>
      "invalid literal for int() with base " ++ toString base ++ ": " ++
        Text.ofList ((quoted text).toList.take 200)
  | .notReal text => "could not convert string to float: " ++ quoted text
  | .tooManyDigitsRead count =>
      "Exceeds the limit (" ++ toString maxDigits ++
        " digits) for integer string conversion: value has " ++ toString count ++
        " digits; use sys.set_int_max_str_digits() to increase the limit"
  | .tooManyDigitsWritten =>
      "Exceeds the limit (" ++ toString maxDigits ++
        " digits) for integer string conversion; use sys.set_int_max_str_digits() to increase " ++
        "the limit"

def plainDigits (text : List Code) : List Code :=
  text.map fun character =>
    match decimalValue? character with
    | some value => Code.ofNat (48 + value)
    | none => character

def digitIn? (base : Nat) (character : Code) : Option Nat :=
  (digitValue? character).filter (· < base)

def ofDigits (base : Nat) (digits : List Code) : Nat :=
  digits.foldl (fun number character => number * base + (digitValue? character).getD 0) 0

/-- Whether decimal text of this integer is within the limit. -/
def writable (number : Int) : Bool := number.natAbs < tenTo maxDigits

def splitSign : List Code → Bool × List Code
  | '-' :: rest => (true, rest)
  | '+' :: rest => (false, rest)
  | text => (false, text)

/-- Drops `0x`, `0o` or `0b` where the base admits it. -/
def dropBaseMark (base : Nat) (text : List Code) : List Code :=
  match text with
  | '0' :: mark :: rest =>
      let letter := mark.toLower
      if (base == 16 && letter == 'x') || (base == 8 && letter == 'o') ||
          (base == 2 && letter == 'b') then rest
      else text
  | _ => text

def readInteger (base : Nat) (text : List Code) : Except NumberFault Int :=
  let (negative, body) := splitSign (trimNumber (plainDigits text))
  let body := dropBaseMark base body
  let digits := body.takeWhile fun character => (digitIn? base character).isSome
  -- Too many digits are refused even if the text is no number for another reason.
  if base == 10 && maxDigits < digits.length then .error (.tooManyDigitsRead digits.length)
  else if digits.isEmpty || digits.length != body.length then
    .error (.notInteger (Text.ofList text) base)
  else
    let number := Int.ofNat (ofDigits base digits)
    .ok (if negative then -number else number)

/-- Drops the underscores that stand between two digits; any other one is an error. -/
def dropUnderscores : Bool → List Code → Option (List Code)
  | _, [] => some []
  | afterDigit, '_' :: rest =>
      match rest with
      | next :: _ => if afterDigit && next.isDigit then dropUnderscores false rest else none
      | [] => none
  | _, character :: rest => (dropUnderscores character.isDigit rest).map (character :: ·)

def readExponent : List Code → Option Int
  | [] => some 0
  | mark :: rest =>
      if mark == 'e' || mark == 'E' then
        let (negative, digits) := splitSign rest
        if digits.isEmpty || !digits.all Code.isDigit then none
        else
          let size := Int.ofNat (ofDigits 10 digits)
          some (if negative then -size else size)
      else none

def readUnsigned (text : List Code) : Option Binary64 :=
  let whole := text.takeWhile Code.isDigit
  let afterWhole := text.dropWhile Code.isDigit
  let (fraction, rest) :=
    match afterWhole with
    | '.' :: tail => (tail.takeWhile Code.isDigit, tail.dropWhile Code.isDigit)
    | tail => ([], tail)
  if whole.isEmpty && fraction.isEmpty then none
  else
    (readExponent rest).map fun exponent =>
      Binary64.ofDecimal (ofDigits 10 (whole ++ fraction)) (exponent - Int.ofNat fraction.length)

def readDecimal (text : List Code) : Option Binary64 :=
  let (negative, body) := splitSign text
  let word := body.map Code.toLower
  let number :=
    if word == ("inf" : Text).toList || word == ("infinity" : Text).toList then some Binary64.infinity
    else if word == ("nan" : Text).toList then some Binary64.nan
    else (dropUnderscores false body).bind readUnsigned
  number.map fun value => if negative then value.negate else value

def readReal (text : List Code) : Except NumberFault Binary64 :=
  match readDecimal (trimNumber (plainDigits text)) with
  | some number => .ok number
  | none => .error (.notReal (Text.ofList text))

end SecretFill.Decimal
