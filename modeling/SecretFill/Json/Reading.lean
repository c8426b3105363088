import SecretFill.Decimal.Reading
import SecretFill.Json.Value
import SecretFill.Text.Search
import SecretFill.Text.Utf
/-!
Reading JSON. Every value may have white space around it, and nothing else may follow it. The
words for infinity and NaN are numbers; an integer may not have more digits than the limit; in an
object the last of several equal keys gives the value.
-/

namespace SecretFill.Json

open SecretFill.Decimal SecretFill.Text

inductive Fault
  | syntaxError
  /-- An integer of more digits than are read. -/
  | tooManyDigits
  | notText
  deriving DecidableEq, Repr

def isSpace (character : Code) : Bool :=
  character == ' ' || character == '\t' || character == '\n' || character == '\r'

def skipSpace (text : List Code) : List Code := text.dropWhile isSpace

def hexCode (digits : List Code) : Option Nat :=
  digits.foldl (fun number character =>
    number.bind fun value =>
      if character.toNat < 128 then (digitIn? 16 character).map (value * 16 + ·) else none) (some 0)

def readUnit : List Code → Option (Nat × List Code)
  | first :: second :: third :: fourth :: rest =>
      (hexCode [first, second, third, fourth]).map fun code => (code, rest)
  | _ => none

def simpleEscape? (character : Code) : Option Code :=
  match character with
  | '"' => some '"'
  | '\\' => some '\\'
  | '/' => some '/'
  | 'b' => some '\x08'
  | 'f' => some '\x0c'
  | 'n' => some '\n'
  | 'r' => some '\r'
  | 't' => some '\t'
  | _ => none

/-- The second half of a pair, if the text goes on with one. -/
def lowHalf? (text : List Code) : Option (Nat × List Code) :=
  match text with
  | '\\' :: 'u' :: rest => (readUnit rest).filter fun found => 0xDC00 ≤ found.1 && found.1 < 0xE000
  | _ => none

def readText : Nat → List Code → Option (List Code × List Code)
  | 0, _ => none
  | fuel + 1, text =>
      match text with
      | [] => none
      | '"' :: rest => some ([], rest)
      | '\\' :: 'u' :: rest =>
          match readUnit rest with
          | none => none
          | some (code, rest) =>
              -- A first half without its second is read as a character of its own.
              let high := 0xD800 ≤ code && code < 0xDC00
              match if high then lowHalf? rest else none with
              | some (low, rest) =>
                  let joined := 0x10000 + (code - 0xD800) * 1024 + (low - 0xDC00)
                  (readText fuel rest).map fun (tail, rest) => (Code.ofNat joined :: tail, rest)
              | none =>
                  (readText fuel rest).map fun (tail, rest) => (Code.ofNat code :: tail, rest)
      | '\\' :: mark :: rest =>
          match simpleEscape? mark with
          | none => none
          | some character =>
              (readText fuel rest).map fun (tail, rest) => (character :: tail, rest)
      | character :: rest =>
          if character.toNat < 32 || character == '\\' then none
          else (readText fuel rest).map fun (tail, rest) => (character :: tail, rest)

def readFraction (text : List Code) : List Code × List Code :=
  match text with
  | '.' :: rest =>
      let digits := rest.takeWhile Code.isDigit
      if digits.isEmpty then ([], text) else (digits, rest.dropWhile Code.isDigit)
  | _ => ([], text)

def readScale (text : List Code) : Option Int × List Code :=
  match text with
  | mark :: rest =>
      if mark == 'e' || mark == 'E' then
        let (negative, body) := splitSign rest
        let digits := body.takeWhile Code.isDigit
        if digits.isEmpty then (none, text)
        else
          let size := Int.ofNat (ofDigits 10 digits)
          (some (if negative then -size else size), body.dropWhile Code.isDigit)
      else (none, text)
  | [] => (none, text)

def readNumber (negative : Bool) (text : List Code) : Except Fault (Value × List Code) :=
  let digits : List Code :=
    match text with
    -- Behind a leading zero no other digit belongs to the number.
    | '0' :: _ => ['0']
    | _ => text.takeWhile Code.isDigit
  if digits.isEmpty then .error .syntaxError
  else
    let (fraction, rest) := readFraction (text.drop digits.length)
    let (scale, rest) := readScale rest
    if fraction.isEmpty && scale.isNone then
      if maxDigits < digits.length then .error .tooManyDigits
      else
        let number := Int.ofNat (ofDigits 10 digits)
        .ok (.int (if negative then -number else number), rest)
    else
      let number := Binary64.ofDecimal (ofDigits 10 (digits ++ fraction))
        (scale.getD 0 - Int.ofNat fraction.length)
      .ok (.real (if negative then number.negate else number), rest)

def readAtom (text : List Code) : Except Fault (Value × List Code) :=
  let literals : List (Text × Value) :=
    [("null", .null), ("true", .bool true), ("false", .bool false), ("NaN", .real .nan),
      ("Infinity", .real .infinity), ("-Infinity", .real Binary64.infinity.negate)]
  let found := literals.findSome? fun (word, value) =>
    (dropPrefix? word.toList text).map fun rest => (value, rest)
  match found with
  | some result => .ok result
  | none =>
      match text with
      | '-' :: rest => readNumber true rest
      | _ => readNumber false text

mutual

def readValue : Nat → List Code → Except Fault (Value × List Code)
  | 0, _ => .error .syntaxError
  | fuel + 1, text =>
      match text with
      | '"' :: rest =>
          match readText (rest.length + 1) rest with
          | some (value, rest) => .ok (.text (Text.ofList value), rest)
          | none => .error .syntaxError
      | '[' :: rest =>
          match skipSpace rest with
          | ']' :: rest => .ok (.array [], rest)
          | rest =>
              match readItems fuel rest with
              | .ok (items, rest) => .ok (.array items, rest)
              | .error fault => .error fault
      | '\x7b' :: rest =>
          match skipSpace rest with
          | '\x7d' :: rest => .ok (.object [], rest)
          | rest =>
              match readMembers fuel [] rest with
              | .ok (members, rest) => .ok (.object members, rest)
              | .error fault => .error fault
      | _ => readAtom text

def readItems : Nat → List Code → Except Fault (List Value × List Code)
  | 0, _ => .error .syntaxError
  | fuel + 1, text =>
      match readValue fuel text with
      | .error fault => .error fault
      | .ok (item, rest) =>
          match skipSpace rest with
          | ']' :: rest => .ok ([item], rest)
          | ',' :: rest =>
              match readItems fuel (skipSpace rest) with
              | .ok (items, rest) => .ok (item :: items, rest)
              | .error fault => .error fault
          | _ => .error .syntaxError

def readMembers : Nat → List (Text × Value) → List Code →
    Except Fault (List (Text × Value) × List Code)
  | 0, _, _ => .error .syntaxError
  | fuel + 1, members, text =>
      match text with
      | '"' :: rest =>
          match readText (rest.length + 1) rest with
          | none => .error .syntaxError
          | some (key, rest) =>
              match skipSpace rest with
              | ':' :: rest =>
                  match readValue fuel (skipSpace rest) with
                  | .error fault => .error fault
                  | .ok (value, rest) =>
                      let members := Value.insert (Text.ofList key) value members
                      match skipSpace rest with
                      | '\x7d' :: rest => .ok (members, rest)
                      | ',' :: rest => readMembers fuel members (skipSpace rest)
                      | _ => .error .syntaxError
              | _ => .error .syntaxError
      | _ => .error .syntaxError

end

def ofText (text : List Code) : Except Fault Value :=
  -- Of two steps in a row one takes a character, which bounds them.
  match readValue (2 * text.length + 2) (skipSpace text) with
  | .error fault => .error fault
  | .ok (value, rest) => if (skipSpace rest).isEmpty then .ok value else .error .syntaxError

def ofBytes (bytes : List UInt8) : Except Fault Value :=
  match Utf.decode bytes with
  | some text => ofText text
  | none => .error .notText

end SecretFill.Json
