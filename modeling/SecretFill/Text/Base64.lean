import SecretFill.Text.Code
/-!
Base 64. `encode` writes groups of four digits; `decode` reads them. A lenient reader skips
characters outside the alphabet and whatever follows the padding that ends a group; a strict one
refuses both.
-/

namespace SecretFill.Text.Base64

def digit (value : Nat) : Code :=
  if value < 26 then Code.ofNat (65 + value)
  else if value < 52 then Code.ofNat (71 + value)
  else if value < 62 then Code.ofNat (value - 4)
  else if value = 62 then '+'
  else '/'

def value? (character : Code) : Option Nat :=
  let code := character.toNat
  if 65 ≤ code && code ≤ 90 then some (code - 65)
  else if 97 ≤ code && code ≤ 122 then some (code - 71)
  else if 48 ≤ code && code ≤ 57 then some (code + 4)
  else if character = '+' then some 62
  else if character = '/' then some 63
  else none

def encode : List UInt8 → List Code
  | [] => []
  | [first] => [digit (first.toNat / 4), digit (first.toNat % 4 * 16), '=', '=']
  | [first, second] =>
      [digit (first.toNat / 4), digit (first.toNat % 4 * 16 + second.toNat / 16),
        digit (second.toNat % 16 * 4), '=']
  | first :: second :: third :: rest =>
      digit (first.toNat / 4) :: digit (first.toNat % 4 * 16 + second.toNat / 16) ::
        digit (second.toNat % 16 * 4 + third.toNat / 64) :: digit (third.toNat % 64) ::
        encode rest

inductive Fault
  /-- A strict reader met a character or padding that does not belong where it stands. -/
  | misplaced
  /-- The last group lacks padding. -/
  | padding
  /-- A group of a single digit; `count` is the number of digits read. -/
  | lone (count : Nat)
  deriving DecidableEq, Repr

def Fault.message : Fault → Text
  | .misplaced => "Only base64 data is allowed"
  | .padding => "Incorrect padding"
  | .lone count =>
      "Invalid base64-encoded string: number of data characters (" ++ toString count ++
        ") cannot be 1 more than a multiple of 4"

/-- Where a reader stands: the bytes read so far (last first), the place in the group, the bits
left over from the previous digit, and the padding seen since. -/
structure Reader where
  bytes : List UInt8 := []
  place : Nat := 0
  left : Nat := 0
  pads : Nat := 0
  padded : Bool := false

def Reader.push (reader : Reader) (value : Nat) : Reader :=
  let emit (number : Nat) := number.toUInt8 :: reader.bytes
  match reader.place with
  | 0 => { reader with place := 1, left := value, pads := 0 }
  | 1 => { reader with
      bytes := emit (reader.left * 4 + value / 16), place := 2, left := value % 16, pads := 0 }
  | 2 => { reader with
      bytes := emit (reader.left * 16 + value / 4), place := 3, left := value % 4, pads := 0 }
  | _ => { reader with
      bytes := emit (reader.left * 64 + value), place := 0, left := 0, pads := 0 }

def Reader.finish (reader : Reader) : Except Fault (List UInt8) :=
  if reader.place = 0 then .ok reader.bytes.reverse
  else if reader.place = 1 then .error (.lone (reader.bytes.length / 3 * 4 + 1))
  else .error .padding

def read (strict : Bool) (reader : Reader) : List Code → Except Fault (List UInt8)
  | [] => reader.finish
  | character :: rest =>
      if character = '=' then
        -- The padding that fills a group ends what is read.
        if 2 ≤ reader.place ∧ 4 ≤ reader.place + reader.pads + 1 then
          if strict && !rest.isEmpty then .error .misplaced else .ok reader.bytes.reverse
        else
          let pads := if 2 ≤ reader.place then reader.pads + 1 else reader.pads
          read strict { reader with pads := pads, padded := true } rest
      else
        match value? character with
        | none => if strict then .error .misplaced else read strict reader rest
        | some value =>
            if strict && reader.padded then .error .misplaced
            else read strict (reader.push value) rest

def decodeLenient (text : List Code) : Except Fault (List UInt8) := read false {} text

def decodeStrict (text : List Code) : Except Fault (List UInt8) :=
  if text.head? = some '=' then .error .misplaced else read true {} text

def encodeLines (bytes : List UInt8) : List Code :=
  match bytes with
  | [] => []
  | first :: rest =>
      -- 57 bytes make a line of 76 digits.
      encode (first :: rest.take 56) ++ Code.char '\n' :: encodeLines (rest.drop 56)
termination_by bytes.length
decreasing_by simp only [List.length_drop, List.length_cons]; omega

end SecretFill.Text.Base64
