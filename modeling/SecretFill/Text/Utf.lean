import SecretFill.Text.Utf8
/-!
Texts in the wider Unicode encodings, and the rule that tells the encodings apart by a byte order
mark or by where the first zero bytes stand. Halves of surrogate pairs pass where they have no
other half.
-/

namespace SecretFill.Text.Utf

inductive Encoding
  | utf8
  | utf16 (bigEndian : Bool)
  | utf32 (bigEndian : Bool)
  deriving DecidableEq, Repr

/-- The encoding of some bytes and the bytes after the order mark. -/
def detect (bytes : List UInt8) : Encoding × List UInt8 :=
  match bytes with
  | 0x00 :: 0x00 :: 0xFE :: 0xFF :: rest => (.utf32 true, rest)
  | 0xFF :: 0xFE :: 0x00 :: 0x00 :: rest => (.utf32 false, rest)
  | 0xFE :: 0xFF :: rest => (.utf16 true, rest)
  | 0xFF :: 0xFE :: rest => (.utf16 false, rest)
  | 0xEF :: 0xBB :: 0xBF :: rest => (.utf8, rest)
  | first :: second :: third :: fourth :: _ =>
      if first == 0 then (if second == 0 then (.utf32 true, bytes) else (.utf16 true, bytes))
      else if second == 0 then
        if third == 0 && fourth == 0 then (.utf32 false, bytes) else (.utf16 false, bytes)
      else (.utf8, bytes)
  | [first, second] =>
      if first == 0 then (.utf16 true, bytes)
      else if second == 0 then (.utf16 false, bytes)
      else (.utf8, bytes)
  | _ => (.utf8, bytes)

def units16 (bigEndian : Bool) : List UInt8 → Option (List Nat)
  | [] => some []
  | [_] => none
  | first :: second :: rest =>
      let unit :=
        if bigEndian then first.toNat * 256 + second.toNat else second.toNat * 256 + first.toNat
      (units16 bigEndian rest).map (unit :: ·)

def joinPairs : List Nat → List Code
  | [] => []
  | [unit] => [Code.ofNat unit]
  | high :: low :: rest =>
      if 0xD800 ≤ high ∧ high < 0xDC00 ∧ 0xDC00 ≤ low ∧ low < 0xE000 then
        Code.ofNat (0x10000 + (high - 0xD800) * 1024 + (low - 0xDC00)) :: joinPairs rest
      else Code.ofNat high :: joinPairs (low :: rest)

def units32 (bigEndian : Bool) : List UInt8 → Option (List Code)
  | [] => some []
  | first :: second :: third :: fourth :: rest =>
      let ordered := if bigEndian then [first, second, third, fourth]
        else [fourth, third, second, first]
      let unit := ordered.foldl (fun number byte => number * 256 + byte.toNat) 0
      if unit < 0x110000 then (units32 bigEndian rest).map (Code.ofNat unit :: ·) else none
  | _ => none

def decode (bytes : List UInt8) : Option (List Code) :=
  match detect bytes with
  | (.utf8, rest) => (Utf8.decodeFrom true 0 rest).toOption
  | (.utf16 bigEndian, rest) => (units16 bigEndian rest).map joinPairs
  | (.utf32 bigEndian, rest) => units32 bigEndian rest

end SecretFill.Text.Utf
