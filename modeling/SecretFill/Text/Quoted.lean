import SecretFill.Text.Printable
/-!
Quoted text for messages. Single quotes are used unless the text holds one and no double quote;
backslash, the quote and characters that are not printable are escaped.
-/

namespace SecretFill.Text

def hexDigits (width number : Nat) : List Code :=
  let digits := (Nat.toDigits 16 number).map Code.char
  List.replicate (width - digits.length) (Code.char '0') ++ digits

def quoteFor (text : List Code) : Code :=
  if text.contains '\'' && !text.contains '"' then '"' else '\''

def escaped (quote character : Code) : List Code :=
  let code := character.toNat
  if character == quote || character == '\\' then ['\\', character]
  else if character == '\n' then ['\\', 'n']
  else if character == '\r' then ['\\', 'r']
  else if character == '\t' then ['\\', 't']
  else if isPrintable character then [character]
  else if code ≤ 0xFF then '\\' :: 'x' :: hexDigits 2 code
  else if code ≤ 0xFFFF then '\\' :: 'u' :: hexDigits 4 code
  else '\\' :: 'U' :: hexDigits 8 code

def quotedCharacters (text : List Code) : List Code :=
  let quote := quoteFor text
  quote :: text.flatMap (escaped quote) ++ [quote]

def quoted (text : Text) : Text := Text.ofList (quotedCharacters text.toList)

def escapedByte (quote : Code) (byte : UInt8) : List Code :=
  let character := Code.ofNat byte.toNat
  if 127 ≤ byte.toNat then '\\' :: 'x' :: hexDigits 2 byte.toNat
  else escaped quote character

/-- A quoted byte string: a `b`, then the bytes between quotes. -/
def quotedBytes (bytes : List UInt8) : Text :=
  let quote := quoteFor (bytes.map fun byte => Code.ofNat byte.toNat)
  Text.ofList (Code.char 'b' :: quote :: bytes.flatMap (escapedByte quote) ++ [quote])

end SecretFill.Text
