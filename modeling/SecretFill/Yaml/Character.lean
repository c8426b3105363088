import SecretFill.Text.Code
/-!
Character classes of the document syntax. The end of the text reads as the NUL character, which
no document may contain.
-/

namespace SecretFill.Yaml

def endMark : Code := '\x00'

def isLineBreak (character : Code) : Bool :=
  character == '\n' || character == '\r' || character.toNat == 0x85 ||
    character.toNat == 0x2028 || character.toNat == 0x2029

def isBreakOrEnd (character : Code) : Bool := character == endMark || isLineBreak character

/-- Space, line break or end: what may follow a word in a header line. -/
def isSpaceOrEnd (character : Code) : Bool := character == ' ' || isBreakOrEnd character

/-- Space, tab, line break or end: what separates tokens. -/
def isGapOrEnd (character : Code) : Bool := character == '\t' || isSpaceOrEnd character

def isSpaceOrTab (character : Code) : Bool := character == ' ' || character == '\t'

def isWordCharacter (character : Code) : Bool :=
  character.isAlphanum || character == '-' || character == '_'

def isHexDigit (character : Code) : Bool :=
  character.isDigit || ('a' ≤ character && character ≤ 'f') || ('A' ≤ character && character ≤ 'F')

def isUriCharacter (character : Code) : Bool :=
  character.isAlphanum || ("-;/?:@&=+$,_.!~*'()[]%" : Text).toList.contains character

def isAcceptable (character : Code) : Bool :=
  let code := character.toNat
  !character.isHalf &&
    (code == 9 || code == 10 || code == 13 || (0x20 ≤ code && code ≤ 0x7E) || code == 0x85 ||
      (0xA0 ≤ code && code ≤ 0xFFFD) || 0x10000 ≤ code)

def byteOrderMark : Code := Code.ofNat 0xFEFF

end SecretFill.Yaml
