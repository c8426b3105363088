import SecretFill.Text.Search
import SecretFill.Yaml.Resolution
/-!
How a text may be written as a scalar. The plain form is for texts that read back as they are:
no indicator where it would mean something, no white space at the ends, no line break. Single
quotes take every text of printable characters whose line breaks have no space beside them, and
double quotes take everything.
-/

namespace SecretFill.Yaml.Layout

/-- Line breaks as a writer sees them; a carriage return is a special character. -/
def isWriterBreak (character : Code) : Bool :=
  character == '\n' || character.toNat == 0x85 || character.toNat == 0x2028 ||
    character.toNat == 0x2029

def hasPair (first second : Code → Bool) : List Code → Bool
  | before :: after :: rest =>
      (first before && second after) || hasPair first second (after :: rest)
  | _ => false

def beforeGap (member : Code → Bool) (text : List Code) : Bool :=
  hasPair member isGapOrEnd text || (text.getLast?.map member).getD false

def isSpecial (character : Code) : Bool :=
  let code := character.toNat
  character.isHalf ||
    !(character == '\n' || (0x20 ≤ code && code ≤ 0x7E) || code == 0x85 ||
      (0xA0 ≤ code && code ≤ 0xFFFD && code != 0xFEFF) || (0x10000 ≤ code && code < 0x10FFFF))

def startsWithMarker : List Code → Bool
  | '-' :: '-' :: '-' :: _ => true
  | '.' :: '.' :: '.' :: _ => true
  | _ => false

def opensWithIndicator (text : List Code) : Bool :=
  match text with
  | [] => false
  | first :: rest =>
      ("#,[]\x7b\x7d&*!|>'\"%@\x60" : Text).toList.contains first ||
        ((first == '-' || first == '?') && isGapOrEnd (rest.headD endMark))

def hasIndicator (text : List Code) : Bool :=
  startsWithMarker text || opensWithIndicator text || beforeGap (· == ':') text ||
    hasPair isGapOrEnd (· == '#') text

def atEnds (member : Code → Bool) (text : List Code) : Bool :=
  (text.head?.map member).getD false || (text.getLast?.map member).getD false

def isMultiline (text : List Code) : Bool := text.any isWriterBreak

def hasSpaceBeforeBreak (text : List Code) : Bool := hasPair (· == ' ') isWriterBreak text

def hasBreakBeforeSpace (text : List Code) : Bool := hasPair isWriterBreak (· == ' ') text

def allowsPlain (text : List Code) : Bool :=
  !(atEnds (· == ' ') text || isMultiline text || text.any isSpecial || hasIndicator text)

def allowsSingleQuotes (text : List Code) : Bool :=
  !(hasSpaceBeforeBreak text || hasBreakBeforeSpace text || text.any isSpecial)

structure Scalar where
  tag : Text
  text : List Code
  inLines : Bool
  deriving DecidableEq, Repr

/-- Whether a plain scalar of this text would be read with this tag. -/
def Scalar.plainKeepsTag (scalar : Scalar) : Bool :=
  Resolution.tagOf (Text.ofList scalar.text) == scalar.tag

def Scalar.style (scalar : Scalar) ( isKey : Bool) : Style :=
  let text := scalar.text
  if scalar.inLines then
    if !isKey && !text.isEmpty then .literal else .doubleQuoted
  else if scalar.plainKeepsTag && !(isKey && (text.isEmpty || isMultiline text)) &&
      (text.isEmpty || allowsPlain text) then .plain
  else if (text.isEmpty || allowsSingleQuotes text) && !(isKey && isMultiline text) then
    .singleQuoted
  else .doubleQuoted

/-- Whether the tag has to be written: a plain scalar must be read with the tag, and any other one
must be a text. -/
def Scalar.showsTag (scalar : Scalar) (style : Style) : Bool :=
  if style = .plain then !scalar.plainKeepsTag else scalar.tag != Tag.text

def tagText (tag : Text) : List Code :=
  match Text.dropPrefix? (Tag.standard "").toList tag.toList with
  | some (first :: rest) => '!' :: '!' :: first :: rest
  | _ => tag.toList

end SecretFill.Yaml.Layout
