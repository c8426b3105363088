import SecretFill.Yaml.Timestamp
/-!
The tag of a scalar that is written without one. The text decides: truth values, numbers, the
empty text and its words, timestamps, and the marks for merging and for a default value have
forms of their own, and every other text is a string.
-/

namespace SecretFill.Yaml

namespace Tag

def standard (name : Text) : Text := "tag:yaml.org,2002:" ++ name

def bool : Text := standard "bool"
def int : Text := standard "int"
def real : Text := standard "float"
def merge : Text := standard "merge"
def null : Text := standard "null"
def timestamp : Text := standard "timestamp"
def value : Text := standard "value"
def reserved : Text := standard "yaml"
def text : Text := standard "str"
def sequence : Text := standard "seq"
def mapping : Text := standard "map"
def binary : Text := standard "binary"
def orderedMap : Text := standard "omap"
def pairs : Text := standard "pairs"
def set : Text := standard "set"

end Tag

namespace Resolution

def dropSign : List Code → List Code
  | '-' :: rest => rest
  | '+' :: rest => rest
  | text => text

def isUnderscoredDigit (character : Code) : Bool := character.isDigit || character == '_'

def afterDigit? : List Code → Option (List Code)
  | character :: rest => if character.isDigit then some rest else none
  | [] => none

/-- One or more groups of a colon and a number below sixty, and what follows them. -/
def sixtieths : Nat → List Code → Option (List Code)
  | 0, _ => none
  | fuel + 1, ':' :: first :: rest =>
      if !first.isDigit then none
      else
        -- One digit, or two of which the first is at most five.
        let afterGroup :=
          match rest with
          | second :: tail => if first ≤ '5' && second.isDigit then tail else rest
          | [] => []
        match afterGroup with
        | ':' :: _ => sixtieths fuel afterGroup
        | tail => some tail
  | _, _ => none

def isSexagesimal (text : List Code) (ends : List Code → Bool) : Bool :=
  match afterDigit? text with
  | none => false
  | some rest =>
      match sixtieths text.length (rest.dropWhile isUnderscoredDigit) with
      | some tail => ends tail
      | none => false

def isInteger (text : List Code) : Bool :=
  let body := dropSign text
  let nonempty (digits : List Code) (member : Code → Bool) : Bool :=
    !digits.isEmpty && digits.all member
  match body with
  | '0' :: 'b' :: digits =>
      nonempty digits fun digit : Code => digit == '0' || digit == '1' || digit == '_'
  | '0' :: 'x' :: digits => nonempty digits fun digit : Code => isHexDigit digit || digit == '_'
  | ['0'] => true
  | '0' :: digits => digits.all fun digit : Code => ('0' ≤ digit && digit ≤ '7') || digit == '_'
  | first :: digits =>
      first.isDigit && (digits.all isUnderscoredDigit || isSexagesimal body List.isEmpty)
  | [] => false

def isExponent : List Code → Bool
  | [] => true
  | mark :: sign :: digits =>
      (mark == 'e' || mark == 'E') && (sign == '+' || sign == '-') && !digits.isEmpty &&
        digits.all Code.isDigit
  | _ => false

def isFraction : List Code → Bool
  | '.' :: rest => rest.all isUnderscoredDigit
  | _ => false

def infiniteWords : List Text := [".inf", ".Inf", ".INF"]

def undefinedWords : List Text := [".nan", ".NaN", ".NAN"]

def isReal (text : List Code) : Bool :=
  let body := dropSign text
  let pointed :=
    match afterDigit? body with
    | none => false
    | some rest =>
        match rest.dropWhile isUnderscoredDigit with
        | '.' :: tail => isExponent (tail.dropWhile isUnderscoredDigit)
        | _ => false
  let leadingPoint :=
    match text with
    | '.' :: first :: rest =>
        first.isDigit && isExponent (rest.dropWhile isUnderscoredDigit)
    | _ => false
  pointed || leadingPoint || isSexagesimal body isFraction ||
    infiniteWords.any (·.toList == body) || undefinedWords.any (·.toList == text)

def boolWords : List Text :=
  ["yes", "Yes", "YES", "no", "No", "NO", "true", "True", "TRUE", "false", "False", "FALSE",
    "on", "On", "ON", "off", "Off", "OFF"]

def nullWords : List Text := ["~", "null", "Null", "NULL"]

/-- A line feed at the very end does not count. -/
def dropFinalBreak (text : List Code) : List Code :=
  if text.getLast? = some '\n' then text.dropLast else text

def tagOf (text : Text) : Text :=
  if text.isEmpty then Tag.null
  else
    let core := dropFinalBreak text.toList
    let isWord (words : List Text) : Bool := words.any (·.toList == core)
    -- The first form that fits decides.
    if core.isEmpty then Tag.text
    else if isWord boolWords then Tag.bool
    else if isReal core then Tag.real
    else if isInteger core then Tag.int
    else if core = ("<<" : Text).toList then Tag.merge
    else if isWord nullWords then Tag.null
    else if ((Timestamp.form? core).map Timestamp.Form.isImplicit).getD false then Tag.timestamp
    else if core = [Code.char '='] then Tag.value
    else if isWord ["!", "&", "*"] then Tag.reserved
    else Tag.text

end Resolution

end SecretFill.Yaml
