import SecretFill.Text.Code
/-!
Cutting a text into pieces. `pieces` cuts at a class of separators in which a carriage return
and the line feed after it count as one; `lines` cuts at line breaks alone; `segments` cuts at
one character; `cutLast` cuts once, at the last place where a character stands.
-/

namespace SecretFill.Text

def extendFirst (character : Code) : List (List Code) → List (List Code)
  | [] => [[character]]
  | first :: rest => (character :: first) :: rest

def pieces (separates : Code → Bool) : List Code → List (List Code)
  | [] => [[]]
  | '\r' :: '\n' :: rest =>
      if separates '\r' then [] :: pieces separates rest
      else extendFirst '\r' (pieces separates ('\n' :: rest))
  | character :: rest =>
      if separates character then [] :: pieces separates rest
      else extendFirst character (pieces separates rest)

def isBreak (character : Code) : Bool := character == '\n' || character == '\r'

def lines (text : List Code) : List (List Code) := pieces isBreak text

def unixBreaks : List Code → List Code
  | [] => []
  | '\r' :: '\n' :: rest => '\n' :: unixBreaks rest
  | '\r' :: rest => '\n' :: unixBreaks rest
  | character :: rest => character :: unixBreaks rest

def segments (mark : Code) : List Code → List (List Code)
  | [] => [[]]
  | character :: rest =>
      if character = mark then [] :: segments mark rest
      else extendFirst character (segments mark rest)

/-- The text before and after the last `mark`, if there is one. -/
def cutLast (mark : Code) : List Code → Option (List Code × List Code)
  | [] => none
  | character :: rest =>
      match cutLast mark rest with
      | some (before, after) => some (character :: before, after)
      | none => if character = mark then some ([], rest) else none

end SecretFill.Text
