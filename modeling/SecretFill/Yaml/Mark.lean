import SecretFill.Yaml.Character
/-!
Places in a document. A mark counts characters, lines and columns from zero; a cursor is a mark
and the text after it. `Mark.describe` shows the line around a mark with a caret under it.
-/

namespace SecretFill.Yaml

structure Mark where
  index : Nat
  line : Nat
  column : Nat
  deriving DecidableEq, Repr, Inhabited

structure Cursor where
  rest : List Code
  mark : Mark
  deriving DecidableEq, Repr

namespace Cursor

def ofText (text : List Code) : Cursor := ⟨text, ⟨0, 0, 0⟩⟩

def peek (cursor : Cursor) : Code := cursor.rest.headD endMark

def peekAt (cursor : Cursor) (distance : Nat) : Code := cursor.rest.getD distance endMark

/-- The mark after one character; a carriage return ends a line unless a line feed follows. -/
def markAfter (mark : Mark) (character : Code) (rest : List Code) : Mark :=
  if isLineBreak character && !(character == '\r' && rest.head? == some '\n') then
    ⟨mark.index + 1, mark.line + 1, 0⟩
  else if character == byteOrderMark then ⟨mark.index + 1, mark.line, mark.column⟩
  else ⟨mark.index + 1, mark.line, mark.column + 1⟩

def next (cursor : Cursor) : Cursor :=
  match cursor.rest with
  | [] => cursor
  | character :: rest => ⟨rest, markAfter cursor.mark character rest⟩

def advance : Nat → Cursor → Cursor
  | 0, cursor => cursor
  | count + 1, cursor => advance count cursor.next

def run (cursor : Cursor) (member : Code → Bool) : List Code := cursor.rest.takeWhile member

def skipWhile (cursor : Cursor) (member : Code → Bool) : Cursor :=
  cursor.advance (cursor.run member).length

def takeRun (cursor : Cursor) (member : Code → Bool) : List Code × Cursor :=
  (cursor.run member, cursor.skipWhile member)

/-- Passes one line break, if there is one, and gives the text that it stands for. -/
def lineBreak (cursor : Cursor) : List Code × Cursor :=
  match cursor.rest with
  | '\r' :: '\n' :: _ => (['\n'], cursor.advance 2)
  | character :: _ =>
      if character == '\r' || character == '\n' || character.toNat == 0x85 then
        (['\n'], cursor.next)
      else if isLineBreak character then ([character], cursor.next)
      else ([], cursor)
  | [] => ([], cursor)

def atMarker (cursor : Cursor) (marker : Code) : Bool :=
  cursor.peek == marker && cursor.peekAt 1 == marker && cursor.peekAt 2 == marker &&
    isGapOrEnd (cursor.peekAt 3)

def atDocumentMarker (cursor : Cursor) : Bool := cursor.atMarker '-' || cursor.atMarker '.'

end Cursor

namespace Mark

def reach : Nat := 37

def before (source : List Code) (mark : Mark) : List Code :=
  ((source.take mark.index).reverse).takeWhile fun character => !isBreakOrEnd character

def behind (source : List Code) (mark : Mark) : List Code :=
  (source.drop mark.index).takeWhile fun character => !isBreakOrEnd character

/-- The line around a mark, cut where it is long, and a caret below the mark. -/
def snippet (source : List Code) (mark : Mark) : List Code :=
  let left := mark.before source
  let right := mark.behind source
  let (head, left) :=
    if reach ≤ left.length then ((" ... " : Text).toList, left.take (reach - 5)) else ([], left)
  let (right, tail) :=
    if reach ≤ right.length then (right.take (reach - 5), (" ... " : Text).toList) else (right, [])
  let indentation := List.replicate 4 (Code.char ' ')
  indentation ++ head ++ left.reverse ++ right ++ tail ++ Code.char '\n' :: indentation ++
    List.replicate (head.length + left.length) (Code.char ' ') ++ [Code.char '^']

def describe (source : List Code) (mark : Mark) : Text :=
  "  in \"<unicode string>\", line " ++ toString (mark.line + 1) ++ ", column " ++
    toString (mark.column + 1) ++ ":\n" ++ Text.ofList (mark.snippet source)

end Mark

end SecretFill.Yaml
