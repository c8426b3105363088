import SecretFill.Text.Pieces
import SecretFill.Text.Quoted
import SecretFill.Yaml.Layout
/-!
The page that a writer fills. It knows the column, whether only indentation and block indicators
stand on the line, and whether white space came last. Long lines of scalars are broken at spaces
behind column 80, where a reader puts the space back.
-/

namespace SecretFill.Yaml

open SecretFill.Text

structure Page where
  /-- The characters written so far, the last one first. -/
  written : List Code
  column : Nat
  /-- A space or line break was written last. -/
  spaced : Bool
  /-- The line holds only indentation and block indicators. -/
  fresh : Bool
  /-- The document ends in a plain scalar, which only a marker can end. -/
  openEnded : Bool
  deriving DecidableEq, Repr

namespace Page

def blank : Page := ⟨[], 0, true, true, false⟩

def lineWidth : Nat := 80

def text (page : Page) : Text := Text.ofList page.written.reverse

def write (page : Page) (characters : List Code) : Page :=
  { page with
    written := characters.reverse ++ page.written, column := page.column + characters.length }

def indicator (page : Page) (characters : List Code) (spaceBefore : Bool)
    ( isBlock : Bool := false) : Page :=
  let characters := if page.spaced || !spaceBefore then characters else ' ' :: characters
  { page.write characters with
    spaced := false, fresh := page.fresh && isBlock, openEnded := false }

def lineBreak (page : Page) (character : Code) : Page :=
  { page with written := character :: page.written, column := 0, spaced := true, fresh := true }

/-- Fills the line with spaces up to a column, on a new line unless this one is fresh. -/
def newLine (page : Page) (indent : Nat) : Page :=
  let page :=
    -- A fresh line will do unless it is filled beyond the column, or an indicator ends there.
    if !page.fresh || indent < page.column || (page.column == indent && !page.spaced) then
      page.lineBreak '\n'
    else page
  if page.column < indent then
    { page.write (List.replicate (indent - page.column) (Code.char ' ')) with spaced := true }
  else page

def inScalar (page : Page) : Page := { page with spaced := false, fresh := false }

/-! ### Stretches of a text -/

inductive Stretch
  | spaces (count : Nat)
  | breaks (characters : List Code)
  | word (characters : List Code)
  deriving DecidableEq, Repr

def Stretch.extend (character : Code) (rest : List Stretch) : List Stretch :=
  if character == ' ' then
    match rest with
    | .spaces count :: rest => .spaces (count + 1) :: rest
    | _ => .spaces 1 :: rest
  else if Layout.isWriterBreak character then
    match rest with
    | .breaks characters :: rest => .breaks (character :: characters) :: rest
    | _ => .breaks [character] :: rest
  else
    match rest with
    | .word characters :: rest => .word (character :: characters) :: rest
    | _ => .word [character] :: rest

def stretches : List Code → List Stretch
  | [] => []
  | character :: rest => Stretch.extend character (stretches rest)

/-! ### Scalars -/

def writeSpaces (page : Page) (count indent : Nat) (mayFold : Bool) : Page :=
  if count == 1 && mayFold && lineWidth < page.column then page.newLine indent
  else page.write (List.replicate count (Code.char ' '))

def writePlainStretches (indent : Nat) (split : Bool) : Page → List Stretch → Page
  | page, [] => page
  | page, .spaces count :: rest =>
      -- On this condition the spaces become a new line, in which the scalar goes on.
      let folds := count == 1 && split && lineWidth < page.column
      let page := page.writeSpaces count indent split
      writePlainStretches indent split (if folds then page.inScalar else page) rest
  | page, .breaks characters :: rest =>
      writePlainStretches indent split (page.write characters) rest
  | page, .word characters :: rest =>
      writePlainStretches indent split (page.write characters) rest

def plain (page : Page) (text : List Code) (indent : Nat) (split root : Bool) : Page :=
  -- Only a scalar that is a whole document could run on into what follows it.
  let page := if root then { page with openEnded := true } else page
  if text.isEmpty then page
  else
    let page := if page.spaced then page else page.write [' ']
    writePlainStretches indent split page.inScalar (stretches text)

/-- Line breaks inside single quotes: one more than the reader is to see, if the first one is a
line feed. -/
def writeBreaks (page : Page) (characters : List Code) (indent : Nat) : Page :=
  let page := if characters.head? = some '\n' then page.lineBreak '\n' else page
  (characters.foldl lineBreak page).newLine indent

def doubleQuotes (word : List Code) : List Code :=
  word.flatMap fun character : Code => if character == '\'' then ['\'', '\''] else [character]

def writeQuotedStretches (indent : Nat) (split : Bool) : Bool → Page → List Stretch → Page
  | _, page, [] => page
  | first, page, .spaces count :: rest =>
      -- Spaces beside one of the quotes stay spaces.
      let mayFold := split && !first && !rest.isEmpty
      writeQuotedStretches indent split false (page.writeSpaces count indent mayFold) rest
  | _, page, .breaks characters :: rest =>
      writeQuotedStretches indent split false (page.writeBreaks characters indent) rest
  | _, page, .word characters :: rest =>
      writeQuotedStretches indent split false (page.write (doubleQuotes characters)) rest

def singleQuoted (page : Page) (text : List Code) (indent : Nat) (split : Bool) : Page :=
  let page := page.indicator ['\''] true
  (writeQuotedStretches indent split true page (stretches text)).indicator ['\''] false

def letterEscapes : List (Code × Code) :=
  [('\x00', '0'), ('\x07', 'a'), ('\x08', 'b'), ('\x09', 't'), ('\x0a', 'n'), ('\x0b', 'v'),
    ('\x0c', 'f'), ('\x0d', 'r'), ('\x1b', 'e'), ('"', '"'), ('\\', '\\'), ('\u0085', 'N'),
    ('\u2028', 'L'), ('\u2029', 'P')]

def isShown (character : Code) : Bool :=
  let code := character.toNat
  !character.isHalf && ((0x20 ≤ code && code ≤ 0x7E) || (0xA0 ≤ code && code ≤ 0xFFFD)) &&
    !(character == '"' || character == '\\' || code == 0x2028 || code == 0x2029 || code == 0xFEFF)

def escape (character : Code) : List Code :=
  let code := character.toNat
  let hexadecimal (width : Nat) : List Code := (hexDigits width code).map Code.toUpper
  match letterEscapes.lookup character with
  | some letter => ['\\', letter]
  | none =>
      if code ≤ 0xFF then '\\' :: 'x' :: hexadecimal 2
      else if code ≤ 0xFFFF then '\\' :: 'u' :: hexadecimal 4
      else '\\' :: 'U' :: hexadecimal 8

/-- Characters between double quotes. `pending` are those shown as they are that are not on the
page yet, the last one first. A long line ends in a backslash, and a space that would begin the
next one is escaped. -/
def writeDouble (indent : Nat) (split : Bool) : Bool → Page → List Code → List Code → Page
  | _, page, pending, [] => page.write pending.reverse
  | first, page, pending, character :: rest =>
      let shown := isShown character
      let page := if shown then page else page.write (pending.reverse ++ escape character)
      let pending := if shown then pending else []
      -- Behind an escape the pending run starts after this character, hence one less than none.
      let width := if shown then page.column + pending.length else page.column - 1
      let folds := split && !first && !rest.isEmpty && lineWidth < width &&
        (character == ' ' || pending.isEmpty)
      if folds then
        let page := ((page.write (pending.reverse ++ [Code.char '\\'])).newLine indent).inScalar
        -- The character that the new line begins with.
        let next := if shown then character else rest.headD endMark
        let page := if next == ' ' then page.write ['\\'] else page
        writeDouble indent split false page (if shown then [character] else []) rest
      else writeDouble indent split false page (if shown then character :: pending else []) rest

def doubleQuoted (page : Page) (text : List Code) (indent : Nat) (split : Bool) : Page :=
  let page := page.indicator ['"'] true
  (writeDouble indent split true page [] text).indicator ['"'] false

def literal (page : Page) (text : List Code) (indent : Nat) : Page :=
  let page := (page.indicator ['|'] true).lineBreak '\n'
  let lines := segments '\n' text
  -- The text ends in a line feed, behind which there is one more, empty line.
  lines.dropLast.foldl (fun page line => ((page.newLine indent).write line).lineBreak '\n') page

def scalar (page : Page) (text : List Code) (style : Style) (indent : Nat) (split root : Bool) :
    Page :=
  match style with
  | .plain => page.plain text indent split root
  | .singleQuoted => page.singleQuoted text indent split
  | .doubleQuoted => page.doubleQuoted text indent split
  | .literal | .folded => page.literal text indent

end Page

end SecretFill.Yaml
