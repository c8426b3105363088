import SecretFill.Yaml.Token.Words
/-!
Scalar tokens. A plain or quoted scalar may go on over several lines: a single line break between
its lines reads as a space, and of several ones all but the first are kept. A block scalar keeps
its lines, or folds them in the same way, below an indentation. A reader that goes on for as long
as it can takes the text that is left as a bound on its steps.
-/

namespace SecretFill.Yaml.Token

open SecretFill.Decimal

/-- What the line breaks between two lines of a scalar read as: `first` ends the line, `others`
are the breaks of the empty lines after it. -/
def foldedBreak (first others : List Code) : List Code :=
  -- Only a line feed reads as a space; other breaks are kept.
  if first != [Code.char '\n'] then first ++ others
  else if others.isEmpty then [' ']
  else others

/-! ### Plain scalars -/

def isFlowIndicator (character : Code) : Bool := (",[]\x7b\x7d" : Text).toList.contains character

def endsPlain (inFlow : Bool) (character : Code) (rest : List Code) : Bool :=
  let next := rest.headD endMark
  isGapOrEnd character
    || (character == ':' && (isGapOrEnd next || (inFlow && isFlowIndicator next)))
    || (inFlow && (character == '?' || isFlowIndicator character))

def plainRun (inFlow : Bool) : List Code → List Code
  | [] => []
  | character :: rest =>
      if endsPlain inFlow character rest then [] else character :: plainRun inFlow rest

/-- The line breaks at the start of the lines after the first break of a plain scalar, unless a
document marker ends it. -/
def plainBreaks : List Code → Cursor → Option (List Code) × Cursor
  | [], cursor => (some [], cursor)
  | _ :: bound, cursor =>
      if cursor.peek == ' ' then plainBreaks bound cursor.next
      else if isLineBreak cursor.peek then
        let (ended, cursor) := cursor.lineBreak
        if cursor.atDocumentMarker then (none, cursor)
        else
          let (rest, cursor) := plainBreaks bound cursor
          (rest.map (ended ++ ·), cursor)
      else (some [], cursor)

structure PlainGap where
  /-- The text that the gap stands for; nothing if the scalar ends here. -/
  text : List Code
  crossesLine : Bool
  cursor : Cursor

def plainGap (cursor : Cursor) : PlainGap :=
  let (blanks, cursor) := cursor.takeRun (· == ' ')
  if isLineBreak cursor.peek then
    let (ended, cursor) := cursor.lineBreak
    if cursor.atDocumentMarker then ⟨[], true, cursor⟩
    else
      match plainBreaks cursor.rest cursor with
      | (none, cursor) => ⟨[], true, cursor⟩
      | (some breaks, cursor) => ⟨foldedBreak ended breaks, true, cursor⟩
  else ⟨blanks, false, cursor⟩

structure Plain where
  text : List Code
  stop : Mark
  gap : PlainGap

/-- The stretches of a plain scalar after a gap. `previous` is what has been read so far. -/
def plainStretches (inFlow : Bool) (indent : Int) : List Code → Plain → Plain
  | [], previous => previous
  | _ :: bound, previous =>
      let cursor := previous.gap.cursor
      -- Behind a gap a hash sign begins a comment.
      if previous.gap.text.isEmpty || cursor.peek == '#' ||
          (!inFlow && Int.ofNat cursor.mark.column < indent) then previous
      else
        let stretch := plainRun inFlow cursor.rest
        if stretch.isEmpty then previous
        else
          let after := cursor.advance stretch.length
          plainStretches inFlow indent bound
            ⟨previous.text ++ previous.gap.text ++ stretch, after.mark, plainGap after⟩

def plain (inFlow : Bool) (indent : Int) (cursor : Cursor) : Token × Cursor × Bool :=
  let stretch := plainRun inFlow cursor.rest
  let after := cursor.advance stretch.length
  let scalar :=
    plainStretches inFlow (indent + 1) cursor.rest ⟨stretch, after.mark, plainGap after⟩
  (⟨.scalar (Text.ofList scalar.text) .plain, cursor.mark, scalar.stop⟩, scalar.gap.cursor,
    scalar.gap.crossesLine)

/-! ### Quoted scalars -/

def quotedBreaks (start : Mark) : List Code → Cursor → Except Failure (List Code × Cursor)
  | [], cursor => .ok ([], cursor)
  | _ :: bound, cursor =>
      if cursor.atDocumentMarker then
        .error (Failure.within .quotedScalar start .documentSeparator cursor.mark)
      else
        let cursor := cursor.skipWhile isSpaceOrTab
        if isLineBreak cursor.peek then do
          let (ended, cursor) := cursor.lineBreak
          let (rest, cursor) ← quotedBreaks start bound cursor
          .ok (ended ++ rest, cursor)
        else .ok ([], cursor)

/-- White space inside a quoted scalar: kept within a line, folded across lines. -/
def quotedGap (start : Mark) (cursor : Cursor) : Except Failure (List Code × Cursor) := do
  let (blanks, cursor) := cursor.takeRun isSpaceOrTab
  if cursor.peek == endMark then
    .error (Failure.within .quotedScalar start .endOfStream cursor.mark)
  else if isLineBreak cursor.peek then
    let (ended, cursor) := cursor.lineBreak
    -- One step more than there are characters, for the end of the text.
    let (breaks, cursor) ← quotedBreaks start (endMark :: cursor.rest) cursor
    .ok (foldedBreak ended breaks, cursor)
  else .ok (blanks, cursor)

def escapes : List (Code × Code) :=
  [('0', '\x00'), ('a', '\x07'), ('b', '\x08'), ('t', '\x09'), ('\t', '\x09'), ('n', '\x0a'),
    ('v', '\x0b'), ('f', '\x0c'), ('r', '\x0d'), ('e', '\x1b'), (' ', ' '), ('"', '"'),
    ('\\', '\\'), ('/', '/'), ('N', '\u0085'), ('_', '\u00a0'), ('L', '\u2028'), ('P', '\u2029')]

def escapeWidth? (character : Code) : Option Nat :=
  match character with
  | 'x' => some 2
  | 'u' => some 4
  | 'U' => some 8
  | _ => none

/-- The character of an escape, which may be half of a surrogate pair. Numbers that are larger than
any code point are refused. -/
def escapedCharacter (code : Nat) : Except Failure Code :=
  if code < 0x110000 then .ok (Code.ofNat code)
  else .error (.scalar (.codePoint code))

def escape (start : Mark) (cursor : Cursor) : Except Failure (List Code × Cursor) :=
  let mark := cursor.peek
  match escapes.lookup mark with
  | some character => .ok ([character], cursor.next)
  | none =>
      match escapeWidth? mark with
      | some width =>
          let cursor := cursor.next
          let digits := (List.range width).map cursor.peekAt
          match digits.find? fun digit => !isHexDigit digit with
          | some found =>
              .error (Failure.within .doubleQuotedScalar start
                (.expectedCharacter (.hexDigits width) found) cursor.mark)
          | none => do
              let character ← escapedCharacter (ofDigits 16 digits)
              .ok ([character], cursor.advance width)
      | none =>
          if isLineBreak mark then
            -- An escaped line break joins its lines without a space.
            let cursor := cursor.lineBreak.2
            quotedBreaks start (endMark :: cursor.rest) cursor
          else
            .error (Failure.within .doubleQuotedScalar start (.unknownEscape mark) cursor.mark)

def quotedBody (double : Bool) (start : Mark) : List Code → Cursor →
    Except Failure (List Code × Cursor)
  | [], cursor => .error (Failure.within .quotedScalar start .endOfStream cursor.mark)
  | _ :: bound, cursor =>
      let character := cursor.peek
      let goOn (text : List Code) (cursor : Cursor) : Except Failure (List Code × Cursor) := do
        let (rest, cursor) ← quotedBody double start bound cursor
        .ok (text ++ rest, cursor)
      if isGapOrEnd character then do
        let (text, cursor) ← quotedGap start cursor
        goOn text cursor
      else if double then
        if character == '"' then .ok ([], cursor.next)
        else if character == '\\' then do
          let (text, cursor) ← escape start cursor.next
          goOn text cursor
        else goOn [character] cursor.next
      else if character == '\'' then
        if cursor.peekAt 1 == '\'' then goOn ['\''] (cursor.advance 2) else .ok ([], cursor.next)
      else goOn [character] cursor.next

def quoted (double : Bool) (cursor : Cursor) : Except Failure (Token × Cursor) := do
  let start := cursor.mark
  let (text, rest) ← quotedBody double start (endMark :: cursor.rest) cursor.next
  let style : Style := if double then .doubleQuoted else .singleQuoted
  .ok (⟨.scalar (Text.ofList text) style, start, rest.mark⟩, rest)

/-! ### Block scalars -/

inductive Chomping
  | strip
  | clip
  | keep
  deriving DecidableEq, Repr

def chomping? (character : Code) : Option Chomping :=
  match character with
  | '+' => some .keep
  | '-' => some .strip
  | _ => none

def increment? (start : Mark) (cursor : Cursor) : Except Failure (Option Nat × Cursor) :=
  if cursor.peek == '0' then
    .error (Failure.within .blockScalar start .zeroIndentation cursor.mark)
  else if cursor.peek.isDigit then .ok (some (cursor.peek.toNat - 48), cursor.next)
  else .ok (none, cursor)

def blockHeader (start : Mark) (cursor : Cursor) :
    Except Failure (Chomping × Option Nat × Cursor) := do
  let (chomping, increment, cursor) ←
    match chomping? cursor.peek with
    | some chomping => do
        let (increment, cursor) ← increment? start cursor.next
        .ok (chomping, increment, cursor)
    | none => do
        let (increment, cursor) ← increment? start cursor
        match increment, chomping? cursor.peek with
        | some _, some chomping => .ok (chomping, increment, cursor.next)
        | _, _ => .ok (Chomping.clip, increment, cursor)
  if isSpaceOrEnd cursor.peek then .ok (chomping, increment, cursor)
  else .error (unexpected .blockScalar start .blockIndicators cursor)

/-- The empty lines before the first line of a block scalar: their breaks, the widest
indentation among them and the first line, the cursor, and the mark after the last break. -/
def leadingBreaks : List Code → Cursor → Nat → Mark → List Code × Nat × Cursor × Mark
  | [], cursor, width, stop => ([], width, cursor, stop)
  | _ :: bound, cursor, width, stop =>
      if cursor.peek == ' ' then
        let cursor := cursor.next
        leadingBreaks bound cursor (max width cursor.mark.column) stop
      else if isLineBreak cursor.peek then
        let (ended, cursor) := cursor.lineBreak
        let (breaks, rest) := leadingBreaks bound cursor width cursor.mark
        (ended ++ breaks, rest)
      else ([], width, cursor, stop)

def indentTo (indent : Nat) (cursor : Cursor) : Cursor :=
  let spaces := cursor.run (· == ' ')
  cursor.advance (min spaces.length (indent - cursor.mark.column))

def blockBreaks (indent : Nat) : List Code → Cursor → Mark → List Code × Cursor × Mark
  | [], cursor, stop => ([], cursor, stop)
  | _ :: bound, cursor, stop =>
      let cursor := indentTo indent cursor
      if isLineBreak cursor.peek then
        let (ended, cursor) := cursor.lineBreak
        let (breaks, rest) := blockBreaks indent bound cursor cursor.mark
        (ended ++ breaks, rest)
      else ([], cursor, stop)

/-- The lines of a block scalar, from one on: their text with the breaks between them, the break
after the last one, the breaks of the empty lines behind it, the cursor and the end mark. -/
def blockLines (folded : Bool) (indent : Nat) : List Code → Cursor → Mark →
    List Code × List Code × List Code × Cursor × Mark
  | [], cursor, stop => ([], [], [], cursor, stop)
  | _ :: bound, cursor, _ =>
      let opensWithText := !isSpaceOrTab cursor.peek
      let (line, cursor) := cursor.takeRun fun character => !isBreakOrEnd character
      let (ended, cursor) := cursor.lineBreak
      let (breaks, cursor, stop) := blockBreaks indent (endMark :: cursor.rest) cursor cursor.mark
      if cursor.mark.column = indent ∧ cursor.peek ≠ endMark then
        -- A line that begins with white space is not joined to its neighbours.
        let folds := folded && ended == [Code.char '\n'] && opensWithText && !isSpaceOrTab cursor.peek
        let between : List Code :=
          if folds then (if breaks.isEmpty then [' '] else []) else ended
        let (text, rest) := blockLines folded indent bound cursor stop
        (line ++ between ++ breaks ++ text, rest)
      else (line, ended, breaks, cursor, stop)

def block (folded : Bool) (parent : Int) (cursor : Cursor) : Except Failure (Token × Cursor) := do
  let start := cursor.mark
  let (chomping, increment, cursor) ← blockHeader start cursor.next
  let cursor ← endOfHeader .blockScalar start cursor
  let least := (max (parent + 1) 1).toNat
  let bound := endMark :: cursor.rest
  let (indent, breaks, cursor, stop) :=
    match increment with
    | none =>
        let (breaks, width, cursor, stop) := leadingBreaks bound cursor 0 cursor.mark
        (max least width, breaks, cursor, stop)
    | some increment =>
        -- The indicator counts from the block that holds the scalar.
        let indent := least + increment - 1
        (indent, blockBreaks indent bound cursor cursor.mark)
  let (text, ended, trailing, cursor, stop) :=
    if cursor.mark.column = indent ∧ cursor.peek ≠ endMark then
      let (text, rest) := blockLines folded indent bound cursor stop
      (breaks ++ text, rest)
    else ([], [], breaks, cursor, stop)
  let tail :=
    match chomping with
    | .strip => []
    | .clip => ended
    | .keep => ended ++ trailing
  let style : Style := if folded then .folded else .literal
  .ok (⟨.scalar (Text.ofList (text ++ tail)) style, start, stop⟩, cursor)

end SecretFill.Yaml.Token
