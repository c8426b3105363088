import SecretFill.Yaml.Token.Scalars
/-!
The tokens of a whole text. A token may later turn out to begin a mapping key written without an
indicator; until the colon is found, or can no longer follow, the place is kept as a candidate, and
the tokens from the first candidate on are not final. `ofText` gives all tokens, or those that
were final before the first failure, and the failure.
-/

namespace SecretFill.Yaml.Token

/-- A place where a key without an indicator may begin. -/
structure Candidate where
  flow : Nat
  /-- The number of the token that begins there. -/
  number : Nat
  /-- The place is at the indentation of a block mapping, so only a key can stand there. -/
  required : Bool
  mark : Mark
  deriving DecidableEq, Repr

structure Scan where
  cursor : Cursor
  /-- Tokens read so far, the last one first. -/
  tokens : List Token
  /-- How many they are. -/
  count : Nat
  flow : Nat
  indent : Int
  indents : List Int
  /-- Whether a key without an indicator may begin at the next token. -/
  keyAllowed : Bool
  candidates : List Candidate
  finished : Bool

namespace Scan

def start (text : List Code) : Scan :=
  let cursor := Cursor.ofText text
  { cursor := cursor
    tokens := [⟨.streamStart, cursor.mark, cursor.mark⟩]
    count := 1
    flow := 0
    indent := -1
    indents := []
    keyAllowed := true
    candidates := []
    finished := false }

def push (scan : Scan) (token : Token) : Scan :=
  { scan with tokens := token :: scan.tokens, count := scan.count + 1 }

def pushMark (scan : Scan) (kind : Kind) : Scan :=
  scan.push ⟨kind, scan.cursor.mark, scan.cursor.mark⟩

def pushIndicator (scan : Scan) (kind : Kind) (width : Nat) : Scan :=
  let after := scan.cursor.advance width
  { scan.push ⟨kind, scan.cursor.mark, after.mark⟩ with cursor := after }

def insertAt (scan : Scan) (number : Nat) (token : Token) : Scan :=
  -- The tokens stand last first, so those behind the place are in front.
  let newer := scan.count - number
  { scan with
    tokens := scan.tokens.take newer ++ token :: scan.tokens.drop newer
    count := scan.count + 1 }

def missingColon (scan : Scan) (candidate : Candidate) : Failure :=
  Failure.within .simpleKey candidate.mark .missingColon scan.cursor.mark

/-- A key without an indicator ends on its line, within 1024 characters. -/
def isStale (scan : Scan) (candidate : Candidate) : Bool :=
  candidate.mark.line != scan.cursor.mark.line ||
    1024 < scan.cursor.mark.index - candidate.mark.index

def dropStale (scan : Scan) : Except Failure Scan :=
  match scan.candidates.find? fun candidate => scan.isStale candidate && candidate.required with
  | some candidate => .error (scan.missingColon candidate)
  | none =>
      let fresh := scan.candidates.filter fun candidate => !scan.isStale candidate
      .ok { scan with candidates := fresh }

def dropCandidate (scan : Scan) : Except Failure Scan :=
  match scan.candidates.find? fun candidate => candidate.flow == scan.flow with
  | none => .ok scan
  | some candidate =>
      if candidate.required then .error (scan.missingColon candidate)
      else
        let others := scan.candidates.filter fun other => other.flow != scan.flow
        .ok { scan with candidates := others }

/-- Makes the next token a candidate, if a key may begin there. -/
def saveCandidate (scan : Scan) : Except Failure Scan :=
  if !scan.keyAllowed then .ok scan
  else do
    let mark := scan.cursor.mark
    let required := scan.flow == 0 && scan.indent == Int.ofNat mark.column
    let scan ← scan.dropCandidate
    let candidate : Candidate := ⟨scan.flow, scan.count, required, mark⟩
    .ok { scan with candidates := candidate :: scan.candidates }

def closeBlocks (column : Int) : List Int → Scan → Scan
  | [], scan => scan
  | outer :: indents, scan =>
      if column < scan.indent then
        closeBlocks column indents
          ({ scan with indent := outer, indents := indents }.pushMark .blockEnd)
      else scan

def unwind (scan : Scan) (column : Int) : Scan :=
  if scan.flow == 0 then closeBlocks column scan.indents scan else scan

def deepen (scan : Scan) (column : Nat) : Option Scan :=
  if scan.indent < Int.ofNat column then
    some { scan with indent := Int.ofNat column, indents := scan.indent :: scan.indents }
  else none

def openBlock (scan : Scan) (kind : Kind) : Scan :=
  match scan.deepen scan.cursor.mark.column with
  | some deeper => deeper.pushMark kind
  | none => scan

/-- The cursor behind blanks, comments and line breaks, and whether there was a line break.
`inComment` says whether the text begins inside a comment. -/
def gap (inComment crossed : Bool) (mark : Mark) : List Code → Cursor × Bool
  | [] => (⟨[], mark⟩, crossed)
  | character :: rest =>
      let next := Cursor.markAfter mark character rest
      if isLineBreak character then gap false true next rest
      else if inComment || character == '#' then gap true crossed next rest
      else if character == ' ' then gap false crossed next rest
      else (⟨character :: rest, mark⟩, crossed)

/-- Passes the gap before the next token and, at the very start, a byte order mark. Outside
brackets a key may begin on a new line. -/
def toNextToken (scan : Scan) : Scan :=
  let cursor := scan.cursor
  let cursor :=
    if cursor.mark.index == 0 && cursor.peek == byteOrderMark then cursor.next else cursor
  let (cursor, crossed) := gap false false cursor.mark cursor.rest
  { scan with cursor := cursor, keyAllowed := scan.keyAllowed || (crossed && scan.flow == 0) }

def leaveDocument (scan : Scan) : Except Failure Scan := do
  let scan ← (scan.unwind (-1)).dropCandidate
  .ok { scan with keyAllowed := false }

def streamEnd (scan : Scan) : Except Failure Scan := do
  let scan ← scan.leaveDocument
  .ok { scan.pushMark .streamEnd with candidates := [], finished := true }

def directive (scan : Scan) : Except Failure Scan := do
  let scan ← scan.leaveDocument
  let (token, cursor) ← Token.directive scan.cursor
  .ok { scan.push token with cursor := cursor }

def documentMarker (scan : Scan) (kind : Kind) : Except Failure Scan := do
  let scan ← scan.leaveDocument
  .ok (scan.pushIndicator kind 3)

def flowStart (scan : Scan) (kind : Kind) : Except Failure Scan := do
  let scan ← scan.saveCandidate
  .ok ({ scan with flow := scan.flow + 1, keyAllowed := true }.pushIndicator kind 1)

def flowEnd (scan : Scan) (kind : Kind) : Except Failure Scan := do
  let scan ← scan.dropCandidate
  .ok ({ scan with flow := scan.flow - 1, keyAllowed := false }.pushIndicator kind 1)

def flowEntry (scan : Scan) : Except Failure Scan := do
  let scan ← { scan with keyAllowed := true }.dropCandidate
  .ok (scan.pushIndicator .flowEntry 1)

def notAllowed (scan : Scan) (problem : Problem) : Failure :=
  .found none problem scan.cursor.mark

def blockEntry (scan : Scan) : Except Failure Scan := do
  let scan ←
    -- Inside brackets it is an error, which is left to the reader of events.
    if scan.flow != 0 then .ok scan
    else if scan.keyAllowed then .ok (scan.openBlock .blockSequenceStart)
    else .error (scan.notAllowed .sequenceNotAllowed)
  let scan ← { scan with keyAllowed := true }.dropCandidate
  .ok (scan.pushIndicator .blockEntry 1)

def key (scan : Scan) : Except Failure Scan := do
  let scan ←
    if scan.flow != 0 then .ok scan
    else if scan.keyAllowed then .ok (scan.openBlock .blockMappingStart)
    else .error (scan.notAllowed .keyNotAllowed)
  let scan ← { scan with keyAllowed := scan.flow == 0 }.dropCandidate
  .ok (scan.pushIndicator .key 1)

def confirmKey (scan : Scan) (candidate : Candidate) : Scan :=
  let mark := candidate.mark
  let others := scan.candidates.filter fun other => other.flow != scan.flow
  let scan := { scan with candidates := others }
  let scan := scan.insertAt candidate.number ⟨.key, mark, mark⟩
  let scan :=
    if scan.flow != 0 then scan
    else
      -- The mapping begins at its first key, so its token goes in front of the key.
      match scan.deepen mark.column with
      | some deeper => deeper.insertAt candidate.number ⟨.blockMappingStart, mark, mark⟩
      | none => scan
  -- No other key without an indicator can follow on the line.
  { scan with keyAllowed := false }

def value (scan : Scan) : Except Failure Scan := do
  let scan ←
    match scan.candidates.find? fun candidate => candidate.flow == scan.flow with
    | some candidate => .ok (scan.confirmKey candidate)
    | none => do
        let scan ←
          if scan.flow != 0 then .ok scan
          else if scan.keyAllowed then .ok (scan.openBlock .blockMappingStart)
          else .error (scan.notAllowed .valueNotAllowed)
        { scan with keyAllowed := scan.flow == 0 }.dropCandidate
  .ok (scan.pushIndicator .value 1)

def node (scan : Scan) (read : Cursor → Except Failure (Token × Cursor)) :
    Except Failure Scan := do
  let scan ← scan.saveCandidate
  let (token, cursor) ← read scan.cursor
  .ok { scan.push token with cursor := cursor, keyAllowed := false }

def blockScalar (scan : Scan) (folded : Bool) : Except Failure Scan := do
  -- The scalar ends at the start of a line, where a key may begin.
  let scan ← { scan with keyAllowed := true }.dropCandidate
  let (token, cursor) ← Token.block folded scan.indent scan.cursor
  .ok { scan.push token with cursor := cursor }

def plain (scan : Scan) : Except Failure Scan := do
  let scan ← scan.saveCandidate
  let (token, cursor, crossesLine) := Token.plain (scan.flow != 0) scan.indent scan.cursor
  .ok { scan.push token with cursor := cursor, keyAllowed := crossesLine }

def startsPlain (scan : Scan) : Bool :=
  let character := scan.cursor.peek
  !(isGapOrEnd character || ("-?:,[]\x7b\x7d#&*!|>'\"%@\x60" : Text).toList.contains character) ||
    (!isGapOrEnd (scan.cursor.peekAt 1) &&
      (character == '-' || (scan.flow == 0 && (character == '?' || character == ':'))))

def dispatch (scan : Scan) : Except Failure Scan :=
  let character := scan.cursor.peek
  let atLineStart := scan.cursor.mark.column == 0
  let beforeGap := isGapOrEnd (scan.cursor.peekAt 1)
  let inFlow := scan.flow != 0
  if character == endMark then scan.streamEnd
  else if character == '%' && atLineStart then scan.directive
  else if atLineStart && scan.cursor.atMarker '-' then scan.documentMarker .documentStart
  else if atLineStart && scan.cursor.atMarker '.' then scan.documentMarker .documentEnd
  else if character == '[' then scan.flowStart .flowSequenceStart
  else if character == '\x7b' then scan.flowStart .flowMappingStart
  else if character == ']' then scan.flowEnd .flowSequenceEnd
  else if character == '\x7d' then scan.flowEnd .flowMappingEnd
  else if character == ',' then scan.flowEntry
  -- Without a gap behind them these indicators may begin a plain scalar.
  else if character == '-' && beforeGap then scan.blockEntry
  else if character == '?' && (inFlow || beforeGap) then scan.key
  else if character == ':' && (inFlow || beforeGap) then scan.value
  else if character == '*' || character == '&' then scan.node Token.anchor
  else if character == '!' then scan.node Token.tag
  else if character == '|' && !inFlow then scan.blockScalar false
  else if character == '>' && !inFlow then scan.blockScalar true
  else if character == '\'' then scan.node (Token.quoted false)
  else if character == '"' then scan.node (Token.quoted true)
  else if scan.startsPlain then scan.plain
  else .error (.found (some (.nextToken, none)) (.noTokenStart character) scan.cursor.mark)

/-- One step: the gap, the ends of blocks, a token, and a look at which candidates are left. -/
def step (scan : Scan) : Except Failure Scan := do
  let scan ← scan.toNextToken.dropStale
  let scan := scan.unwind (Int.ofNat scan.cursor.mark.column)
  let scan ← scan.dispatch
  if scan.finished then .ok scan else scan.dropStale

/-- The tokens before the first candidate. -/
def final (scan : Scan) : List Token :=
  let first := scan.candidates.foldl (fun least candidate => min least candidate.number) scan.count
  (scan.tokens.drop (scan.count - first)).reverse

def run : Nat → Scan → List Token × Option Failure
  | 0, scan => (scan.final, none)
  | fuel + 1, scan =>
      if scan.finished then (scan.final, none)
      else
        match scan.step with
        | .ok scan => run fuel scan
        | .error failure => (scan.final, some failure)

end Scan

def ofText (text : List Code) : List Token × Option Failure :=
  Scan.run (text.length + 2) (Scan.start text)

end SecretFill.Yaml.Token
