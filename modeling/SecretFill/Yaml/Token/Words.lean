import SecretFill.Yaml.Failure
/-!
Words of the syntax: directives, anchors, aliases and tags. Each reader starts at its indicator
and gives the token and the cursor after it.
-/

namespace SecretFill.Yaml.Token

open SecretFill.Decimal SecretFill.Text

def unexpected (activity : Activity) (start : Mark) (expected : Expected) (cursor : Cursor) :
    Failure :=
  Failure.within activity start (.expectedCharacter expected cursor.peek) cursor.mark

def skipSpaces (cursor : Cursor) : Cursor := cursor.skipWhile (· == ' ')

def skipComment (cursor : Cursor) : Cursor :=
  if cursor.peek == '#' then cursor.skipWhile fun character => !isBreakOrEnd character else cursor

/-- A word of letters, digits, hyphens and underscores, which must end in one of `ends`. -/
def word (activity : Activity) (start : Mark) (ends : Code → Bool) (cursor : Cursor) :
    Except Failure (Text × Cursor) :=
  let (name, rest) := cursor.takeRun isWordCharacter
  if name.isEmpty then .error (unexpected activity start .wordCharacter cursor)
  else if ends rest.peek then .ok (Text.ofList name, rest)
  else .error (unexpected activity start .wordCharacter rest)

def endOfHeader (activity : Activity) (start : Mark) (cursor : Cursor) : Except Failure Cursor :=
  let cursor := skipComment (skipSpaces cursor)
  if isBreakOrEnd cursor.peek then .ok cursor.lineBreak.2
  else .error (unexpected activity start .commentOrBreak cursor)

def versionNumber (start : Mark) (cursor : Cursor) : Except Failure (Nat × Cursor) :=
  let (digits, rest) := cursor.takeRun Code.isDigit
  if digits.isEmpty then .error (unexpected .directive start .digit cursor)
  else if maxDigits < digits.length then
    .error (.scalar (.number (.tooManyDigitsRead digits.length)))
  else .ok (ofDigits 10 digits, rest)

def versionDirective (start : Mark) (cursor : Cursor) : Except Failure (Directive × Cursor) := do
  let (major, cursor) ← versionNumber start (skipSpaces cursor)
  if cursor.peek != '.' then .error (unexpected .directive start .digitOrPoint cursor)
  else
    let (minor, cursor) ← versionNumber start cursor.next
    if isSpaceOrEnd cursor.peek then .ok (.version major minor, cursor)
    else .error (unexpected .directive start .digitOrSpace cursor)

/-- A handle between exclamation marks; a lone mark followed by a space is a handle too. -/
def tagHandle (activity : Activity) (start : Mark) (cursor : Cursor) :
    Except Failure (Text × Cursor) :=
  if cursor.peek != '!' then .error (unexpected activity start .exclamation cursor)
  else if cursor.peekAt 1 == ' ' then .ok ("!", cursor.next)
  else
    let (name, rest) := cursor.next.takeRun isWordCharacter
    if rest.peek == '!' then .ok (Text.ofList (Code.char '!' :: name ++ [Code.char '!']), rest.next)
    else .error (unexpected activity start .exclamation rest)

def uriBytes (activity : Activity) (start : Mark) : List Code → Cursor →
    Except Failure (List UInt8 × Cursor)
  | [], cursor => .ok ([], cursor)
  | _ :: bound, cursor =>
      if cursor.peek != '%' then .ok ([], cursor)
      else
        let digits := cursor.next
        let first := digits.peek
        let second := digits.peekAt 1
        let expected (found : Code) : Failure :=
          Failure.within activity start (.expectedCharacter .uriEscape found) digits.mark
        if !isHexDigit first then .error (expected first)
        else if !isHexDigit second then .error (expected second)
        else do
          let (bytes, cursor) ← uriBytes activity start bound (digits.advance 2)
          .ok ((ofDigits 16 [first, second]).toUInt8 :: bytes, cursor)

def uriEscapes (activity : Activity) (start : Mark) (cursor : Cursor) :
    Except Failure (List Code × Cursor) := do
  let (bytes, rest) ← uriBytes activity start cursor.rest cursor
  match Utf8.decode bytes with
  | .ok text => .ok (text, rest)
  | .error fault => .error (Failure.within activity start (.badUriEscape fault) cursor.mark)

def uriCharacters (activity : Activity) (start : Mark) : List Code → Cursor →
    Except Failure (List Code × Cursor)
  | [], cursor => .ok ([], cursor)
  | _ :: bound, cursor =>
      if cursor.peek == '%' then do
        let (escaped, cursor) ← uriEscapes activity start cursor
        let (rest, cursor) ← uriCharacters activity start bound cursor
        .ok (escaped ++ rest, cursor)
      else if isUriCharacter cursor.peek then do
        let (rest, cursor') ← uriCharacters activity start bound cursor.next
        .ok (cursor.peek :: rest, cursor')
      else .ok ([], cursor)

def tagUri (reading escaping : Activity) (start : Mark) (cursor : Cursor) :
    Except Failure (Text × Cursor) := do
  let (text, rest) ← uriCharacters escaping start (endMark :: cursor.rest) cursor
  if rest.mark.index = cursor.mark.index then .error (unexpected reading start .uri rest)
  else .ok (Text.ofList text, rest)

def tagDirective (start : Mark) (cursor : Cursor) : Except Failure (Directive × Cursor) := do
  let (handle, cursor) ← tagHandle .directive start (skipSpaces cursor)
  if cursor.peek != ' ' then .error (unexpected .directive start .space cursor)
  else
    let (uri, cursor) ← tagUri .directiveUri .directive start (skipSpaces cursor)
    if isSpaceOrEnd cursor.peek then .ok (.tag handle uri, cursor)
    else .error (unexpected .directive start .space cursor)

def directive (cursor : Cursor) : Except Failure (Token × Cursor) := do
  let start := cursor.mark
  let (name, cursor) ← word .directive start isSpaceOrEnd cursor.next
  let (value, cursor) ←
    if name = "YAML" then versionDirective start cursor
    else if name = "TAG" then tagDirective start cursor
    else .ok (.other name, cursor)
  let stop := cursor.mark
  -- Whatever an unknown directive says is passed over.
  let skipped :=
    match value with
    | .other _ => cursor.skipWhile fun character => !isBreakOrEnd character
    | _ => cursor
  let cursor ← endOfHeader .directive start skipped
  .ok (⟨.directive value, start, stop⟩, cursor)

def endsAnchor (character : Code) : Bool :=
  isGapOrEnd character || ("?:,]%@\x7d\x60" : Text).toList.contains character

def anchor (cursor : Cursor) : Except Failure (Token × Cursor) := do
  let start := cursor.mark
  let isAlias := cursor.peek == '*'
  let (name, rest) ← word (if isAlias then .alias else .anchor) start endsAnchor cursor.next
  .ok (⟨if isAlias then .alias name else .anchor name, start, rest.mark⟩, rest)

/-- Whether another exclamation mark follows in the same word, so that the tag has a handle. -/
def hasHandle (cursor : Cursor) : Bool :=
  ((cursor.next.run fun character => !isSpaceOrEnd character).contains '!')

def tag (cursor : Cursor) : Except Failure (Token × Cursor) := do
  let start := cursor.mark
  let following := cursor.peekAt 1
  let ((handle, suffix), rest) ←
    -- In angle brackets a tag is written in full.
    if following == '<' then do
      let (uri, rest) ← tagUri .tagUri .tag start (cursor.advance 2)
      if rest.peek != '>' then .error (unexpected .tagUri start .closingAngle rest)
      else .ok ((none, uri), rest.next)
    else if isGapOrEnd following then .ok ((none, "!"), cursor.next)
    else do
      let (handle, rest) ←
        if hasHandle cursor then tagHandle .tag start cursor else .ok ("!", cursor.next)
      let (suffix, rest) ← tagUri .tagUri .tag start rest
      .ok ((some handle, suffix), rest)
  if isSpaceOrEnd rest.peek then .ok (⟨.tag handle suffix, start, rest.mark⟩, rest)
  else .error (unexpected .tag start .space rest)

end SecretFill.Yaml.Token
