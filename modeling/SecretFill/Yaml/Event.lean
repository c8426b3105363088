import SecretFill.Yaml.Token.Stream
/-!
Events of a document stream: the tokens with their nesting made explicit, tags in full, and a
scalar wherever a node is left out. `ofTokens` reads one event at a time with a stack of what is
to follow, and gives the events before the first failure, which may be that the tokens ended
early.
-/

namespace SecretFill.Yaml

/-- Anchor and tag of a node. A tag that is missing, or a lone exclamation mark, leaves the tag to
be found from the content. -/
structure Properties where
  anchor : Option Text
  tag : Option Text
  deriving DecidableEq, Repr

namespace Event

inductive Kind
  | streamStart
  | streamEnd
  | documentStart
  | documentEnd
  | alias (name : Text)
  /-- `open` scalars may be of any kind that their text has the form of. -/
  | scalar (properties : Properties) (text : Text) ( isOpen : Bool)
  | sequenceStart (properties : Properties)
  | sequenceEnd
  | mappingStart (properties : Properties)
  | mappingEnd
  deriving DecidableEq, Repr

end Event

structure Event where
  kind : Event.Kind
  mark : Mark
  deriving DecidableEq, Repr

namespace Event

inductive Goal
  | streamStart
  | firstDocument
  | document
  | documentContent
  | documentEnd
  | blockNode
  | blockSequence
  | indentlessSequence
  | blockKey
  | blockValue
  | flowSequence (first : Bool)
  | pairKey
  | pairValue
  | pairEnd
  | flowKey (first : Bool)
  | flowValue
  | flowEmptyValue
  | nothing
  deriving DecidableEq, Repr

structure Reader where
  tokens : List Token
  /-- Why there are no more tokens. -/
  failure : Option Failure
  goal : Goal
  /-- What follows the node that is being read, innermost first. -/
  stack : List Goal
  /-- Where the open collections began, innermost first. -/
  starts : List Mark
  handles : List (Text × Text)

def standardHandles : List (Text × Text) := [("!", "!"), ("!!", "tag:yaml.org,2002:")]

def noProperties : Properties := ⟨none, none⟩

namespace Reader

def peek (reader : Reader) : Except Failure Token :=
  match reader.tokens with
  | token :: _ => .ok token
  | [] => .error (reader.failure.getD (.found none .endOfStream ⟨0, 0, 0⟩))

def skip (reader : Reader) : Reader := { reader with tokens := reader.tokens.tail }

def goTo (reader : Reader) (goal : Goal) : Reader := { reader with goal := goal }

def leave (reader : Reader) : Reader :=
  match reader.stack with
  | goal :: stack => { reader with goal := goal, stack := stack }
  | [] => { reader with goal := .nothing }

def close (reader : Reader) : Reader := { reader.leave with starts := reader.starts.tail }

def thenGo (reader : Reader) (goal : Goal) : Reader := { reader with stack := goal :: reader.stack }

def enter (reader : Reader) (start : Mark) : Reader :=
  { reader with starts := start :: reader.starts }

def innermost (reader : Reader) : Mark := reader.starts.headD ⟨0, 0, 0⟩

def emptyScalar (mark : Mark) (reader : Reader) : Event × Reader :=
  (⟨.scalar noProperties "" true, mark⟩, reader)

end Reader

/-- Reads the directives before a document; there are no more of them than tokens. -/
def directives (reader : Reader) : List Token → Option (Nat × Nat) → List (Text × Text) →
    Except Failure (Reader × List (Text × Text))
  | [], _, handles => .ok (reader, handles)
  | _ :: bound, version, handles => do
      let token ← reader.peek
      match token.kind with
      | .directive (.version major minor) =>
          if version.isSome then .error (.found none .duplicateVersion token.start)
          else if major ≠ 1 then .error (.found none .incompatibleVersion token.start)
          else directives reader.skip bound (some (major, minor)) handles
      | .directive (.tag handle start) =>
          if (handles.lookup handle).isSome then
            .error (.found none (.duplicateHandle handle) token.start)
          else directives reader.skip bound version (handles ++ [(handle, start)])
      | .directive (.other _) => directives reader.skip bound version handles
      | _ => .ok (reader, handles)

def withStandardHandles (handles : List (Text × Text)) : List (Text × Text) :=
  handles ++ standardHandles.filter fun entry => (handles.lookup entry.1).isNone

def skipEnds (reader : Reader) : List Token → Except Failure Reader
  | [] => .ok reader
  | _ :: bound => do
      let token ← reader.peek
      if token.kind = .documentEnd then skipEnds reader.skip bound else .ok reader

def explicitDocument (reader : Reader) : Except Failure (Event × Reader) := do
  let reader ← skipEnds reader reader.tokens
  let token ← reader.peek
  if token.kind = .streamEnd then .ok (⟨.streamEnd, token.start⟩, reader.skip.goTo .nothing)
  else
    let (reader, handles) ← directives reader reader.tokens none []
    let marker ← reader.peek
    if marker.kind ≠ .documentStart then
      .error (.found none (.expectedDocumentStart marker.kind.sign) marker.start)
    else
      let reader := { reader.skip with handles := withStandardHandles handles }
      .ok (⟨.documentStart, token.start⟩, (reader.thenGo .documentEnd).goTo .documentContent)

def firstDocument (reader : Reader) : Except Failure (Event × Reader) := do
  let token ← reader.peek
  match token.kind with
  | .directive _ | .documentStart | .streamEnd => explicitDocument reader
  -- The first document may do without a marker.
  | _ =>
      let reader := { reader with handles := standardHandles }
      .ok (⟨.documentStart, token.start⟩, (reader.thenGo .documentEnd).goTo .blockNode)

def documentEnd (reader : Reader) : Except Failure (Event × Reader) := do
  let token ← reader.peek
  let reader := if token.kind = .documentEnd then reader.skip else reader
  .ok (⟨.documentEnd, token.start⟩, reader.goTo .document)

structure Written where
  anchor : Option Text
  tag : Option (Option Text × Text)
  start : Option Mark
  tagMark : Mark

def readProperties (reader : Reader) : Except Failure (Written × Reader) := do
  let token ← reader.peek
  match token.kind with
  | .anchor name => do
      let reader := reader.skip
      let next ← reader.peek
      match next.kind with
      | .tag handle suffix =>
          .ok (⟨some name, some (handle, suffix), some token.start, next.start⟩, reader.skip)
      | _ => .ok (⟨some name, none, some token.start, token.start⟩, reader)
  | .tag handle suffix => do
      let reader := reader.skip
      let next ← reader.peek
      match next.kind with
      | .anchor name =>
          .ok (⟨some name, some (handle, suffix), some token.start, token.start⟩, reader.skip)
      | _ => .ok (⟨none, some (handle, suffix), some token.start, token.start⟩, reader)
  | _ => .ok (⟨none, none, none, token.start⟩, reader)

def fullTag (reader : Reader) (written : Written) : Except Failure (Option Text) :=
  match written.tag with
  | none => .ok none
  | some (none, suffix) => .ok (some suffix)
  | some (some handle, suffix) =>
      match reader.handles.lookup handle with
      | some start => .ok (some (start ++ suffix))
      | none =>
          .error (.within .node (written.start.getD written.tagMark) (.undefinedHandle handle)
            written.tagMark)

def content (block indentless : Bool) (reader : Reader) : Except Failure (Event × Reader) := do
  let (written, reader) ← readProperties reader
  let tag ← fullTag reader written
  let token ← reader.peek
  let start := written.start.getD token.start
  let properties : Properties := ⟨written.anchor, tag⟩
  let nested (goal : Goal) (kind : Kind) : Except Failure (Event × Reader) :=
    .ok (⟨kind, start⟩, (reader.skip.enter token.start).goTo goal)
  -- An anchor or a tag alone stands for an empty scalar.
  let missing : Except Failure (Event × Reader) :=
    if written.anchor.isSome || tag.isSome then
      .ok (⟨.scalar properties "" (tag.isNone || tag == some "!"), start⟩, reader.leave)
    else
      .error (.within (if block then .blockNode else .flowNode) start
        (.expectedContent token.kind.sign) token.start)
  match token.kind with
  | .blockEntry =>
      -- The entry token is left for the sequence to read.
      if indentless then .ok (⟨.sequenceStart properties, start⟩, reader.goTo .indentlessSequence)
      else missing
  | .scalar text style =>
      let isOpen := (style = .plain && tag.isNone) || tag == some "!"
      .ok (⟨.scalar properties text isOpen, start⟩, reader.skip.leave)
  | .flowSequenceStart => nested (.flowSequence true) (.sequenceStart properties)
  | .flowMappingStart => nested (.flowKey true) (.mappingStart properties)
  | .blockSequenceStart =>
      if block then nested .blockSequence (.sequenceStart properties) else missing
  | .blockMappingStart =>
      if block then nested .blockKey (.mappingStart properties) else missing
  | _ => missing

def node (block indentless : Bool) (reader : Reader) : Except Failure (Event × Reader) := do
  let token ← reader.peek
  match token.kind with
  | .alias name => .ok (⟨.alias name, token.start⟩, reader.skip.leave)
  | _ => content block indentless reader

def documentContent (reader : Reader) : Except Failure (Event × Reader) := do
  let token ← reader.peek
  match token.kind with
  | .directive _ | .documentStart | .documentEnd | .streamEnd =>
      .ok (reader.leave.emptyScalar token.start)
  | _ => node true false reader

def blockSequence (reader : Reader) : Except Failure (Event × Reader) := do
  let token ← reader.peek
  match token.kind with
  | .blockEntry => do
      let reader := reader.skip
      let next ← reader.peek
      match next.kind with
      | .blockEntry | .blockEnd => .ok ((reader.goTo .blockSequence).emptyScalar token.stop)
      | _ => node true false (reader.thenGo .blockSequence)
  | .blockEnd => .ok (⟨.sequenceEnd, token.start⟩, reader.skip.close)
  | kind =>
      .error (.within .blockCollection reader.innermost (.expectedBlockEnd kind.sign) token.start)

def indentlessSequence (reader : Reader) : Except Failure (Event × Reader) := do
  let token ← reader.peek
  match token.kind with
  | .blockEntry => do
      let reader := reader.skip
      let next ← reader.peek
      match next.kind with
      | .blockEntry | .key | .value | .blockEnd =>
          .ok ((reader.goTo .indentlessSequence).emptyScalar token.stop)
      | _ => node true false (reader.thenGo .indentlessSequence)
  -- No token ends such a list, and it has no start of its own.
  | _ => .ok (⟨.sequenceEnd, token.start⟩, reader.leave)

def blockKey (reader : Reader) : Except Failure (Event × Reader) := do
  let token ← reader.peek
  match token.kind with
  | .key => do
      let reader := reader.skip
      let next ← reader.peek
      match next.kind with
      | .key | .value | .blockEnd => .ok ((reader.goTo .blockValue).emptyScalar token.stop)
      | _ => node true true (reader.thenGo .blockValue)
  | .blockEnd => .ok (⟨.mappingEnd, token.start⟩, reader.skip.close)
  | kind =>
      .error (.within .blockMapping reader.innermost (.expectedBlockEnd kind.sign) token.start)

def blockValue (reader : Reader) : Except Failure (Event × Reader) := do
  let token ← reader.peek
  match token.kind with
  | .value => do
      let reader := reader.skip
      let next ← reader.peek
      match next.kind with
      | .key | .value | .blockEnd => .ok ((reader.goTo .blockKey).emptyScalar token.stop)
      | _ => node true true (reader.thenGo .blockKey)
  | _ => .ok ((reader.goTo .blockKey).emptyScalar token.start)

def flowComma (activity : Activity) (problem : Text → Problem) (first : Bool)
    (reader : Reader) : Except Failure Reader := do
  if first then .ok reader
  else
    let token ← reader.peek
    if token.kind = .flowEntry then .ok reader.skip
    else .error (.within activity reader.innermost (problem token.kind.sign) token.start)

def flowSequence (first : Bool) (reader : Reader) : Except Failure (Event × Reader) := do
  let token ← reader.peek
  if token.kind = .flowSequenceEnd then .ok (⟨.sequenceEnd, token.start⟩, reader.skip.close)
  else
    let reader ← flowComma .flowSequence .expectedSequenceEnd first reader
    let token ← reader.peek
    match token.kind with
    -- A pair in a list is a mapping of one entry; its key token is read next.
    | .key => .ok (⟨.mappingStart noProperties, token.start⟩, reader.goTo .pairKey)
    | .flowSequenceEnd => .ok (⟨.sequenceEnd, token.start⟩, reader.skip.close)
    | _ => node false false (reader.thenGo (.flowSequence false))

def pairKey (reader : Reader) : Except Failure (Event × Reader) := do
  let token ← reader.peek
  let reader := reader.skip
  let next ← reader.peek
  match next.kind with
  | .value | .flowEntry | .flowSequenceEnd =>
      .ok ((reader.goTo .pairValue).emptyScalar token.stop)
  | _ => node false false (reader.thenGo .pairValue)

def pairValue (reader : Reader) : Except Failure (Event × Reader) := do
  let token ← reader.peek
  match token.kind with
  | .value => do
      let reader := reader.skip
      let next ← reader.peek
      match next.kind with
      | .flowEntry | .flowSequenceEnd => .ok ((reader.goTo .pairEnd).emptyScalar token.stop)
      | _ => node false false (reader.thenGo .pairEnd)
  | _ => .ok ((reader.goTo .pairEnd).emptyScalar token.start)

def pairEnd (reader : Reader) : Except Failure (Event × Reader) := do
  let token ← reader.peek
  .ok (⟨.mappingEnd, token.start⟩, reader.goTo (.flowSequence false))

def flowKey (first : Bool) (reader : Reader) : Except Failure (Event × Reader) := do
  let token ← reader.peek
  if token.kind = .flowMappingEnd then .ok (⟨.mappingEnd, token.start⟩, reader.skip.close)
  else
    let reader ← flowComma .flowMapping .expectedMappingEnd first reader
    let token ← reader.peek
    match token.kind with
    | .key => do
        let reader := reader.skip
        let next ← reader.peek
        match next.kind with
        | .value | .flowEntry | .flowMappingEnd =>
            .ok ((reader.goTo .flowValue).emptyScalar token.stop)
        | _ => node false false (reader.thenGo .flowValue)
    | .flowMappingEnd => .ok (⟨.mappingEnd, token.start⟩, reader.skip.close)
    | _ => node false false (reader.thenGo .flowEmptyValue)

def flowValue (reader : Reader) : Except Failure (Event × Reader) := do
  let token ← reader.peek
  match token.kind with
  | .value => do
      let reader := reader.skip
      let next ← reader.peek
      match next.kind with
      | .flowEntry | .flowMappingEnd =>
          .ok ((reader.goTo (.flowKey false)).emptyScalar token.stop)
      | _ => node false false (reader.thenGo (.flowKey false))
  | _ => .ok ((reader.goTo (.flowKey false)).emptyScalar token.start)

def flowEmptyValue (reader : Reader) : Except Failure (Event × Reader) := do
  let token ← reader.peek
  .ok ((reader.goTo (.flowKey false)).emptyScalar token.start)

def streamStart (reader : Reader) : Except Failure (Event × Reader) := do
  let token ← reader.peek
  .ok (⟨.streamStart, token.start⟩, reader.skip.goTo .firstDocument)

def next? (reader : Reader) : Except Failure (Option (Event × Reader)) :=
  let given (result : Except Failure (Event × Reader)) := result.map some
  match reader.goal with
  | .streamStart => given (streamStart reader)
  | .firstDocument => given (firstDocument reader)
  | .document => given (explicitDocument reader)
  | .documentContent => given (documentContent reader)
  | .documentEnd => given (documentEnd reader)
  | .blockNode => given (node true false reader)
  | .blockSequence => given (blockSequence reader)
  | .indentlessSequence => given (indentlessSequence reader)
  | .blockKey => given (blockKey reader)
  | .blockValue => given (blockValue reader)
  | .flowSequence first => given (flowSequence first reader)
  | .pairKey => given (pairKey reader)
  | .pairValue => given (pairValue reader)
  | .pairEnd => given (pairEnd reader)
  | .flowKey first => given (flowKey first reader)
  | .flowValue => given (flowValue reader)
  | .flowEmptyValue => given (flowEmptyValue reader)
  | .nothing => .ok none

def readAll : Nat → Reader → List Event × Option Failure
  | 0, _ => ([], none)
  | fuel + 1, reader =>
      match next? reader with
      | .error failure => ([], some failure)
      | .ok none => ([], none)
      | .ok (some (event, reader)) =>
          let (events, failure) := readAll fuel reader
          (event :: events, failure)

/-- The events of some tokens. No token gives rise to more than four events. -/
def ofTokens (tokens : List Token) (failure : Option Failure) : List Event × Option Failure :=
  readAll (4 * tokens.length + 4) ⟨tokens, failure, .streamStart, [], [], []⟩

def ofText (text : List Code) : List Event × Option Failure :=
  match Token.ofText text with
  | (tokens, failure) => ofTokens tokens failure

end Event

end SecretFill.Yaml
