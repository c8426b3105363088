import SecretFill.Decimal.Reading
import SecretFill.Text.Base64
import SecretFill.Text.Utf8
import SecretFill.Yaml.Token
/-!
Why a text is not read as documents. A `Problem` may stand in the context of something that was
being read, each at its mark; a `ScalarFault` says why the text of a scalar gives no value.
`Failure.message` is the wording, with the lines around the marks.
-/

namespace SecretFill.Yaml

open SecretFill.Decimal SecretFill.Text

inductive Stage
  | characters
  | tokens
  | events
  | nodes
  | values
  deriving DecidableEq, Repr

inductive Activity
  | nextToken
  | simpleKey
  | directive
  | directiveUri
  | alias
  | anchor
  | tag
  | tagUri
  | blockScalar
  | quotedScalar
  | doubleQuotedScalar
  | node
  | blockNode
  | flowNode
  | blockCollection
  | blockMapping
  | flowSequence
  | flowMapping
  | duplicateAnchor (name : Text)
  | mapping
  | orderedMap
  | pairs
  deriving DecidableEq, Repr

def Activity.text : Activity → Text
  | .nextToken => "while scanning for the next token"
  | .simpleKey => "while scanning a simple key"
  | .directive => "while scanning a directive"
  | .directiveUri => "while parsing a directive"
  | .alias => "while scanning an alias"
  | .anchor => "while scanning an anchor"
  | .tag => "while scanning a tag"
  | .tagUri => "while parsing a tag"
  | .blockScalar => "while scanning a block scalar"
  | .quotedScalar => "while scanning a quoted scalar"
  | .doubleQuotedScalar => "while scanning a double-quoted scalar"
  | .node => "while parsing a node"
  | .blockNode => "while parsing a block node"
  | .flowNode => "while parsing a flow node"
  | .blockCollection => "while parsing a block collection"
  | .blockMapping => "while parsing a block mapping"
  | .flowSequence => "while parsing a flow sequence"
  | .flowMapping => "while parsing a flow mapping"
  | .duplicateAnchor name => "found duplicate anchor " ++ quoted name ++ "; first occurrence"
  | .mapping => "while constructing a mapping"
  | .orderedMap => "while constructing an ordered map"
  | .pairs => "while constructing pairs"

inductive Expected
  | wordCharacter
  | digit
  | digitOrPoint
  | digitOrSpace
  | space
  | exclamation
  | closingAngle
  | uri
  | uriEscape
  | commentOrBreak
  | blockIndicators
  | hexDigits (count : Nat)
  deriving DecidableEq, Repr

def Expected.text : Expected → Text
  | .wordCharacter => "alphabetic or numeric character"
  | .digit => "a digit"
  | .digitOrPoint => "a digit or '.'"
  | .digitOrSpace => "a digit or ' '"
  | .space => "' '"
  | .exclamation => "'!'"
  | .closingAngle => "'>'"
  | .uri => "URI"
  | .uriEscape => "URI escape sequence of 2 hexadecimal numbers"
  | .commentOrBreak => "a comment or a line break"
  | .blockIndicators => "chomping or indentation indicators"
  | .hexDigits count => "escape sequence of " ++ toString count ++ " hexadecimal numbers"

inductive NodeKind
  | scalar
  | sequence
  | mapping
  deriving DecidableEq, Repr

def NodeKind.text : NodeKind → Text
  | .scalar => "scalar"
  | .sequence => "sequence"
  | .mapping => "mapping"

inductive Problem
  | expectedCharacter (expected : Expected) (found : Code)
  | noTokenStart (found : Code)
  | missingColon
  | sequenceNotAllowed
  | keyNotAllowed
  | valueNotAllowed
  | zeroIndentation
  | endOfStream
  | documentSeparator
  | unknownEscape (found : Code)
  | badUriEscape (fault : Utf8.Fault)
  | expectedDocumentStart (found : Text)
  | duplicateVersion
  | incompatibleVersion
  | duplicateHandle (handle : Text)
  | undefinedHandle (handle : Text)
  | expectedContent (found : Text)
  | expectedBlockEnd (found : Text)
  | expectedSequenceEnd (found : Text)
  | expectedMappingEnd (found : Text)
  | undefinedAlias (name : Text)
  | secondOccurrence
  | unknownTag (tag : Text)
  | expectedNode (expected found : NodeKind)
  | expectedSequence (found : NodeKind)
  | expectedMappingToMerge (found : NodeKind)
  | expectedMappingsToMerge (found : NodeKind)
  | expectedSingleMapping (found : NodeKind)
  | expectedSingleItem (count : Nat)
  | unhashableKey
  | notAscii (message : Text)
  | badBase64 (fault : Base64.Fault)
  deriving DecidableEq, Repr

def quotedCharacter (character : Code) : Text := quoted (Text.ofList [character])

def Problem.text : Problem → Text
  | .expectedCharacter expected found =>
      "expected " ++ expected.text ++ ", but found " ++ quotedCharacter found
  | .noTokenStart found =>
      "found character " ++ quotedCharacter found ++ " that cannot start any token"
  | .missingColon => "could not find expected ':'"
  | .sequenceNotAllowed => "sequence entries are not allowed here"
  | .keyNotAllowed => "mapping keys are not allowed here"
  | .valueNotAllowed => "mapping values are not allowed here"
  | .zeroIndentation =>
      "expected indentation indicator in the range 1-9, but found 0"
  | .endOfStream => "found unexpected end of stream"
  | .documentSeparator => "found unexpected document separator"
  | .unknownEscape found => "found unknown escape character " ++ quotedCharacter found
  | .badUriEscape fault => fault.message
  | .expectedDocumentStart found =>
      "expected '<document start>', but found " ++ quoted found
  | .duplicateVersion => "found duplicate YAML directive"
  | .incompatibleVersion => "found incompatible YAML document (version 1.* is required)"
  | .duplicateHandle handle => "duplicate tag handle " ++ quoted handle
  | .undefinedHandle handle => "found undefined tag handle " ++ quoted handle
  | .expectedContent found => "expected the node content, but found " ++ quoted found
  | .expectedBlockEnd found => "expected <block end>, but found " ++ quoted found
  | .expectedSequenceEnd found => "expected ',' or ']', but got " ++ quoted found
  | .expectedMappingEnd found => "expected ',' or '\x7d', but got " ++ quoted found
  | .undefinedAlias name => "found undefined alias " ++ quoted name
  | .secondOccurrence => "second occurrence"
  | .unknownTag tag => "could not determine a constructor for the tag " ++ quoted tag
  | .expectedNode expected found =>
      "expected a " ++ expected.text ++ " node, but found " ++ found.text
  | .expectedSequence found => "expected a sequence, but found " ++ found.text
  | .expectedMappingToMerge found => "expected a mapping for merging, but found " ++ found.text
  | .expectedMappingsToMerge found =>
      "expected a mapping or list of mappings for merging, but found " ++ found.text
  | .expectedSingleMapping found =>
      "expected a mapping of length 1, but found " ++ found.text
  | .expectedSingleItem count =>
      "expected a single mapping item, but found " ++ toString count ++ " items"
  | .unhashableKey => "found unhashable key"
  | .notAscii message => "failed to convert base64 data into ascii: " ++ message
  | .badBase64 fault => "failed to decode base64 data: " ++ fault.message

def Problem.stage : Problem → Stage
  | .expectedCharacter _ _ | .noTokenStart _ | .missingColon | .sequenceNotAllowed
  | .keyNotAllowed | .valueNotAllowed | .zeroIndentation | .endOfStream | .documentSeparator
  | .unknownEscape _ | .badUriEscape _ => .tokens
  | .expectedDocumentStart _ | .duplicateVersion | .incompatibleVersion | .duplicateHandle _
  | .undefinedHandle _ | .expectedContent _ | .expectedBlockEnd _ | .expectedSequenceEnd _
  | .expectedMappingEnd _ => .events
  | .undefinedAlias _ | .secondOccurrence => .nodes
  | .unknownTag _ | .expectedNode _ _ | .expectedSequence _ | .expectedMappingToMerge _
  | .expectedMappingsToMerge _ | .expectedSingleMapping _ | .expectedSingleItem _
  | .unhashableKey | .notAscii _ | .badBase64 _ => .values

inductive ScalarFault
  | number (fault : NumberFault)
  /-- A number without any character. -/
  | emptyNumber
  | notBool (text : Text)
  /-- An integer that no floating-point number can hold. -/
  | integerTooLarge
  | notTimestamp
  /-- A timestamp that is no scalar. -/
  | timestampNotText
  | year (value : Nat)
  | month
  | day
  | hour
  | minute
  | second
  /-- A time zone a day or more away, in minutes. -/
  | offset (minutes : Int)
  /-- An escape for a number that is no code point. -/
  | codePoint (code : Nat)
  deriving DecidableEq, Repr

/-- The length of a time zone offset in days and seconds; the seconds are never negative. -/
def spanText (minutes : Int) : Text :=
  let days := minutes.fdiv 1440
  let seconds := minutes.fmod 1440 * 60
  let part (name : Text) (size : Int) : List Text :=
    if size = 0 then [] else [name ++ toString size]
  let parts := part "days=" days ++ part "seconds=" seconds
  "datetime.timedelta(" ++ (if parts.isEmpty then ("0" : Text) else Text.intercalate ", " parts) ++ ")"

def ScalarFault.message : ScalarFault → Text
  | .number fault => fault.message
  | .emptyNumber => "string index out of range"
  | .notBool text => quoted text
  | .integerTooLarge => "int too large to convert to float"
  | .notTimestamp => "'NoneType' object has no attribute 'groupdict'"
  | .timestampNotText => "expected string or bytes-like object, got 'list'"
  | .year value => "year " ++ toString value ++ " is out of range"
  | .month => "month must be in 1..12"
  | .day => "day is out of range for month"
  | .hour => "hour must be in 0..23"
  | .minute => "minute must be in 0..59"
  | .second => "second must be in 0..59"
  | .offset minutes =>
      "offset must be a timedelta strictly between -timedelta(hours=24) and " ++
        "timedelta(hours=24), not " ++ spanText minutes ++ "."
  | .codePoint code =>
      if code < 0x80000000 then "chr() arg not in range(0x110000)"
      else "Python int too large to convert to C int"

inductive Failure
  | unacceptable (character : Code) (position : Nat)
  | found (context : Option (Activity × Option Mark)) (problem : Problem) (mark : Mark)
  | scalar (fault : ScalarFault)
  | tooDeep
  deriving DecidableEq, Repr

namespace Failure

def within (activity : Activity) (start : Mark) (problem : Problem) (mark : Mark) : Failure :=
  .found (some (activity, some start)) problem mark

def message (source : List Code) : Failure → Text
  | .unacceptable character position =>
      "unacceptable character #x" ++ Text.ofList (hexDigits 4 character.toNat) ++
        ": special characters are not allowed\n  in \"<unicode string>\", position " ++
        toString position
  | .found context problem mark =>
      let heading : List Text :=
        match context with
        | none => []
        | some (activity, none) => [activity.text]
        | some (activity, some start) =>
            if start.line = mark.line ∧ start.column = mark.column then [activity.text]
            else [activity.text, start.describe source]
      Text.intercalate "\n" (heading ++ [problem.text, mark.describe source])
  | .scalar fault => fault.message
  | .tooDeep => "document nesting is too deep"

end Failure

end SecretFill.Yaml
