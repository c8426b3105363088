import SecretFill.Text.Blank
import SecretFill.Text.Pieces
/-!
Secret references. A specification holds entries `locator:OUTPUT`, separated by line breaks or
commas; the output key follows the last colon, so a locator may hold colons itself. The first
entry that breaks a rule, or repeats the key of an earlier one, rejects the whole specification.
-/

namespace SecretFill

open SecretFill.Text

structure Reference where
  locator : Text
  output : Text
  deriving DecidableEq, Repr

inductive ReferenceError
  | missingOutput (entry : Text)
  | emptyOutput (entry : Text)
  | emptyLocator (entry : Text)
  | invalidOutput (entry output : Text)
  | duplicateOutput (entry output : Text)
  /-- A locator begins like a full resource name and is none. -/
  | notFullName (entry : Text)
  /-- A locator has neither the full nor the short form of a resource name. -/
  | notShortName (entry : Text)
  deriving DecidableEq, Repr

namespace ReferenceError

def entry : ReferenceError → Text
  | .missingOutput entry => entry
  | .emptyOutput entry => entry
  | .emptyLocator entry => entry
  | .invalidOutput entry _ => entry
  | .duplicateOutput entry _ => entry
  | .notFullName entry => entry
  | .notShortName entry => entry

def reason : ReferenceError → Text
  | .missingOutput _ => "missing ':<OUTPUT_KEY>' suffix"
  | .emptyOutput _ => "output key is empty"
  | .emptyLocator _ => "locator is empty"
  | .invalidOutput _ _ => "keys must match [A-Za-z_][A-Za-z0-9_]*"
  | .duplicateOutput _ output =>
      "output key '" ++ output ++ "' is already used by an earlier entry"
  | .notFullName _ => "expected projects/<project>/secrets/<secret>[/versions/<version>]"
  | .notShortName _ => "expected <project>/<secret>[/<version>] or a full resource name"

def message (error : ReferenceError) : Text :=
  match error with
  | .invalidOutput entry output =>
      "Invalid output key '" ++ output ++ "' in secret reference '" ++ entry ++ "': " ++
        error.reason
  | _ => "Malformed secret reference '" ++ error.entry ++ "': " ++ error.reason

end ReferenceError

def isKeyStart (character : Code) : Bool := character.isAlpha || character == '_'

def isKeyCharacter (character : Code) : Bool := character.isAlphanum || character == '_'

/-- Keys that can be written as a placeholder: a letter or underscore, then letters, digits and
underscores, all ASCII. -/
def isKey : List Code → Bool
  | [] => false
  | first :: rest => isKeyStart first && rest.all isKeyCharacter

namespace Reference

def ofTrimmed (entry : List Code) : Except ReferenceError Reference :=
  let text := Text.ofList entry
  match cutLast ':' entry with
  | none => .error (.missingOutput text)
  | some (before, after) =>
      let locator := trim before
      let output := trim after
      -- An entry that breaks several rules is rejected for the first of these.
      if output.isEmpty then .error (.emptyOutput text)
      else if locator.isEmpty then .error (.emptyLocator text)
      else if isKey output then .ok ⟨Text.ofList locator, Text.ofList output⟩
      else .error (.invalidOutput text (Text.ofList output))

def parse (entry : Text) : Except ReferenceError Reference := ofTrimmed (trim entry.toList)

def text (reference : Reference) : Text := reference.locator ++ ":" ++ reference.output

end Reference

namespace Specification

def separates (character : Code) : Bool := isBreak character || character == ','

def entries (raw : List Code) : List (List Code) :=
  ((pieces separates raw).map trim).filter fun entry => !entry.isEmpty

/-- Reads entries in order. `seen` are the output keys of the entries before them. -/
def readEntries (seen : List Text) : List (List Code) → Except ReferenceError (List Reference)
  | [] => .ok []
  | entry :: rest =>
      match Reference.ofTrimmed entry with
      | .error error => .error error
      | .ok reference =>
          if reference.output ∈ seen then
            .error (.duplicateOutput (Text.ofList entry) reference.output)
          else
            match readEntries (reference.output :: seen) rest with
            | .error error => .error error
            | .ok references => .ok (reference :: references)

def parse (raw : Text) : Except ReferenceError (List Reference) :=
  readEntries [] (entries raw.toList)

end Specification

end SecretFill
