import SecretFill.Text.Pieces
/-!
Where a file stands, as it is written: the names on the way to it, from the working directory or
from the root. Empty names and names that are a dot add nothing and are left out.
-/

namespace SecretFill

open SecretFill.Text

inductive Origin
  | here
  | root
  /-- Exactly two slashes: the root, written in the way of network shares. -/
  | share
  deriving DecidableEq, Repr

structure Location where
  origin : Origin
  names : List (List Code)
  deriving DecidableEq, Repr

def Origin.ofText : List Code → Origin
  -- Three slashes or more are as good as one.
  | '/' :: '/' :: '/' :: _ => .root
  | '/' :: '/' :: _ => .share
  | '/' :: _ => .root
  | _ => .here

def Origin.text : Origin → List Code
  | .here => []
  | .root => ['/']
  | .share => ['/', '/']

namespace Location

def ofText (text : Text) : Location :=
  ⟨Origin.ofText text.toList,
    (segments '/' text.toList).filter fun name => name ≠ [] ∧ name ≠ [Code.char '.']⟩

def characters (location : Location) : List Code :=
  match location.origin, location.names with
  | .here, [] => ['.']
  | origin, names => origin.text ++ [Code.char '/'].intercalate names

def text (location : Location) : Text := Text.ofList location.characters

end Location

end SecretFill
