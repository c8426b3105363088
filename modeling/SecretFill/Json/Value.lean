import SecretFill.Decimal.Notation
import SecretFill.Text.Quoted
/-!
Values of JSON. An object keeps the order in which its keys first appeared. `display` is the text
of a value inside a message: a text stands for itself, and everything else is written with quoted
texts, brackets and capitalised literals.
-/

namespace SecretFill.Json

open SecretFill.Decimal SecretFill.Text

inductive Value
  | null
  | bool (value : Bool)
  | int (value : Int)
  | real (value : Binary64)
  | text (value : Text)
  | array (items : List Value)
  | object (members : List (Text × Value))
  deriving Repr, Inhabited

namespace Value

/-- Sets a key. A key that is present keeps its place and takes the new value. -/
def insert (key : Text) (value : Value) : List (Text × Value) → List (Text × Value)
  | [] => [(key, value)]
  | (present, old) :: rest =>
      if present = key then (present, value) :: rest else (present, old) :: insert key value rest

def get? (key : Text) (members : List (Text × Value)) : Option Value :=
  (members.find? fun member => member.1 == key).map Prod.snd

mutual

def inner : Value → Text
  | .null => "None"
  | .bool true => "True"
  | .bool false => "False"
  | .int value => Text.ofList (integerText value)
  | .real value => value.text
  | .text value => quoted value
  | .array items => "[" ++ Text.intercalate ", " (innerItems items) ++ "]"
  | .object members => "\x7b" ++ Text.intercalate ", " (innerMembers members) ++ "\x7d"

def innerItems : List Value → List Text
  | [] => []
  | item :: rest => inner item :: innerItems rest

def innerMembers : List (Text × Value) → List Text
  | [] => []
  | (key, value) :: rest => (quoted key ++ ": " ++ inner value) :: innerMembers rest

end

def display : Value → Text
  | .text value => value
  | value => inner value

end Value

end SecretFill.Json
