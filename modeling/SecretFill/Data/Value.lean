import SecretFill.Data.Calendar
import SecretFill.Decimal.Reading
import SecretFill.Text.Quoted
/-!
The data of a document. Atoms are values without identity; lists, mappings, tuples, sets, dates and
moments are cells of a graph, which several places may share and which may lead back to themselves.
Keys of a mapping are compared by value. The NaN that has a word of its own is an atom; one that is
the outcome of reading a number is a cell, because it is the same as itself alone.
-/

namespace SecretFill.Data

open SecretFill.Decimal SecretFill.Text

inductive Atom
  | null
  | bool (value : Bool)
  | int (value : Int)
  | real (value : Binary64)
  | text (value : Text)
  | bytes (value : List UInt8)
  deriving DecidableEq, Repr, Inhabited

inductive Value
  | atom (atom : Atom)
  | cell (index : Nat)
  deriving DecidableEq, Repr, Inhabited

inductive Cell
  | list (items : List Value)
  | mapping (entries : List (Value × Value))
  | tuple (items : List Value)
  | set (members : List Value)
  | date (date : Date)
  | moment (moment : Moment)
  | notANumber
  /-- Something that no document can hold; `shown` is how messages call it. -/
  | foreign (shown : Text)
  deriving DecidableEq, Repr, Inhabited

structure Document where
  cells : Array Cell
  root : Value
  deriving DecidableEq, Repr

namespace Atom

/-- A truth value counts as a number. -/
def number? : Atom → Option (Int ⊕ Binary64)
  | .bool value => some (.inl (if value then 1 else 0))
  | .int value => some (.inl value)
  | .real value => some (.inr value)
  | _ => none

def sameNumber : Int ⊕ Binary64 → Int ⊕ Binary64 → Bool
  | .inl first, .inl second => first == second
  | .inr first, .inr second => first.sameValue second
  | .inl first, .inr second => second.isInteger first
  | .inr first, .inl second => first.isInteger second

def same (first second : Atom) : Bool :=
  match first.number?, second.number? with
  | some first, some second => sameNumber first second
  | none, none => first == second
  | _, _ => false

def label : Atom → Text
  | .null => "None"
  | .bool true => "True"
  | .bool false => "False"
  | .int value => Text.ofList (integerText value)
  | .real value => value.text
  | .text value => value
  | .bytes value => quotedBytes value

end Atom

namespace Cell

def isHashable : Cell → Bool
  | .list _ => false
  | .mapping _ => false
  | .set _ => false
  | _ => true

def same : Cell → Cell → Bool
  | .date early, .date late => early == late
  | .moment early, .moment late => early.same late
  | _, _ => false

def label : Cell → Text
  | .date day => day.text
  | .moment time => time.text
  | .notANumber => Binary64.nan.text
  | .foreign shown => shown
  | _ => ""

end Cell

def sameKey (cells : Array Cell) (first second : Value) : Bool :=
  match first, second with
  | .atom first, .atom second => first.same second
  | .cell first, .cell second =>
      first == second ||
        match cells[first]?, cells[second]? with
        | some first, some second => first.same second
        | _, _ => false
  | _, _ => false

/-- Sets a key. The first of several equal keys stays, with the last value. -/
def insertKey (cells : Array Cell) (key value : Value) :
    List (Value × Value) → List (Value × Value)
  | [] => [(key, value)]
  | (present, old) :: rest =>
      if sameKey cells present key then (present, value) :: rest
      else (present, old) :: insertKey cells key value rest

def keyLabel (cells : Array Cell) (key : Value) : Text :=
  match key with
  | .atom atom => atom.label
  | .cell index => (cells[index]?.map Cell.label).getD ""

/-- Whether the text of a key can be written: integers have a limit on their digits. -/
def hasLabel (key : Value) : Bool :=
  match key with
  | .atom (.int value) => writable value
  | _ => true

end SecretFill.Data
