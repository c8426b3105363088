import SecretFill.Data.Stream
import SecretFill.Text.Base64
import SecretFill.Yaml.Layout
/-!
The outline of a document as it is to be written: a tree in which every cell stands once, where a
walk first comes to it, and as an alias wherever it is met again. The cells that have an alias are
anchors, numbered in the order of their first aliases.
-/

namespace SecretFill.Yaml

open SecretFill.Data SecretFill.Decimal

inductive Outline
  | alias (cell : Nat)
  /-- An atom, or a cell that is written as a scalar. -/
  | scalar (cell : Option Nat) (scalar : Layout.Scalar)
  | sequence (cell : Nat) (items : List Outline)
  | mapping (cell : Nat) (tag : Text) (entries : List (Outline × Outline))
  deriving Repr, Inhabited

inductive WriteError
  | foreign (shown : Text)
  | number (fault : NumberFault)
  | tooDeep
  deriving DecidableEq, Repr

/-- The deepest nesting of collections that is written. Like `deepestNesting` it stands in for a
full stack: what a writer needs of it depends on the kinds of the collections, and some documents
that nest a little deeper could still be written. -/
def deepestWritten : Nat := 300

def realText (number : Binary64) : List Code :=
  if number.isNaN then (".nan" : Text).toList
  else if number.isInfinite then
      (if number.negative then ("-.inf" : Text).toList else (".inf" : Text).toList)
  else
    let text := number.text.toList
    let mantissa := text.takeWhile (· != Code.char 'e')
    -- Without a point an exponent would make the number a text.
    if mantissa.length < text.length && !mantissa.contains '.' then
      mantissa ++ (".0" : Text).toList ++ text.drop mantissa.length
    else text

def atomScalar : Atom → Except WriteError Layout.Scalar
  | .null => .ok ⟨Tag.null, ("null" : Text).toList, false⟩
  | .bool value => .ok ⟨Tag.bool, (if value then ("true" : Text) else "false").toList, false⟩
  | .int value =>
      if writable value then .ok ⟨Tag.int, integerText value, false⟩
      else .error (.number .tooManyDigitsWritten)
  | .real value => .ok ⟨Tag.real, realText value, false⟩
  | .text value => .ok ⟨Tag.text, value.toList, false⟩
  | .bytes value => .ok ⟨Tag.binary, Text.Base64.encodeLines value, true⟩

namespace Outline

/-- The outline of a value, given the cells that have been met, and the cells met then. -/
abbrev Draw := Value → List Nat → Except WriteError (Outline × List Nat)

def drawAll (draw : Draw) : List Value → List Nat → Except WriteError (List Outline × List Nat)
  | [], met => .ok ([], met)
  | value :: rest, met => do
      let (outline, met) ← draw value met
      let (outlines, met) ← drawAll draw rest met
      .ok (outline :: outlines, met)

def drawEntries (draw : Draw) : List (Value × Value) → List Nat →
    Except WriteError (List (Outline × Outline) × List Nat)
  | [], met => .ok ([], met)
  | (key, value) :: rest, met => do
      let (key, met) ← draw key met
      let (value, met) ← draw value met
      let (entries, met) ← drawEntries draw rest met
      .ok ((key, value) :: entries, met)

def draw (cells : Array Cell) : Nat → Draw
  | 0, _, _ => .error .tooDeep
  | depth + 1, value, met =>
      match value with
      | .atom atom => do .ok (.scalar none (← atomScalar atom), met)
      | .cell index =>
          if index ∈ met then .ok (.alias index, met)
          else
            let inside := draw cells depth
            let here := index :: met
            let dated (text : Text) : Except WriteError (Outline × List Nat) :=
              .ok (.scalar (some index) ⟨Tag.timestamp, text.toList, false⟩, here)
            match cells[index]? with
            | some (.list items) | some (.tuple items) => do
                let (items, met) ← drawAll inside items here
                .ok (.sequence index items, met)
            | some (.mapping entries) => do
                let (entries, met) ← drawEntries inside entries here
                .ok (.mapping index Tag.mapping entries, met)
            | some (.set members) => do
                let (entries, met) ←
                  drawEntries inside (members.map fun member => (member, .atom .null)) here
                .ok (.mapping index Tag.set entries, met)
            | some (.date date) => dated date.text
            | some (.moment moment) => dated moment.text
            -- Written out wherever it stands, never as an alias.
            | some .notANumber => .ok (.scalar none ⟨Tag.real, realText .nan, false⟩, met)
            | some (.foreign shown) => .error (.foreign shown)
            | none => .error (.foreign "")

def ofDocument (document : Document) : Except WriteError Outline :=
  (draw document.cells (deepestWritten + 1) document.root []).map Prod.fst

/-! ### Aliases -/

mutual

def aliases : Outline → List Nat
  | .alias cell => [cell]
  | .scalar _ _ => []
  | .sequence _ items => itemAliases items
  | .mapping _ _ entries => entryAliases entries

def itemAliases : List Outline → List Nat
  | [] => []
  | item :: rest => item.aliases ++ itemAliases rest

def entryAliases : List (Outline × Outline) → List Nat
  | [] => []
  | (key, value) :: rest => key.aliases ++ value.aliases ++ entryAliases rest

end

/-- The cells that need an anchor, each once, in the order of their first aliases. -/
def anchors (outline : Outline) : List Nat := outline.aliases.eraseDups

end Outline

end SecretFill.Yaml
