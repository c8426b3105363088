import SecretFill.Yaml.Outline
import SecretFill.Yaml.Page
/-!
Writing documents. Collections are written in block style, two columns deeper than what holds them;
a list that is the value of a key is not indented. Empty collections are written as brackets. A key
that is long, empty or of several lines has an indicator of its own.
-/

namespace SecretFill.Yaml

open SecretFill.Data SecretFill.Decimal

namespace Writing

def anchorText (number : Nat) : List Code :=
  ("id" : Text).toList ++ padLeft 3 '0' (digitsText number)

def anchorOf (anchors : List Nat) (cell : Nat) : Option (List Code) :=
  (anchors.idxOf? cell).map fun index => anchorText (index + 1)

structure Place where
  /-- The column of the block that holds the node; nothing for the whole document. -/
  indent : Option Nat
  /-- The node is a key or a value. -/
  inMapping : Bool
  /-- The node is a key on the line of its value. -/
  isKey : Bool
  deriving DecidableEq, Repr

/-- The column of a scalar's further lines. -/
def Place.scalarIndent (place : Place) : Nat :=
  match place.indent with
  | none => 2
  | some indent => indent + 2

def Place.blockIndent (place : Place) ( isIndentless : Bool) : Nat :=
  match place.indent with
  | none => 0
  | some indent => if isIndentless then indent else indent + 2

def writeAnchor (page : Page) (anchor : Option (List Code)) : Page :=
  match anchor with
  | some name => page.indicator ('&' :: name) true
  | none => page

def writeScalar (page : Page) (place : Place) (scalar : Layout.Scalar) : Page :=
  let style := scalar.style place.isKey
  let page :=
    if scalar.showsTag style then page.indicator (Layout.tagText scalar.tag) true else page
  page.scalar scalar.text style place.scalarIndent (!place.isKey) place.indent.isNone

/-- The longest key, with anchor and tag, that is written on the line of its value. -/
def keyWidth : Nat := 128

def isSimpleKey (anchors : List Nat) : Outline → Bool
  | .alias cell => ((anchorOf anchors cell).getD []).length < keyWidth
  | .scalar cell scalar =>
      let anchor := ((cell.bind (anchorOf anchors)).getD []).length
      anchor + (Layout.tagText scalar.tag).length + scalar.text.length < keyWidth &&
        !scalar.text.isEmpty && !Layout.isMultiline scalar.text
  | .sequence cell items =>
      let anchor := ((anchorOf anchors cell).getD []).length
      anchor + (Layout.tagText Tag.sequence).length < keyWidth && items.isEmpty
  | .mapping cell tag entries =>
      let anchor := ((anchorOf anchors cell).getD []).length
      anchor + (Layout.tagText tag).length < keyWidth && entries.isEmpty

def writeEmpty (page : Page) (opening closing : Code) : Page :=
  { page.indicator [opening] true with spaced := true }.indicator [closing] false

mutual

def writeNode (anchors : List Nat) (page : Page) (place : Place) : Outline → Page
  | .alias cell => page.indicator ('*' :: (anchorOf anchors cell).getD []) true
  | .scalar cell scalar =>
      writeScalar (writeAnchor page (cell.bind (anchorOf anchors))) place scalar
  | .sequence cell items =>
      let page := writeAnchor page (anchorOf anchors cell)
      match items with
      | [] => writeEmpty page '[' ']'
      -- In a mapping a list is indented only right behind an indicator of its own line.
      | items => writeItems anchors page (place.blockIndent (place.inMapping && !page.fresh)) items
  | .mapping cell tag entries =>
      let page := writeAnchor page (anchorOf anchors cell)
      let page :=
        if tag = Tag.mapping then page else page.indicator (Layout.tagText tag) true
      match entries with
      | [] => writeEmpty page '\x7b' '\x7d'
      | entries => writeEntries anchors page (place.blockIndent false) entries

def writeItems (anchors : List Nat) (page : Page) (indent : Nat) : List Outline → Page
  | [] => page
  | item :: rest =>
      let page := (page.newLine indent).indicator ['-'] true true
      writeItems anchors (writeNode anchors page ⟨some indent, false, false⟩ item) indent rest

def writeEntries (anchors : List Nat) (page : Page) (indent : Nat) :
    List (Outline × Outline) → Page
  | [] => page
  | (key, value) :: rest =>
      let page := page.newLine indent
      let page :=
        if isSimpleKey anchors key then
          (writeNode anchors page ⟨some indent, true, true⟩ key).indicator [':'] false
        else
          let page := page.indicator ['?'] true true
          let page := writeNode anchors page ⟨some indent, true, false⟩ key
          (page.newLine indent).indicator [':'] true true
      let page := writeNode anchors page ⟨some indent, true, false⟩ value
      writeEntries anchors page indent rest

end

/-- One document; `marked` ones begin with a marker. -/
def writeDocument (marked : Bool) (page : Page) (outline : Outline) : Page :=
  let page := if marked then (page.newLine 0).indicator ("---" : Text).toList true else page
  (writeNode outline.anchors page ⟨none, false, false⟩ outline).newLine 0

def finish (page : Page) : Page :=
  if page.openEnded then (page.indicator ("..." : Text).toList true).newLine 0 else page

end Writing

/-- The text of a stream. A single document has no marker. -/
def write (stream : Stream) : Except WriteError Text := do
  let outlines ← stream.roots.mapM fun root => Outline.ofDocument (stream.document root)
  let marked := outlines.length != 1
  .ok (Writing.finish (outlines.foldl (Writing.writeDocument marked) Page.blank)).text

end SecretFill.Yaml
