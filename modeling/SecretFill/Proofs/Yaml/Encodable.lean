import SecretFill.Proofs.Text.Utf8
import SecretFill.Proofs.Yaml.Unwritable
import SecretFill.Proofs.Yaml.Outline
/-!
What is written can be encoded, whatever the documents hold. Double quotes escape halves of
surrogate pairs, the other styles are not chosen for a text that has some, and all else on a page is
ASCII.
-/

namespace SecretFill.Text.Base64

open Utf8 (Whole)

theorem isHalf_digit (value : Nat) : (digit value).isHalf = false := by
  have below {number : Nat} (small : number < 0xD800) : (Code.ofNat number).isHalf = false := by
    apply Code.isHalf_eq_false
    rw [Code.toNat_ofNat (by omega)]
    exact .inl small
  unfold digit
  split
  · exact below (by omega)
  · split
    · exact below (by omega)
    · split
      · exact below (by omega)
      · split <;> rfl

theorem whole_encode (bytes : List UInt8) : Whole (encode bytes) := by
  have padding : (Code.char '=').isHalf = false := rfl
  induction bytes using encode.induct with
  | case1 => exact List.forall_mem_nil _
  | case2 first => simp [Whole, encode, isHalf_digit, padding]
  | case3 first second => simp [Whole, encode, isHalf_digit, padding]
  | case4 first second third rest ih => simpa [Whole, encode, isHalf_digit] using ih

theorem whole_encodeLines (bytes : List UInt8) : Whole (encodeLines bytes) := by
  induction bytes using encodeLines.induct with
  | case1 =>
      rw [encodeLines]
      exact List.forall_mem_nil _
  | case2 first rest ih =>
      rw [encodeLines]
      exact List.forall_mem_append.mpr ⟨whole_encode _, List.forall_mem_cons.mpr ⟨rfl, ih⟩⟩

end SecretFill.Text.Base64

namespace SecretFill.Yaml

open Text.Utf8 (Whole)
open Data (Value Stream)
open Decimal (writable)

theorem whole_char (character : Char) : Whole [Code.char character] :=
  List.forall_mem_singleton.mpr rfl

theorem isHalf_of_isAcceptable {character : Code} (acceptable : isAcceptable character = true) :
    character.isHalf = false := by
  simp only [isAcceptable, Bool.and_eq_true, Bool.not_eq_true'] at acceptable
  exact acceptable.1

theorem Page.Inline.whole {body : List Code} (shown : Page.Inline body) : Whole body :=
  fun character member => isHalf_of_isAcceptable (shown character member).2

theorem whole_escape (character : Code) : Whole (Page.escape character) := by
  obtain ⟨code, same, read⟩ := Token.escapeRead character
  rw [same]
  exact List.forall_mem_cons.mpr ⟨rfl, read.shown.whole⟩

/-! ### Pages -/

namespace Page

def Encodable (page : Page) : Prop := Whole page.written

variable {page : Page} {text : List Code}

theorem Encodable.write (encodable : page.Encodable) (whole : Whole text) :
    (page.write text).Encodable :=
  List.forall_mem_append.mpr ⟨fun code member => whole code (List.mem_reverse.mp member), encodable⟩

theorem Encodable.indicator (encodable : page.Encodable) (whole : Whole text)
    {spaceBefore isBlock : Bool} : (page.indicator text spaceBefore isBlock).Encodable := by
  unfold Page.indicator
  dsimp only
  split
  · exact encodable.write whole
  · exact encodable.write (List.forall_mem_cons.mpr ⟨rfl, whole⟩)

theorem Encodable.lineBreak (encodable : page.Encodable) {character : Code}
    (whole : character.isHalf = false) : (page.lineBreak character).Encodable :=
  List.forall_mem_cons.mpr ⟨whole, encodable⟩

theorem Encodable.spaces (encodable : page.Encodable) (count : Nat) :
    (page.write (List.replicate count (Code.char ' '))).Encodable :=
  encodable.write (inline_spaces count).whole

theorem Encodable.newLine (encodable : page.Encodable) (indent : Nat) :
    (page.newLine indent).Encodable := by
  have broken : (page.lineBreak '\n').Encodable := encodable.lineBreak rfl
  unfold Page.newLine
  dsimp only
  split
  · split
    · exact broken.spaces _
    · exact broken
  · split
    · exact encodable.spaces _
    · exact encodable

/-! ### Scalars -/

theorem Encodable.writeSpaces (encodable : page.Encodable) (count indent : Nat) (mayFold : Bool) :
    (page.writeSpaces count indent mayFold).Encodable := by
  unfold Page.writeSpaces
  split
  · exact encodable.newLine indent
  · exact encodable.spaces count

theorem Encodable.plainStretches (encodable : page.Encodable) {stretches : List Stretch}
    (cut : Stretched stretches text) (whole : Whole text) (indent : Nat) (split : Bool) :
    (writePlainStretches indent split page stretches).Encodable := by
  induction cut generalizing page with
  | nil => exact encodable
  | @spaces count later rest more ended ih =>
      have spaced := encodable.writeSpaces (count + 1) indent split
      rw [writePlainStretches]
      refine ih ?_ (List.forall_mem_append.mp whole).2
      split
      · exact spaced
      · exact spaced
  | breaks more nonempty inside ended ih =>
      obtain ⟨here, later⟩ := List.forall_mem_append.mp whole
      exact ih (encodable.write here) later
  | word more nonempty inside ended ih =>
      obtain ⟨here, later⟩ := List.forall_mem_append.mp whole
      exact ih (encodable.write here) later

theorem Encodable.plain (encodable : page.Encodable) (whole : Whole text) (indent : Nat)
    (split root : Bool) : (page.plain text indent split root).Encodable := by
  have flagged : (if root then { page with openEnded := true } else page).Encodable := by
    split <;> exact encodable
  unfold Page.plain
  generalize (if root then { page with openEnded := true } else page) = page at flagged
  dsimp only
  split
  · exact flagged
  · refine Encodable.plainStretches ?_ (stretched text) whole indent split
    split
    · exact flagged
    · exact flagged.spaces 1

theorem Encodable.writeBreaks (encodable : page.Encodable) (whole : Whole text) (indent : Nat) :
    (page.writeBreaks text indent).Encodable := by
  have all {page : Page} (encodable : page.Encodable) : (text.foldl Page.lineBreak page).Encodable := by
    induction text generalizing page with
    | nil => exact encodable
    | cons character rest ih =>
        obtain ⟨here, later⟩ := List.forall_mem_cons.mp whole
        exact ih later (encodable.lineBreak here)
  unfold Page.writeBreaks
  dsimp only
  split
  · exact (all (encodable.lineBreak rfl)).newLine indent
  · exact (all encodable).newLine indent

theorem whole_doubleQuotes (whole : Whole text) : Whole (doubleQuotes text) := by
  intro code member
  obtain ⟨character, among, written⟩ := List.mem_flatMap.mp member
  split at written
  · have quotes : code = '\'' := by simpa using written
    rw [quotes]
    rfl
  · rw [List.mem_singleton.mp written]
    exact whole character among

theorem Encodable.quotedStretches (encodable : page.Encodable) {stretches : List Stretch}
    (cut : Stretched stretches text) (whole : Whole text) (indent : Nat) (split first : Bool) :
    (writeQuotedStretches indent split first page stretches).Encodable := by
  induction cut generalizing page first with
  | nil => exact encodable
  | spaces more ended ih =>
      exact ih (encodable.writeSpaces _ _ _) (List.forall_mem_append.mp whole).2 _
  | breaks more nonempty inside ended ih =>
      obtain ⟨here, later⟩ := List.forall_mem_append.mp whole
      exact ih (encodable.writeBreaks here indent) later _
  | word more nonempty inside ended ih =>
      obtain ⟨here, later⟩ := List.forall_mem_append.mp whole
      exact ih (encodable.write (whole_doubleQuotes here)) later _

theorem Encodable.singleQuoted (encodable : page.Encodable) (whole : Whole text) (indent : Nat)
    (split : Bool) : (page.singleQuoted text indent split).Encodable := by
  have opened : (page.indicator [Code.char '\''] true).Encodable :=
    encodable.indicator (whole_char '\'')
  exact (opened.quotedStretches (stretched text) whole indent split true).indicator (whole_char '\'')

/-- What is pending between double quotes is shown as it is; the rest of the text is anything. -/
theorem Encodable.writeDouble (encodable : page.Encodable) {pending : List Code}
    (shown : ∀ character ∈ pending, isShown character = true) (indent : Nat) (split first : Bool) :
    (writeDouble indent split first page pending text).Encodable := by
  have slash := whole_char '\\'
  have held {pending : List Code} (shown : ∀ character ∈ pending, isShown character = true) :
      Whole pending.reverse :=
    (inline_of_shown fun character member => shown character (List.mem_reverse.mp member)).whole
  induction text generalizing page pending first with
  | nil => exact encodable.write (held shown)
  | cons character rest ih =>
      have reversed := held shown
      rw [Page.writeDouble]
      dsimp only
      cases here : isShown character with
      | true =>
          have more : ∀ other ∈ character :: pending, isShown other = true :=
            List.forall_mem_cons.mpr ⟨here, shown⟩
          have alone : ∀ other ∈ [character], isShown other = true :=
            List.forall_mem_singleton.mpr here
          have broken := (encodable.write (List.forall_mem_append.mpr ⟨reversed, slash⟩)).newLine indent
          simp only [if_true]
          split
          · refine ih ?_ alone false
            split
            · exact Encodable.write broken slash
            · exact broken
          · exact ih encodable more false
      | false =>
          have none : ∀ other ∈ ([] : List Code), isShown other = true := List.forall_mem_nil _
          have escaped := encodable.write (List.forall_mem_append.mpr ⟨reversed, whole_escape character⟩)
          have broken := (escaped.write slash).newLine indent
          simp only [Bool.false_eq_true, if_false, List.reverse_nil, List.nil_append]
          split
          · refine ih ?_ none false
            split
            · exact Encodable.write broken slash
            · exact broken
          · exact ih escaped none false

theorem Encodable.doubleQuoted (encodable : page.Encodable) (text : List Code) (indent : Nat)
    (split : Bool) : (page.doubleQuoted text indent split).Encodable := by
  have opened : (page.indicator [Code.char '"'] true).Encodable :=
    encodable.indicator (whole_char '"')
  exact (opened.writeDouble (List.forall_mem_nil _) indent split true).indicator (whole_char '"')

theorem Encodable.literal (encodable : page.Encodable) (whole : Whole text) (indent : Nat) :
    (page.literal text indent).Encodable := by
  have all {lines : List (List Code)} (wholeLines : ∀ line ∈ lines, Whole line) {page : Page}
      (encodable : page.Encodable) :
      (lines.foldl (fun page line => ((page.newLine indent).write line).lineBreak '\n')
        page).Encodable := by
    induction lines generalizing page with
    | nil => exact encodable
    | cons line lines ih =>
        obtain ⟨here, later⟩ := List.forall_mem_cons.mp wholeLines
        exact ih later (((encodable.newLine indent).write here).lineBreak rfl)
  refine all (fun line member code inside => ?_)
    ((encodable.indicator (whole_char '|')).lineBreak rfl)
  have among := Text.infix_of_mem_segments (List.mem_of_mem_dropLast member)
  exact whole code (among.subset inside)

end Page

theorem Layout.whole_of_not_special {text : List Code} (shown : text.any isSpecial = false) :
    Whole text := by
  intro character member
  have here := Bool.eq_false_iff.mpr (List.any_eq_false.mp shown character member)
  exact isHalf_of_isAcceptable (isAcceptable_of_not_special here)

/-- A scalar whose tag can be encoded, and its text if it is written as lines. -/
structure Layout.Scalar.Encodable (scalar : Layout.Scalar) : Prop where
  tag : Whole scalar.tag.toList
  lines : scalar.inLines = true → Whole scalar.text

theorem Layout.Scalar.whole_of_style {scalar : Layout.Scalar} (encodable : scalar.Encodable)
    { isKey : Bool} (apart : scalar.style isKey ≠ .doubleQuoted) : Whole scalar.text := by
  have nothing (empty : scalar.text.isEmpty = true) : Whole scalar.text := by
    rw [List.isEmpty_iff.mp empty]
    exact List.forall_mem_nil _
  unfold Layout.Scalar.style at apart
  dsimp only at apart
  split at apart
  · next inLines => exact encodable.lines inLines
  · split at apart
    · next plain =>
        simp only [Bool.and_eq_true, Bool.or_eq_true] at plain
        rcases plain.2 with empty | allowed
        · exact nothing empty
        · simp only [allowsPlain, Bool.not_eq_true', Bool.or_eq_false_iff] at allowed
          exact whole_of_not_special allowed.1.2
    · split at apart
      · next single =>
          simp only [Bool.and_eq_true, Bool.or_eq_true] at single
          rcases single.1 with empty | allowed
          · exact nothing empty
          · simp only [allowsSingleQuotes, Bool.not_eq_true', Bool.or_eq_false_iff] at allowed
            exact whole_of_not_special allowed.2
      · exact absurd rfl apart

/-! ### Outlines -/

inductive Outline.Encodable : Outline → Prop
  | alias (cell : Nat) : Encodable (.alias cell)
  | scalar (cell : Option Nat) {scalar : Layout.Scalar} (encodable : scalar.Encodable) :
      Encodable (.scalar cell scalar)
  | sequence (cell : Nat) {items : List Outline} (each : ∀ item ∈ items, Encodable item) :
      Encodable (.sequence cell items)
  | mapping (cell : Nat) {tag : Text} {entries : List (Outline × Outline)}
      (whole : Whole tag.toList) (keys : ∀ entry ∈ entries, Encodable entry.1)
      (items : ∀ entry ∈ entries, Encodable entry.2) :
      Encodable (.mapping cell tag entries)

namespace Writing

theorem whole_anchorOf {anchors : List Nat} {cell : Nat} {name : List Code}
    (found : anchorOf anchors cell = some name) : Whole name :=
  (Page.inline_name (anchorOf_name found)).whole

variable {page : Page}

theorem encodable_anchor (encodable : page.Encodable) {anchor : Option (List Code)}
    (whole : ∀ name, anchor = some name → Whole name) : (writeAnchor page anchor).Encodable := by
  cases anchor with
  | none => exact encodable
  | some name => exact encodable.indicator (List.forall_mem_cons.mpr ⟨rfl, whole name rfl⟩)

theorem whole_tagText {tag : Text} (whole : Whole tag.toList) : Whole (Layout.tagText tag) := by
  unfold Layout.tagText
  split
  · next first rest dropped =>
      rw [(Text.dropPrefix?_eq_some_iff _ _ _).mp dropped] at whole
      have name := (List.forall_mem_append.mp whole).2
      exact List.forall_mem_cons.mpr ⟨rfl, List.forall_mem_cons.mpr ⟨rfl, name⟩⟩
  · exact whole

theorem encodable_tagged (encodable : page.Encodable) {anchor : Option (List Code)}
    (named : ∀ name, anchor = some name → Whole name) {tag : Text} (whole : Whole tag.toList) :
    (if tag = Tag.mapping then writeAnchor page anchor
      else (writeAnchor page anchor).indicator (Layout.tagText tag) true).Encodable := by
  have anchored := encodable_anchor encodable named
  split
  · exact anchored
  · exact anchored.indicator (whole_tagText whole)

theorem encodable_scalar (encodable : page.Encodable) (place : Place) {scalar : Layout.Scalar}
    (written : scalar.Encodable) : (writeScalar page place scalar).Encodable := by
  have tagged : (if scalar.showsTag (scalar.style place.isKey) then
      page.indicator (Layout.tagText scalar.tag) true else page).Encodable := by
    split
    · exact encodable.indicator (whole_tagText written.tag)
    · exact encodable
  have whole := @Layout.Scalar.whole_of_style _ written place.isKey
  rw [writeScalar]
  generalize scalar.style place.isKey = style at tagged whole ⊢
  cases style with
  | plain => exact tagged.plain (whole (by decide)) _ _ _
  | singleQuoted => exact tagged.singleQuoted (whole (by decide)) _ _
  | doubleQuoted => exact tagged.doubleQuoted _ _ _
  | literal => exact tagged.literal (whole (by decide)) _
  | folded => exact tagged.literal (whole (by decide)) _

theorem encodable_brackets (encodable : page.Encodable) (opening closing : Char) :
    (writeEmpty page opening closing).Encodable := by
  have opened : (page.indicator [Code.char opening] true).Encodable :=
    encodable.indicator (whole_char opening)
  have spaced : Page.Encodable { page.indicator [Code.char opening] true with spaced := true } :=
    opened
  exact spaced.indicator (whole_char closing)

mutual

theorem encodable_node (anchors : List Nat) {page : Page} (encodable : page.Encodable)
    (place : Place) : (outline : Outline) → outline.Encodable →
      (writeNode anchors page place outline).Encodable
  | .alias cell, written => by
      have whole : Whole ((anchorOf anchors cell).getD []) := by
        cases found : anchorOf anchors cell with
        | none => exact List.forall_mem_nil _
        | some name => exact whole_anchorOf found
      rw [writeNode]
      exact encodable.indicator (List.forall_mem_cons.mpr ⟨rfl, whole⟩)
  | .scalar cell content, written => by
      have named : ∀ name, cell.bind (anchorOf anchors) = some name → Whole name := by
        intro name found
        obtain ⟨index, -, found⟩ := Option.bind_eq_some_iff.mp found
        exact whole_anchorOf found
      rw [writeNode]
      cases written with
      | scalar _ written => exact encodable_scalar (encodable_anchor encodable named) place written
  | .sequence cell [], written => by
      rw [writeNode]
      exact encodable_brackets (encodable_anchor encodable fun _ => whole_anchorOf) '[' ']'
  | .sequence cell (item :: rest), written => by
      simp only [writeNode]
      cases written with
      | sequence _ each =>
          exact encodable_items anchors (encodable_anchor encodable fun _ => whole_anchorOf) _
            (item :: rest) each
  | .mapping cell tag [], written => by
      simp only [writeNode]
      cases written with
      | mapping _ whole keys items =>
          exact encodable_brackets (encodable_tagged encodable (fun _ => whole_anchorOf) whole)
            '\x7b' '\x7d'
  | .mapping cell tag (entry :: rest), written => by
      simp only [writeNode]
      cases written with
      | mapping _ whole keys items =>
          exact encodable_entries anchors
            (encodable_tagged encodable (fun _ => whole_anchorOf) whole) _ (entry :: rest) keys items

theorem encodable_items (anchors : List Nat) {page : Page} (encodable : page.Encodable)
    (indent : Nat) : (items : List Outline) → (∀ item ∈ items, item.Encodable) →
      (writeItems anchors page indent items).Encodable
  | [], each => by
      rw [writeItems]
      exact encodable
  | item :: rest, each => by
      obtain ⟨here, later⟩ := List.forall_mem_cons.mp each
      have dash : ((page.newLine indent).indicator ['-'] true true).Encodable :=
        (encodable.newLine indent).indicator (whole_char '-')
      rw [writeItems]
      exact encodable_items anchors (encodable_node anchors dash _ item here) indent rest later

theorem encodable_entries (anchors : List Nat) {page : Page} (encodable : page.Encodable)
    (indent : Nat) : (entries : List (Outline × Outline)) →
      (∀ entry ∈ entries, entry.1.Encodable) → (∀ entry ∈ entries, entry.2.Encodable) →
        (writeEntries anchors page indent entries).Encodable
  | [], keys, items => by
      rw [writeEntries]
      exact encodable
  | (key, value) :: rest, keys, items => by
      obtain ⟨hereKey, laterKeys⟩ := List.forall_mem_cons.mp keys
      obtain ⟨hereItem, laterItems⟩ := List.forall_mem_cons.mp items
      have opened := encodable.newLine indent
      have colon := whole_char ':'
      have question : ((page.newLine indent).indicator ['?'] true true).Encodable :=
        opened.indicator (whole_char '?')
      rw [writeEntries]
      refine encodable_entries anchors ?_ indent rest laterKeys laterItems
      refine encodable_node anchors ?_ _ value hereItem
      split
      · exact (encodable_node anchors opened _ key hereKey).indicator colon
      · exact ((encodable_node anchors question _ key hereKey).newLine indent).indicator colon

end

theorem encodable_documents (marked : Bool) {outlines : List Outline}
    (each : ∀ outline ∈ outlines, outline.Encodable) (encodable : page.Encodable) :
    (outlines.foldl (writeDocument marked) page).Encodable := by
  induction outlines generalizing page with
  | nil => exact encodable
  | cons outline rest ih =>
      obtain ⟨here, later⟩ := List.forall_mem_cons.mp each
      refine ih later ((encodable_node _ ?_ _ outline here).newLine 0)
      split
      · exact (encodable.newLine 0).indicator (by decide)
      · exact encodable

theorem encodable_finish (encodable : page.Encodable) : (finish page).Encodable := by
  unfold finish
  split
  · exact (encodable.indicator (by decide)).newLine 0
  · exact encodable

end Writing

/-! ### Drawing -/

theorem whole_standard (name : String) : Whole (Tag.standard name).toList := by
  intro code member
  rcases List.mem_append.mp member with start | name
  · obtain ⟨character, -, rfl⟩ := List.mem_map.mp start
    rfl
  · obtain ⟨character, -, rfl⟩ := List.mem_map.mp name
    rfl

theorem atomScalar_encodable (atom : Data.Atom) :
    EndsWith Layout.Scalar.Encodable (fun _ => True) (atomScalar atom) := by
  cases atom with
  | int value =>
      cases fits : writable value with
      | true =>
          rw [atomScalar, fits]
          exact ⟨whole_standard _, by simp⟩
      | false =>
          rw [atomScalar, fits]
          trivial
  | bytes value => exact ⟨whole_standard _, fun _ => Text.Base64.whole_encodeLines value⟩
  | _ => exact ⟨whole_standard _, by simp⟩

namespace Outline

variable {draw : Draw}

theorem drawAll_encodable
    (each : ∀ value met, EndsWith (fun drawn => Encodable drawn.1) (fun _ => True) (draw value met))
    (values : List Value) (met : List Nat) :
    EndsWith (fun drawn => ∀ item ∈ drawn.1, Encodable item) (fun _ => True)
      (drawAll draw values met) := by
  induction values generalizing met with
  | nil => exact List.forall_mem_nil _
  | cons value rest ih =>
      refine (each value met).bind fun one here => (ih one.2).bind fun others later => ?_
      exact List.forall_mem_cons.mpr ⟨here, later⟩

theorem drawEntries_encodable
    (each : ∀ value met, EndsWith (fun drawn => Encodable drawn.1) (fun _ => True) (draw value met))
    (entries : List (Value × Value)) (met : List Nat) :
    EndsWith (fun drawn => (∀ entry ∈ drawn.1, Encodable entry.1) ∧
      ∀ entry ∈ drawn.1, Encodable entry.2) (fun _ => True) (drawEntries draw entries met) := by
  induction entries generalizing met with
  | nil => exact ⟨List.forall_mem_nil _, List.forall_mem_nil _⟩
  | cons entry rest ih =>
      refine (each entry.1 met).bind fun key keyHere => (each entry.2 key.2).bind fun item itemHere =>
        (ih item.2).bind fun others later => ?_
      exact ⟨List.forall_mem_cons.mpr ⟨keyHere, later.1⟩, List.forall_mem_cons.mpr ⟨itemHere, later.2⟩⟩

theorem draw_encodable (cells : Array Data.Cell) (depth : Nat) (value : Value) (met : List Nat) :
    EndsWith (fun drawn => Encodable drawn.1) (fun _ => True) (Outline.draw cells depth value met) := by
  induction depth generalizing value met with
  | zero => trivial
  | succ depth ih =>
      have dated (index : Nat) (text : Text) :
          Encodable (.scalar (some index) ⟨Tag.timestamp, text.toList, false⟩) :=
        .scalar _ ⟨whole_standard _, nofun⟩
      cases value with
      | atom atom => exact (atomScalar_encodable atom).bind fun scalar here => .scalar _ here
      | cell index =>
          unfold Outline.draw
          refine .ite (fun _ => .alias index) fun _ => ?_
          dsimp only
          split
          · exact (drawAll_encodable ih _ _).bind fun drawn each => .sequence _ each
          · exact (drawAll_encodable ih _ _).bind fun drawn each => .sequence _ each
          · refine (drawEntries_encodable ih _ _).bind fun drawn each => ?_
            exact .mapping _ (whole_standard _) each.1 each.2
          · refine (drawEntries_encodable ih _ _).bind fun drawn each => ?_
            exact .mapping _ (whole_standard _) each.1 each.2
          · exact dated index _
          · exact dated index _
          · exact .scalar _ ⟨whole_standard _, nofun⟩
          · trivial
          · trivial

end Outline

/-- Documents that can be written can be encoded. -/
theorem whole_write (stream : Stream) :
    EndsWith (fun text => Whole text.toList) (fun _ => True) (write stream) := by
  have drawn : EndsWith (fun outlines => ∀ outline ∈ outlines, Outline.Encodable outline)
      (fun _ => True) (stream.roots.mapM fun root => Outline.ofDocument (stream.document root)) := by
    refine EndsWith.mapM fun root member => ?_
    exact (Outline.draw_encodable _ _ root []).map fun _ here => here
  have blank : Page.blank.Encodable := List.forall_mem_nil _
  refine drawn.bind fun outlines each => ?_
  have page := Writing.encodable_finish (Writing.encodable_documents (outlines.length != 1) each blank)
  exact fun code member => page code (List.mem_reverse.mp member)

end SecretFill.Yaml
