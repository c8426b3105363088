import SecretFill.Proofs.Yaml.Anchor
import SecretFill.Proofs.Yaml.Block
/-!
The tokens of an outline. The writer puts an outline on a page so that a scan reads these tokens;
the layout shows in them at one place only, where a list that is the value of a key is not indented.
-/

namespace SecretFill.Yaml

open Layout Writing
open Token (Kind)

theorem isAcceptable_of_isWordCharacter {character : Code}
    (word : isWordCharacter character = true) : isAcceptable character = true := by
  have range : 0x20 ≤ character.toNat ∧ character.toNat ≤ 0x7E := by
    simp only [isWordCharacter, Code.isAlphanum, Code.isAlpha, Code.isUpper, Code.isLower,
      Code.isDigit, Bool.or_eq_true, Bool.and_eq_true, decide_eq_true_eq, beq_iff_eq] at word
    rcases word with ((((upper | lower) | digit) | rfl) | rfl)
    · omega
    · omega
    · omega
    · decide
    · decide
  have whole : character.isHalf = false := Code.isHalf_eq_false (by omega)
  simp [isAcceptable, whole, range]

/-! ### Tokens of a node -/

namespace Page

variable {page : Page} {place : Writing.Place} {name : List Code}

theorem inline_name (named : Token.Name name) : Inline name := by
  intro character member
  have word := named.word character member
  constructor
  · cases line : isLineBreak character with
    | false => rfl
    | true =>
        have gap : isGapOrEnd character = true := by
          simp only [isGapOrEnd, isSpaceOrEnd, isBreakOrEnd, line, Bool.or_true]
        rw [Token.not_isWordCharacter_of_gap gap] at word
        cases word
  · exact isAcceptable_of_isWordCharacter word

theorem apart_of_deep (awaits : page.Awaits place) :
    place.outer < columnOver page.column page.spaceBefore := by
  have deep := awaits.deep
  have column := page.column_le_spaceBefore
  omega

theorem puts_alias (awaits : page.Awaits place) (named : Token.Name name) :
    page.Puts place.outer [.alias (Text.ofList name)] (page.indicator ('*' :: name) true) := by
  have deep := apart_of_deep awaits
  have shown : Inline ('*' :: name) := List.forall_mem_cons.mpr ⟨by decide, inline_name named⟩
  refine ⟨by simp, _, _, _, page.gap_spaceBefore, page.spaceBefore_ne_nil,
    ⟨_, _, rfl, by decide, by decide, by decide⟩, page.adds_indicator false shown, ?_⟩
  apply reads_of_leads
  intro between rest crossed before indents gap filled opens
  exact Token.leads_anchor (.inl rfl) named (Int.le_of_lt deep) (fun _ => Int.ne_of_lt deep) gap filled
    opens

theorem awaits_anchored (awaits : page.Awaits place) (named : Token.Name name) :
    (page.indicator ('&' :: name) true).Awaits place := by
  have deep := apart_of_deep awaits
  have shown : Inline ('&' :: name) := List.forall_mem_cons.mpr ⟨by decide, inline_name named⟩
  apply Awaits.used
  · rw [(page.adds_indicator false shown).column, columnOver_append, columnOver_line shown.line]
    omega
  · rfl
  · simp

theorem puts_anchored {kinds : List Kind} {after : Page} (awaits : page.Awaits place)
    (named : Token.Name name)
    (content : (page.indicator ('&' :: name) true).Puts place.outer kinds after) :
    page.Puts place.outer (.anchor (Text.ofList name) :: kinds) after := by
  have deep := apart_of_deep awaits
  have shown : Inline ('&' :: name) := List.forall_mem_cons.mpr ⟨by decide, inline_name named⟩
  have anchor := page.adds_indicator false shown
  obtain ⟨between, crossed, core, gap, filled, starts, adds, reads⟩ := content.core
  refine ⟨content.used, _, _, Code.char '&' :: name ++ (between ++ core), page.gap_spaceBefore,
    page.spaceBefore_ne_nil, ⟨_, _, rfl, by decide, by decide, by decide⟩, ?_, ?_⟩
  · have together := anchor.trans adds
    rwa [List.append_assoc] at together
  · intro count rest opens ends before indents
    have first := @Token.leads_anchor before _ _ indents (page.fresh || false) between
      (core ++ Code.char '\n' :: (List.replicate count (Code.char ' ') ++ rest)) crossed '&'
          (.inr rfl) name named
      (Int.le_of_lt deep) (fun _ => Int.ne_of_lt deep) gap (filled.mpr rfl) (starts.opens _)
    have second := reads count rest opens ends (before ++ [.anchor (Text.ofList name)]) indents
    rw [anchor.column, columnOver_append] at second
    have allowed : ((page.indicator ('&' :: name) true).fresh || crossed) = crossed := by simp
    rw [allowed] at second
    simpa [List.append_assoc] using first.trans second

theorem puts_brackets (awaits : page.Awaits place) (mapping : Bool) :
    page.Puts place.outer
      [if mapping then .flowMappingStart else .flowSequenceStart,
        if mapping then .flowMappingEnd else .flowSequenceEnd]
      (writeEmpty page (if mapping then Code.char '\x7b' else '[')
          (if mapping then Code.char '\x7d' else ']')) := by
  have deep := apart_of_deep awaits
  have first := @adds_indicator page [if mapping then Code.char '\x7b' else '['] false
      (by cases mapping <;> decide)
  let opened : Page :=
    { page.indicator [if mapping then Code.char '\x7b' else '['] true with spaced := true }
  have second := @adds_indicator_close opened [if mapping then Code.char '\x7d' else ']'] false
    (by cases mapping <;> decide)
  refine ⟨by simp [writeEmpty], _, _,
    [if mapping then Code.char '\x7b' else '[', if mapping then Code.char '\x7d' else ']'],
        page.gap_spaceBefore,
    page.spaceBefore_ne_nil, ?_, ?_, ?_⟩
  · cases mapping with
    | false => exact ⟨_, _, rfl, by decide, by decide, by decide⟩
    | true => exact ⟨_, _, rfl, by decide, by decide, by decide⟩
  · have opening : page.Adds (page.spaceBefore ++ [if mapping then Code.char '\x7b' else '[']) opened :=
      first.flags rfl rfl
    have together := opening.trans second
    rwa [List.append_assoc] at together
  · intro count rest opens ends before indents
    have leads := @Token.leads_brackets before _ _ indents (page.fresh || false) _ rest true mapping
      (Int.le_of_lt deep) (fun _ => Int.ne_of_lt deep) (.line count) opens
    rw [columnOver_break rfl] at leads
    exact leads

/-! ### Items and entries -/

variable {column : Nat} {kinds : List Kind} {after : Page}

theorem column_indicator (opens : page.Opens column) {character : Code}
    (shown : Inline [character]) :
    page.Adds [character] (page.indicator [character] true true) ∧
      (page.indicator [character] true true).column = column + 1 ∧
      (page.indicator [character] true true).fresh = true := by
  have adds := @adds_indicator page [character] true shown
  rw [spaceBefore, opens.spaced, if_pos rfl, List.nil_append] at adds
  refine ⟨adds, ?_, ?_⟩
  · rw [adds.column, opens.column, columnOver_line shown.line]
    rfl
  · simp [opens.fresh]

theorem begins_item (opens : page.Opens column)
    (content : (page.indicator ['-'] true true).Puts column kinds after) :
    page.Begins column .blockSequenceStart (.blockEntry :: kinds) after := by
  obtain ⟨dash, start, fresh⟩ := column_indicator opens (by decide : Inline ['-'])
  obtain ⟨between, crossed, core, gap, filled, starts, adds, reads⟩ := content.core
  refine ⟨content.used, Code.char '-' :: (between ++ core), ⟨_, _, rfl, by decide, by decide, by decide⟩,
    dash.trans adds, ?_⟩
  intro outer inside count rest ahead ends before indents
  have first := @Token.leads_dash before column outer indents between
    (core ++ Code.char '\n' :: (List.replicate count (Code.char ' ') ++ rest)) crossed inside gap
        (filled.mpr rfl) (starts.opens _)
  have second := reads count rest ahead ends
    (before ++ Token.openingKinds outer column .blockSequenceStart ++ [.blockEntry])
    (Token.openedBlocks outer column indents)
  rw [start, fresh] at second
  simpa [List.append_assoc] using first.trans second

theorem begins_key {form : List Code} {kind : Kind} {colon : Page} (opens : page.Opens column)
    (key : KeyForm column form kind) (adds : page.Adds (form ++ [Code.char ':']) colon)
    (used : colon.fresh = false) (close : colon.spaced = false)
    (content : colon.Puts column kinds after) :
    page.Begins column .blockMappingStart (.key :: kind :: .value :: kinds) after := by
  obtain ⟨between, crossed, core, gap, filled, starts, more, reads⟩ := content.core
  refine ⟨content.used, form ++ Code.char ':' :: (between ++ core), key.starts.append _, ?_, ?_⟩
  · have together := adds.trans more
    rwa [List.append_assoc] at together
  · intro outer inside count rest ahead ends before indents
    have apart := Token.gap_ends gap (filled.mpr close)
        (core ++ Code.char '\n' :: (List.replicate count (Code.char ' ') ++ rest))
    have first := Token.leads_key (key.turns _ apart before outer indents inside) key.starts.nonempty
      key.line key.short inside gap (filled.mpr close) (starts.opens _)
    have second := reads count rest ahead ends
      (before ++ Token.openingKinds outer column .blockMappingStart ++ [.key, kind, .value])
      (Token.openedBlocks outer column indents)
    have start : colon.column = column + form.length + 1 := by
      rw [adds.column, columnOver_append, columnOver_line key.line, opens.column]
      rfl
    rw [start, used, Bool.false_or] at second
    simpa [List.append_assoc] using first.trans second

theorem begins_question {keyKinds : List Kind} {middle : Page} (opens : page.Opens column)
    (key : (page.indicator ['?'] true true).Puts column keyKinds middle)
    (content : ((middle.newLine column).indicator [':'] true true).Puts column kinds after) :
    page.Begins column .blockMappingStart (.key :: keyKinds ++ .value :: kinds) after := by
  obtain ⟨question, start, fresh⟩ := column_indicator opens (by decide : Inline ['?'])
  obtain ⟨line, lineOpens⟩ := @newLine_breaks middle column (.inl key.used)
  obtain ⟨colon, start', fresh'⟩ := column_indicator lineOpens (by decide : Inline [':'])
  obtain ⟨between, crossed, core, gap, filled, starts, adds, reads⟩ := key.core
  obtain ⟨between', crossed', core', gap', filled', starts', adds', reads'⟩ := content.core
  refine ⟨content.used, Code.char '?' :: (between ++ core) ++
    (Code.char '\n' :: List.replicate column (Code.char ' ') ++ Code.char ':' :: (between' ++ core')),
    ⟨_, _, rfl, by decide, by decide, by decide⟩, ?_, ?_⟩
  · have together := ((question.trans adds).trans line).trans (colon.trans adds')
    simpa only [List.append_assoc, List.cons_append, List.nil_append] using together
  · intro outer inside count rest ahead ends before indents
    -- The question mark, the key, the colon on a line of its own, and the value.
    let tail := Code.char '\n' :: (List.replicate count (Code.char ' ') ++ rest)
    have first := @Token.leads_question before column outer indents between
      (core ++ Code.char '\n' :: (List.replicate column (Code.char ' ') ++ Code.char ':' ::
          (between' ++ (core' ++ tail)))) crossed
      inside gap (filled.mpr rfl) (starts.opens _)
    have colonOpens : Token.Scan.Opens (':' :: (between' ++ (core' ++ tail))) := by
      intro character here
      cases here
      decide
    have second := reads column (':' :: (between' ++ (core' ++ tail))) colonOpens
      (.inl (Int.le_refl _))
      (before ++ Token.openingKinds outer column .blockMappingStart ++ [.key])
      (Token.openedBlocks outer column indents)
    have third := @Token.leads_colon
      (before ++ Token.openingKinds outer column .blockMappingStart ++ [.key] ++ keyKinds) column
      column (Token.openedBlocks outer column indents) between' (core' ++ tail) crossed'
      (Int.le_refl _) gap' (filled'.mpr rfl) (starts'.opens _)
    have fourth := reads' count rest ahead ends
      (before ++ Token.openingKinds outer column .blockMappingStart ++ [.key] ++ keyKinds ++ [.value])
      (Token.openedBlocks outer column indents)
    rw [start, fresh] at second
    rw [start', fresh'] at fourth
    rw [openingKinds_self, openedBlocks_self, List.append_nil] at third
    simpa [tail, List.append_assoc] using ((first.trans second).trans third).trans fourth

end Page

/-! ### Tokens of an outline -/

def anchorKinds (anchor : Option (List Code)) : List Kind :=
  match anchor with
  | some name => [.anchor (Text.ofList name)]
  | none => []

namespace Outline

mutual

/-- The tokens of a node. A list in a mapping is not indented unless it begins on the line of an
indicator. -/
def kinds (anchors : List Nat) ( inMapping fresh : Bool) : Outline → List Kind
  | .alias cell => [.alias (Text.ofList ((anchorOf anchors cell).getD []))]
  | .scalar cell written =>
      anchorKinds (cell.bind (anchorOf anchors)) ++ [written.kind]
  | .sequence cell items =>
      let anchor := anchorOf anchors cell
      anchorKinds anchor ++
        match items with
        | [] => [.flowSequenceStart, .flowSequenceEnd]
        | items =>
            if inMapping && !(fresh && anchor.isNone) then itemKinds anchors items
            else .blockSequenceStart :: itemKinds anchors items ++ [.blockEnd]
  | .mapping cell _ entries =>
      anchorKinds (anchorOf anchors cell) ++
        match entries with
        | [] => [.flowMappingStart, .flowMappingEnd]
        | entries => .blockMappingStart :: entryKinds anchors entries ++ [.blockEnd]

def itemKinds (anchors : List Nat) : List Outline → List Kind
  | [] => []
  | item :: rest => .blockEntry :: item.kinds anchors false true ++ itemKinds anchors rest

def entryKinds (anchors : List Nat) : List (Outline × Outline) → List Kind
  | [] => []
  | (key, value) :: rest =>
      let simple := isSimpleKey anchors key
      .key :: key.kinds anchors true true ++
        .value :: value.kinds anchors true (!simple) ++ entryKinds anchors rest

end

/-- A key that is written so that it can be read: one on the line of its value is not too long. -/
inductive KeyFits (level : Nat) : Outline → Prop
  | scalar {key : Layout.Scalar} (clear : key.Clear) (foldable : Page.Foldable (2 * level) key.text)
      (short : isSimpleKey [] (.scalar none key) = true → allowsSingleQuotes key.text = false →
        (Page.escapedText key.text).length + 2 ≤ 1024) :
      KeyFits level (.scalar none key)

inductive Fits (anchors : List Nat) : Nat → Outline → Prop
  | alias {level cell : Nat} (named : cell ∈ anchors) : Fits anchors level (.alias cell)
  | scalar {level : Nat} {written : Layout.Scalar} (clear : written.Clear)
      (foldable : Page.Foldable (2 * level) written.text) :
      Fits anchors level (.scalar none written)
  | sequence {level cell : Nat} {items : List Outline}
      (below : ∀ item ∈ items, Fits anchors (level + 1) item) :
      Fits anchors level (.sequence cell items)
  | mapping {level cell : Nat} {entries : List (Outline × Outline)}
      (keys : ∀ entry ∈ entries, KeyFits (level + 1) entry.1)
      (below : ∀ entry ∈ entries, Fits anchors (level + 1) entry.2) :
      Fits anchors level (.mapping cell Tag.mapping entries)

end Outline

inductive Writing.Place.Within : Writing.Place → Nat → Prop
  | root {level : Nat} : Within ⟨none, false, false⟩ level
  | inside {column level : Nat} { inMapping : Bool} (deep : column + 2 ≤ 2 * level) :
      Within ⟨some column, inMapping, false⟩ level

theorem Writing.Place.Within.column_le {column level : Nat} { inMapping isKey : Bool}
    (within : Writing.Place.Within ⟨some column, inMapping, isKey⟩ level) :
    column + 2 ≤ 2 * level := by
  cases within with
  | inside deep => exact deep

theorem outer_eq_blockIndent {place : Writing.Place} {level : Nat} (within : place.Within level)
    ( inMapping : place.inMapping = true) : place.outer = place.blockIndent true := by
  cases within with
  | root => cases inMapping
  | inside deep => rfl

theorem foldable_scalarIndent {place : Writing.Place} {level : Nat} (within : place.Within level)
    {text : List Code} (foldable : Page.Foldable (2 * level) text) :
    Page.Foldable place.scalarIndent text := by
  cases within with
  | root => exact .inl (by decide)
  | @inside column level inMapping deep =>
      apply foldable.imp_left
      intro near
      exact Nat.lt_of_le_of_lt deep near

theorem blockIndent_within {place : Writing.Place} {level : Nat} (within : place.Within level)
    ( isIndentless inMapping : Bool) :
    Writing.Place.Within ⟨some (place.blockIndent isIndentless), inMapping, false⟩ (level + 1) := by
  apply Writing.Place.Within.inside
  cases within with
  | root => exact Nat.le_add_left 2 (2 * level)
  | @inside column level around deep =>
      have inner :
          Writing.Place.blockIndent ⟨some column, around, false⟩ isIndentless ≤ column + 2 := by
        cases isIndentless with
        | true => exact Nat.le_add_right _ _
        | false => exact Nat.le_refl _
      omega

namespace Page

variable {page : Page} {place : Writing.Place}

theorem puts_named {kinds : List Kind} (awaits : page.Awaits place) {anchor : Option (List Code)}
    (named : ∀ name, anchor = some name → Token.Name name) {content : Page → Page}
    (puts : ∀ inner : Page, inner.Awaits place → inner.fresh = (page.fresh && anchor.isNone) →
      inner.Puts place.outer kinds (content inner)) :
    page.Puts place.outer (anchorKinds anchor ++ kinds) (content (writeAnchor page anchor)) := by
  cases anchor with
  | none => exact puts page awaits (Bool.and_true _).symm
  | some name =>
      have known := named name rfl
      exact puts_anchored awaits known (puts _ (awaits_anchored awaits known) (by simp))

theorem begins_entry {anchors : List Nat} {column level : Nat} (deep : column + 2 ≤ 2 * level)
    (opens : page.Opens column) {key : Outline} (fits : key.KeyFits level) {kinds : List Kind}
    {content : Page → Page}
    (puts : ∀ inner : Page, inner.Awaits ⟨some column, true, false⟩ →
      inner.fresh = !isSimpleKey anchors key → inner.Puts column kinds (content inner)) :
    page.Begins column .blockMappingStart
      (.key :: key.kinds anchors true true ++ .value :: kinds)
      (content
        (if isSimpleKey anchors key then
          (writeNode anchors page ⟨some column, true, true⟩ key).indicator [':'] false
        else
          ((writeNode anchors (page.indicator ['?'] true true) ⟨some column, true, false⟩ key).newLine
            column).indicator [':'] true true)) := by
  obtain @⟨key, clear, foldable, short⟩ := fits
  have one : (Outline.scalar none key).kinds anchors true true = [key.kind] := by
    simp only [Outline.kinds, Option.bind_none, anchorKinds, List.nil_append]
  have bare (page : Page) (place : Writing.Place) :
      writeNode anchors page place (.scalar none key) = writeScalar page place key := by
    simp only [writeNode, Option.bind_none, writeAnchor]
  rw [one]
  simp only [bare]
  -- A short key stands on the line of its colon, any other one behind a question mark.
  cases simple : isSimpleKey anchors (.scalar none key) with
  | true =>
      have parts := simple
      simp only [isSimpleKey, Bool.and_eq_true, decide_eq_true_eq, Bool.not_eq_true',
        Option.bind_none, Option.getD_none, List.length_nil] at parts
      obtain ⟨⟨near, filled⟩, line⟩ := parts
      obtain ⟨form, form', adds⟩ := puts_key opens clear (List.isEmpty_eq_false_iff.mp filled) line
        (by omega) (short (by simpa [isSimpleKey] using simple))
      rw [if_pos rfl]
      let colon := (writeScalar page ⟨some column, true, true⟩ key).indicator [':'] false
      have used : colon.fresh = false := by simp [colon]
      have after : (column : Int) < colon.column := by
        rw [adds.column, columnOver_append, columnOver_line form'.line, opens.column]
        exact (by omega : (column : Int) < ((column + form.length + 1 : Nat) : Int))
      exact begins_key opens form' adds used rfl
          (puts colon (.used after rfl used) (by simp [used, simple]))
  | false =>
      rw [if_neg Bool.false_ne_true]
      have question := awaits_behind opens ['?'] rfl true false
      have scalarPuts := puts_scalar (page.indicator ['?'] true true) clear rfl
        (foldable_scalarIndent (.inside deep) foldable) question.deep
      have lineOpens := (@newLine_breaks _ column (.inl scalarPuts.used)).2
      have value := puts _ (awaits_behind lineOpens [':'] rfl true false) ?_
      · exact begins_question opens scalarPuts value
      · rw [simple]
        simp [lineOpens.fresh]

mutual

/-- What the writer makes of an outline is read as the tokens of the outline. -/
theorem puts_node (anchors : List Nat) {level : Nat} {page : Page} {place : Writing.Place} :
    (outline : Outline) → outline.Fits anchors level → place.Within level → page.Awaits place →
      page.Puts place.outer (outline.kinds anchors place.inMapping page.fresh)
        (writeNode anchors page place outline)
  | .alias cell, fits, within, awaits => by
      obtain ⟨name, found⟩ : ∃ name, anchorOf anchors cell = some name := by
        cases fits with
        | «alias» named => exact anchorOf_isSome named
      rw [writeNode, Outline.kinds, found]
      exact puts_alias awaits (anchorOf_name found)
  | .scalar cell content, fits, within, awaits => by
      cases fits with
      | scalar clear foldable =>
          have value : place.isKey = false := by
            cases within with
            | root => rfl
            | inside deep => rfl
          rw [writeNode, Outline.kinds]
          exact puts_scalar page clear value (foldable_scalarIndent within foldable) awaits.deep
  | .sequence cell [], fits, within, awaits => by
      simp only [writeNode, Outline.kinds]
      refine @puts_named _ _ _ awaits _ (fun name => anchorOf_name) (fun page => writeEmpty page '[' ']')
        fun inner awaits fresh => ?_
      exact puts_brackets awaits false
  | .sequence cell (item :: rest), fits, within, awaits => by
      have below : ∀ other ∈ item :: rest, other.Fits anchors (level + 1) := by
        cases fits with
        | sequence below => exact below
      obtain ⟨here, later⟩ := List.forall_mem_cons.mp below
      simp only [writeNode, Outline.kinds]
      refine @puts_named _ _ _ awaits _ (fun name => anchorOf_name)
        (fun page => writeItems anchors page (place.blockIndent (place.inMapping && !page.fresh))
          (item :: rest)) fun inner awaits fresh => ?_
      -- A list in a mapping is not indented if it begins on a line of its own.
      have indentless : (place.inMapping && !inner.fresh) = true →
          place.inMapping = true ∧ inner.fresh = false := by
        simp
      obtain ⟨-, -, -, -, opens, -⟩ := newLine_of_awaits awaits _ fun both => (indentless both).2
      have deep := blockIndent_within within (place.inMapping && !inner.fresh) false
      have one := puts_node anchors item here deep (awaits_behind opens ['-'] rfl false false)
      have start : ((inner.newLine (place.blockIndent (place.inMapping && !inner.fresh))).indicator ['-']
          true true).fresh = true := by
        simp [opens.fresh]
      rw [start] at one
      have more := follows_items anchors rest later deep.column_le one.used
      have block := ((begins_item opens one).append more).puts awaits fun both => (indentless both).2
      rw [← fresh, writeItems, Outline.itemKinds]
      generalize (place.inMapping && !inner.fresh) = isIndentless at indentless block ⊢
      cases isIndentless with
      | true => exact block.2 (outer_eq_blockIndent within (indentless rfl).1)
      | false => exact block.1 (outer_lt_blockIndent place)
  | .mapping cell tag [], fits, within, awaits => by
      have plain : tag = Tag.mapping := by
        cases fits with
        | mapping keys below => rfl
      simp only [writeNode, Outline.kinds, plain, if_true]
      refine @puts_named _ _ _ awaits _ (fun name => anchorOf_name)
        (fun page => writeEmpty page '\x7b' '\x7d') fun inner awaits fresh => ?_
      exact puts_brackets awaits true
  | .mapping cell tag ((key, value) :: rest), fits, within, awaits => by
      obtain ⟨plain, keys, below⟩ : tag = Tag.mapping ∧
          (∀ entry ∈ (key, value) :: rest, entry.1.KeyFits (level + 1)) ∧
          ∀ entry ∈ (key, value) :: rest, entry.2.Fits anchors (level + 1) := by
        cases fits with
        | mapping keys below => exact ⟨rfl, keys, below⟩
      obtain ⟨key', keys⟩ := List.forall_mem_cons.mp keys
      obtain ⟨here, later⟩ := List.forall_mem_cons.mp below
      simp only [writeNode, Outline.kinds, plain, if_true]
      refine @puts_named _ _ _ awaits _ (fun name => anchorOf_name)
        (fun page => writeEntries anchors page (place.blockIndent false) ((key, value) :: rest))
        fun inner awaits fresh => ?_
      obtain ⟨-, -, -, -, opens, -⟩ :=
        newLine_of_awaits awaits false fun impossible => Bool.noConfusion impossible
      have deep := (blockIndent_within within false true).column_le
      have one := @begins_entry _ anchors _ _ deep opens _ key'
        (value.kinds anchors true (!isSimpleKey anchors key))
        (fun page => writeNode anchors page ⟨some (place.blockIndent false), true, false⟩ value)
        fun inner awaits fresh => fresh ▸ puts_node anchors value here (.inside deep) awaits
      have more := follows_entries anchors rest keys later deep one.used
      have block := (one.append more).puts awaits fun impossible => Bool.noConfusion impossible
      rw [writeEntries, Outline.entryKinds]
      exact block.1 (outer_lt_blockIndent place)

theorem follows_items (anchors : List Nat) {level column : Nat} {page : Page} :
    (items : List Outline) → (∀ item ∈ items, item.Fits anchors level) → column + 2 ≤ 2 * level →
      page.fresh = false →
      page.Follows column (Outline.itemKinds anchors items) (writeItems anchors page column items)
  | [], fits, deep, used => by
      rw [writeItems, Outline.itemKinds]
      exact follows_nil used
  | item :: rest, fits, deep, used => by
      obtain ⟨here, later⟩ := List.forall_mem_cons.mp fits
      have opens := (@newLine_breaks page column (.inl used)).2
      have awaits := awaits_behind opens ['-'] rfl false false
      have one := puts_node anchors item here (.inside deep) awaits
      have fresh : ((page.newLine column).indicator ['-'] true true).fresh = true := by
        simp [opens.fresh]
      rw [fresh] at one
      rw [writeItems, Outline.itemKinds]
      exact ((begins_item opens one).append (follows_items anchors rest later deep one.used)).follows
        used

theorem follows_entries (anchors : List Nat) {level column : Nat} {page : Page} :
    (entries : List (Outline × Outline)) → (∀ entry ∈ entries, entry.1.KeyFits level) →
      (∀ entry ∈ entries, entry.2.Fits anchors level) → column + 2 ≤ 2 * level →
      page.fresh = false →
      page.Follows column (Outline.entryKinds anchors entries)
        (writeEntries anchors page column entries)
  | [], keys, fits, deep, used => by
      rw [writeEntries, Outline.entryKinds]
      exact follows_nil used
  | (key, value) :: rest, keys, fits, deep, used => by
      obtain ⟨key', keys⟩ := List.forall_mem_cons.mp keys
      obtain ⟨here, later⟩ := List.forall_mem_cons.mp fits
      have opens := (@newLine_breaks page column (.inl used)).2
      have one := @begins_entry _ anchors _ _ deep opens _ key'
        (value.kinds anchors true (!isSimpleKey anchors key))
        (fun page => writeNode anchors page ⟨some column, true, false⟩ value)
        fun inner awaits fresh => fresh ▸ puts_node anchors value here (.inside deep) awaits
      rw [writeEntries, Outline.entryKinds]
      exact (one.append (follows_entries anchors rest keys later deep one.used)).follows used

end

end Page

end SecretFill.Yaml
