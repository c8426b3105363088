import SecretFill.Proofs.Yaml.Lexeme
import SecretFill.Yaml.Writing
/-!
Scalars as they are written and read. Whatever style a scalar is written in, a scan reads it as one
token of that style; its text is the one that was written, but for the line break that single quotes
lose.
-/

namespace SecretFill.Yaml

open Layout

def Starts (body : List Code) : Prop :=
  ∃ first later, body = first :: later ∧ first ≠ '#' ∧ first ≠ byteOrderMark ∧
    isGapOrEnd first = false

theorem Starts.nonempty {body : List Code} (starts : Starts body) : body ≠ [] := by
  obtain ⟨first, later, rfl, -⟩ := starts
  exact List.cons_ne_nil _ _

theorem Starts.opens {body : List Code} (starts : Starts body) (rest : List Code) :
    Token.Scan.Opens (body ++ rest) := by
  obtain ⟨first, later, rfl, comment, mark, solid⟩ := starts
  intro character here
  cases here
  obtain ⟨-, space, -, line⟩ := Token.isGapOrEnd_eq_false_iff.mp solid
  exact ⟨space, comment, mark, line⟩

theorem Starts.append {body : List Code} (starts : Starts body) (more : List Code) :
    Starts (body ++ more) := by
  obtain ⟨first, later, rfl, comment, mark, solid⟩ := starts
  exact ⟨first, later ++ more, rfl, comment, mark, solid⟩

/-! ### Plain scalars -/

theorem plainBody_opens {indent : Nat} {body text : List Code} (shape : PlainBody indent body text) :
    ∃ word later rest, PlainWord word ∧ body = word ++ later ∧ text = word ++ rest ∧
      (∀ character ∈ later.head?, isGapOrEnd character = true) ∧
      (∀ character ∈ rest.head?, character = ' ') := by
  cases shape with
  | word whole =>
      refine ⟨body, [], [], whole, (List.append_nil _).symm, (List.append_nil _).symm, ?_, ?_⟩
      · simp
      · simp
  | spaces count whole more free =>
      refine ⟨_, _, _, whole, rfl, rfl, ?_, ?_⟩
      · rintro character here
        cases here
        rfl
      · rintro character here
        cases here
        rfl
  | fold whole more free =>
      refine ⟨_, _, _, whole, rfl, rfl, ?_, ?_⟩
      · rintro character here
        cases here
        rfl
      · rintro character here
        cases here
        rfl

theorem startsWithMarker_append {marker : Code} (known : marker = '-' ∨ marker = '.')
    (rest : List Code) : startsWithMarker (marker :: marker :: marker :: rest) = true := by
  rcases known with rfl | rfl
  · rfl
  · rfl

/-- A word that is followed by a gap or a colon is no document marker unless it begins with one. -/
theorem not_opensWithMarker {word later : List Code} (whole : PlainWord word)
    (free : startsWithMarker word = false)
    (ends : ∀ character ∈ later.head?, isGapOrEnd character = true ∨ character = ':') :
    Token.opensWithMarker (word ++ later) = false := by
  have absent (marker : Code) (known : marker = '-' ∨ marker = '.') :
      ¬ Cursor.atMarker ⟨word ++ later, ⟨0, 0, 0⟩⟩ marker = true := by
    have outside : later.headD endMark ≠ marker := by
      intro same
      cases later with
      | nil => rcases known with rfl | rfl <;> cases same
      | cons character later =>
          cases same
          rcases ends _ rfl with gap | colon
          · rcases known with rfl | rfl <;> cases gap
          · rcases known with rfl | rfl <;> cases colon
    intro there
    simp only [Cursor.atMarker, Bool.and_eq_true, beq_iff_eq] at there
    obtain ⟨⟨⟨first, second⟩, third⟩, -⟩ := there
    -- What follows a short word is no part of a marker, so the word would have to be one.
    rcases word with _ | ⟨one, _ | ⟨two, _ | ⟨three, word⟩⟩⟩
    · exact whole.nonempty rfl
    · apply outside
      cases later <;> exact second
    · apply outside
      cases later <;> exact third
    · have one' : one = marker := first
      have two' : two = marker := second
      have three' : three = marker := third
      rw [one', two', three', startsWithMarker_append known] at free
      cases free
  show (Cursor.atMarker _ _ || Cursor.atMarker _ _) = false
  rw [Bool.eq_false_iff.mpr (absent '-' (.inl rfl)), Bool.eq_false_iff.mpr (absent '.' (.inr rfl))]
  rfl

theorem startsWithMarker_of_append {word : List Code} (rest : List Code)
    (free : startsWithMarker (word ++ rest) = false) : startsWithMarker word = false := by
  cases opened : startsWithMarker word with
  | false => rfl
  | true =>
      have longer : startsWithMarker (word ++ rest) = true := by
        unfold startsWithMarker at opened
        split at opened
        · rfl
        · rfl
        · cases opened
      rw [longer] at free
      cases free

def EndsPlain (tail : List Code) : Prop :=
  ∀ character ∈ tail.head?, isGapOrEnd character = true ∨ character = ':'

theorem startsPlain {indent : Nat} {body text tail : List Code} (shape : PlainBody indent body text)
    (allowed : allowsPlain text = true) (ends : EndsPlain tail) :
    ∃ first later, body ++ tail = first :: later ∧ Token.Scan.StartsPlain first later := by
  have clear : hasIndicator text = false := by
    simp only [allowsPlain, Bool.not_eq_true', Bool.or_eq_false_iff] at allowed
    exact allowed.2
  simp only [hasIndicator, Bool.or_eq_false_iff] at clear
  obtain ⟨⟨⟨marker, opening⟩, -⟩, -⟩ := clear
  obtain ⟨word, later, rest, whole, rfl, rfl, gap, space⟩ := plainBody_opens shape
  have unmarked := @not_opensWithMarker word (later ++ tail) whole
      (startsWithMarker_of_append rest marker)
    (by
      intro character here
      cases later with
      | nil => exact ends character here
      | cons other later => exact .inl (gap character here))
  obtain ⟨first, others, rfl⟩ := List.exists_cons_of_ne_nil whole.nonempty
  simp only [List.cons_append, opensWithIndicator, Bool.or_eq_false_iff] at opening
  refine ⟨first, others ++ (later ++ tail), by simp, whole.solid first List.mem_cons_self, opening.1,
    ?_, unmarked⟩
  intro known
  cases others with
  | cons second others =>
      exact whole.solid second (List.mem_cons_of_mem _ List.mem_cons_self)
  | nil =>
      -- A word of one such character would be an indicator.
      have apart : isGapOrEnd (rest.headD endMark) = true := by
        cases rest with
        | nil => rfl
        | cons character rest =>
            rw [List.headD_cons, space character rfl]
            rfl
      rw [List.nil_append, apart] at opening
      rcases known with rfl | rfl | rfl
      · exact absurd opening.2 (by decide)
      · exact absurd opening.2 (by decide)
      · exact absurd rfl whole.ended

theorem starts_plainBody {indent : Nat} {body text : List Code} (shape : PlainBody indent body text)
    (allowed : allowsPlain text = true) : Starts body := by
  have clear : opensWithIndicator text = false := by
    simp only [allowsPlain, hasIndicator, Bool.not_eq_true', Bool.or_eq_false_iff] at allowed
    exact allowed.2.1.1.2
  obtain ⟨word, later, rest, whole, rfl, rfl, -, -⟩ := plainBody_opens shape
  obtain ⟨first, others, rfl⟩ := List.exists_cons_of_ne_nil whole.nonempty
  refine ⟨first, others ++ later, rfl, ?_, (whole.tame first List.mem_cons_self).2,
    whole.solid first List.mem_cons_self⟩
  rintro rfl
  cases clear

/-! ### Texts -/

def rereadText (text : List Code) : List Code :=
  if allowsSingleQuotes text then Page.readQuoted text else text

theorem rereadText_line {text : List Code} (line : isMultiline text = false) :
    rereadText text = text := by
  have kept : Page.lostBreak ∉ text := by
    intro member
    have breaks : isMultiline text = true := List.any_eq_true.mpr ⟨_, member, rfl⟩
    rw [line] at breaks
    cases breaks
  unfold rereadText
  split
  · exact (Page.readQuoted_eq_iff text).mpr kept
  · rfl

theorem line_of_allowsPlain {text : List Code} (allowed : allowsPlain text = true) :
    isMultiline text = false := by
  simp only [allowsPlain, Bool.not_eq_true', Bool.or_eq_false_iff] at allowed
  exact allowed.1.1.2

/-- A scalar that is written without its tag. -/
structure Layout.Scalar.Clear (scalar : Layout.Scalar) : Prop where
  inLines : scalar.inLines = false
  kept : scalar.tag = Tag.text ∨
    scalar.plainKeepsTag = true ∧ allowsPlain scalar.text = true ∧ scalar.text ≠ []

inductive Layout.Scalar.Suits (scalar : Layout.Scalar) : Style → Prop
  | plain (nonempty : scalar.text ≠ []) (allowed : allowsPlain scalar.text = true)
      (kept : scalar.plainKeepsTag = true) : Suits scalar .plain
  | single (text : scalar.tag = Tag.text) (allowed : allowsSingleQuotes scalar.text = true) :
      Suits scalar .singleQuoted
  | double (text : scalar.tag = Tag.text) (refused : allowsSingleQuotes scalar.text = false) :
      Suits scalar .doubleQuoted

theorem style_key {scalar : Layout.Scalar} (clear : scalar.Clear) (nonempty : scalar.text ≠ [])
    (line : isMultiline scalar.text = false) : scalar.style true = scalar.style false := by
  simp only [Scalar.style, clear.inLines, line, List.isEmpty_eq_false_iff.mpr nonempty,
    Bool.false_eq_true, if_false, Bool.or_self, Bool.and_false]

theorem suits_style {scalar : Layout.Scalar} (clear : scalar.Clear) :
    scalar.Suits (scalar.style false) := by
  simp only [Scalar.style, clear.inLines, Bool.false_and, Bool.false_eq_true, if_false,
    Bool.not_false, Bool.and_true]
  rcases clear.kept with text | ⟨kept, allowed, nonempty⟩
  · split
    · next plain =>
        rw [Bool.and_eq_true, Bool.or_eq_true] at plain
        -- An empty plain scalar would be read as null, so no text is written so.
        have nonempty : scalar.text ≠ [] := by
          intro empty
          have kept := plain.1
          rw [Scalar.plainKeepsTag, empty, text] at kept
          exact absurd kept (by decide)
        refine .plain nonempty ?_ plain.1
        rcases plain.2 with empty | allowed
        · exact absurd (List.isEmpty_iff.mp empty) nonempty
        · exact allowed
    · split
      · next allowed =>
          refine .single text ?_
          rcases Bool.or_eq_true_iff.mp allowed with empty | allowed
          · rw [List.isEmpty_iff.mp empty]
            rfl
          · exact allowed
      · next refused =>
          rw [Bool.or_eq_true, not_or, Bool.not_eq_true, Bool.not_eq_true] at refused
          exact .double text refused.2
  · rw [kept, allowed, Bool.or_true, Bool.and_self, if_pos rfl]
    exact .plain nonempty allowed kept

theorem Layout.Scalar.Suits.showsTag {scalar : Layout.Scalar} {style : Style}
    (suits : scalar.Suits style) : scalar.showsTag style = false := by
  cases suits with
  | plain nonempty allowed kept => simp only [Scalar.showsTag, if_true, kept, Bool.not_true]
  | single text allowed => simp [Scalar.showsTag, text]
  | double text refused => simp [Scalar.showsTag, text]

def Layout.Scalar.kind (scalar : Layout.Scalar) : Token.Kind :=
  .scalar (Text.ofList (rereadText scalar.text)) (scalar.style false)

/-- A scan inside a block reads some text as tokens of these kinds, if the next line is not deeper
than the block. -/
def Reads (core : List Code) (column : Nat) (outer : Int) (keyAllowed : Bool)
    (kinds : List Token.Kind) : Prop :=
  ∀ (count : Nat) (rest : List Code), Token.Scan.Opens rest → Token.Ends outer count rest →
    ∀ (before : List Token.Kind) (indents : List Int),
      (⟨core ++ Code.char '\n' :: (List.replicate count (Code.char ' ') ++ rest), column, before,
          outer, indents,
          keyAllowed⟩ : Token.Spot).Leads
        ⟨rest, count, before ++ kinds, outer, indents, true⟩

/-- What is written on a page behind a gap is read as some tokens of a block. A key may begin there
at the start of a line or behind an indicator. -/
structure Page.Puts (page : Page) (outer : Int) (kinds : List Token.Kind) (after : Page) : Prop where
  used : after.fresh = false
  core : ∃ between crossed core, Token.Scan.Gap between crossed ∧
    (between ≠ [] ↔ page.spaced = false) ∧ Starts core ∧ page.Adds (between ++ core) after ∧
    Reads core (columnOver page.column between) outer (page.fresh || crossed) kinds

theorem Page.gap_spaceBefore (page : Page) : Token.Scan.Gap page.spaceBefore false := by
  unfold spaceBefore
  split
  · exact .spaces 0
  · exact .spaces 1

theorem Page.spaceBefore_ne_nil (page : Page) : page.spaceBefore ≠ [] ↔ page.spaced = false := by
  cases spaced : page.spaced with
  | false => simp [spaceBefore, spaced]
  | true => simp [spaceBefore, spaced]

theorem Page.column_le_spaceBefore (page : Page) :
    page.column ≤ columnOver page.column page.spaceBefore := by
  unfold spaceBefore
  split
  · exact Nat.le_refl _
  · exact Nat.le_succ _

theorem reads_of_leads {core : List Code} {column : Nat} {outer : Int} {keyAllowed : Bool}
    {kind : Token.Kind}
    (leads : ∀ (between rest : List Code) (crossed : Bool) (before : List Token.Kind)
      (indents : List Int), Token.Scan.Gap between crossed → between ≠ [] → Token.Scan.Opens rest →
      (⟨core ++ (between ++ rest), column, before, outer, indents, keyAllowed⟩ : Token.Spot).Leads
        ⟨rest, columnOver (columnOver column core) between, before ++ [kind], outer, indents,
          crossed⟩) :
    Reads core column outer keyAllowed [kind] := by
  intro count rest opens ends before indents
  have arrives := leads _ rest _ before indents (.line count) (List.cons_ne_nil _ _) opens
  rwa [columnOver_break rfl] at arrives

/-! ### Scalars as values -/

namespace Writing

/-- The block that a node is in, as a scan knows it. -/
def Place.outer (place : Place) : Int :=
  match place.indent with
  | none => -1
  | some indent => indent

theorem outer_lt_scalarIndent (place : Place) : place.outer < place.scalarIndent := by
  obtain ⟨indent, inMapping, isKey⟩ := place
  cases indent with
  | none => exact (by decide : (-1 : Int) < (2 : Nat))
  | some indent => exact (by omega : (indent : Int) < ((indent + 2 : Nat) : Int))

theorem scalarIndent_pos (place : Place) : 0 < place.scalarIndent := by
  obtain ⟨indent, inMapping, isKey⟩ := place
  cases indent with
  | none => exact Nat.zero_lt_succ _
  | some indent => exact Nat.zero_lt_succ _

theorem writeScalar_suits {scalar : Layout.Scalar} {page : Page} {place : Place} {style : Style}
    (same : scalar.style place.isKey = style) (suits : scalar.Suits style) :
    writeScalar page place scalar = page.scalar scalar.text style place.scalarIndent (!place.isKey)
      place.indent.isNone := by
  simp only [writeScalar, same, suits.showsTag, Bool.false_eq_true, if_false]

theorem puts_scalar (page : Page) {place : Place} {scalar : Layout.Scalar} (clear : scalar.Clear)
    (value : place.isKey = false) (foldable : Page.Foldable place.scalarIndent scalar.text)
    (deep : place.outer < page.column) :
    page.Puts place.outer [scalar.kind] (writeScalar page place scalar) := by
  have suits := suits_style clear
  have below := outer_lt_scalarIndent place
  have positive := scalarIndent_pos place
  have column := page.column_le_spaceBefore
  have inside : place.outer ≤ columnOver page.column page.spaceBefore := by omega
  have apart : (page.fresh || false) = true → place.outer ≠ columnOver page.column page.spaceBefore := by
    intro allowed
    omega
  rw [writeScalar_suits (congrArg scalar.style value) suits, value, Scalar.kind]
  generalize scalar.style false = style at suits ⊢
  -- Each style has its own shape on the page, and is read back from that shape.
  cases suits with
  | plain nonempty allowed kept =>
      obtain ⟨body, shape, -, adds, used⟩ := page.adds_plain place.scalarIndent (!false)
        place.indent.isNone nonempty allowed
      refine ⟨used, _, _, body, page.gap_spaceBefore, page.spaceBefore_ne_nil,
        starts_plainBody shape allowed, adds, ?_⟩
      · intro count rest opens ends before indents
        have starts := @startsPlain _ _ _
            ('\n' :: (List.replicate count (Code.char ' ') ++ rest)) shape allowed
          (fun character here => .inl (Option.some.inj here ▸ rfl))
        have leads := @Token.leads_plain before _ _ indents _ rest _ below positive _ _ shape
          count starts inside apart opens ends
        rwa [← rereadText_line (line_of_allowsPlain allowed)] at leads
  | single text allowed =>
      obtain ⟨body, shape, adds, used, -⟩ := page.adds_singleQuoted positive (!false) allowed
      refine ⟨used, _, _, _, page.gap_spaceBefore, page.spaceBefore_ne_nil,
        ⟨_, _, rfl, by decide, by decide, by decide⟩, adds, ?_⟩
      refine reads_of_leads fun between rest crossed before indents gap filled opens => ?_
      have leads := @Token.leads_single before _ _ indents _ between rest crossed _ positive
        _ _ shape inside apart gap filled opens
      rw [rereadText, if_pos allowed]
      exact leads
  | double text refused =>
      obtain ⟨body, shape, adds, used, -⟩ := page.adds_doubleQuoted (!false) fun _ => foldable
      refine ⟨used, _, _, _, page.gap_spaceBefore, page.spaceBefore_ne_nil,
        ⟨_, _, rfl, by decide, by decide, by decide⟩, adds, ?_⟩
      refine reads_of_leads fun between rest crossed before indents gap filled opens => ?_
      have leads := @Token.leads_double before _ _ indents _ between rest crossed _ positive
        _ _ shape inside apart gap opens
      rw [rereadText, refused, if_neg Bool.false_ne_true]
      exact leads

/-! ### Scalars as keys -/

structure KeyForm (column : Nat) (form : List Code) (kind : Token.Kind) : Prop where
  starts : Starts form
  line : ∀ character ∈ form, isLineBreak character = false
  short : form.length ≤ 1024
  turns : ∀ (after : List Code), isGapOrEnd (after.headD endMark) = true →
    ∀ (before : List Token.Kind) (outer : Int) (indents : List Int), outer ≤ column →
    ∀ scan : Token.Scan, scan.At ⟨form ++ Code.char ':' :: after, column, before, outer, indents, true⟩ →
      ∃ token : Token, token.kind = kind ∧ scan.turn = .ok (scan.keyed token form (':' :: after))

theorem keyForm_plain (column : Nat) {text : List Code} (shape : PlainBody (column + 2) text text)
    (allowed : allowsPlain text = true) (short : text.length ≤ 1024) :
    KeyForm column text (.scalar (Text.ofList text) .plain) := by
  obtain ⟨rest, -⟩ := Page.plainRest_of_allowsPlain allowed
  refine ⟨starts_plainBody shape allowed, fun character member => ?_, short, ?_⟩
  · rw [isLineBreak_eq_of_not_special (rest.shown character member)]
    exact rest.line character member
  · intro after gap before outer indents inside scan there
    have starts := @startsPlain _ _ _ (':' :: after) shape allowed
      (fun character here => .inr (Option.some.inj here).symm)
    have below : outer < ((column + 2 : Nat) : Int) := by omega
    exact Token.turn_plain there inside below (Nat.zero_lt_succ _) shape starts gap

theorem keyForm_single (column : Nat) {text : List Code}
    (shape : QuotedBody (column + 2) (Page.doubleQuotes text) text) (shown : Page.Inline text)
    (short : (Page.doubleQuotes text).length + 2 ≤ 1024) :
    KeyForm column ('\'' :: (Page.doubleQuotes text ++ [Code.char '\'']))
      (.scalar (Text.ofList text) .singleQuoted) := by
  refine ⟨⟨_, _, rfl, by decide, by decide, by decide⟩, ?_, ?_, ?_⟩
  · intro character member
    simp only [List.mem_cons, List.mem_append, List.not_mem_nil, or_false] at member
    rcases member with rfl | inside | rfl
    · rfl
    · exact (Page.inline_doubleQuotes shown).line character inside
    · rfl
  · simp only [List.length_cons, List.length_append, List.length_nil]
    omega
  · intro after gap before outer indents inside scan there
    refine @Token.turn_quoted _ _ _ _ _ false _ _ _ there inside ⟨_, rfl⟩ fun mark => ?_
    have read := @Token.quoted_single _ (Nat.zero_lt_succ _) _ _ shape (':' :: after) (by simp) mark
    rw [List.cons_append, List.append_assoc]
    exact ⟨_, read⟩

theorem keyForm_double (column : Nat) {text : List Code}
    (shape : EscapedBody (column + 2) (Page.escapedText text) text)
    (short : (Page.escapedText text).length + 2 ≤ 1024) :
    KeyForm column ('"' :: (Page.escapedText text ++ [Code.char '"']))
      (.scalar (Text.ofList text) .doubleQuoted) := by
  refine ⟨⟨_, _, rfl, by decide, by decide, by decide⟩, ?_, ?_, ?_⟩
  · intro character member
    simp only [List.mem_cons, List.mem_append, List.not_mem_nil, or_false] at member
    rcases member with rfl | inside | rfl
    · rfl
    · exact (Page.inline_escapedText text).line character inside
    · rfl
  · simp only [List.length_cons, List.length_append, List.length_nil]
    omega
  · intro after gap before outer indents inside scan there
    refine @Token.turn_quoted _ _ _ _ _ true _ _ _ there inside ⟨_, rfl⟩ fun mark => ?_
    have read := @Token.quoted_double _ (Nat.zero_lt_succ _) _ _ shape (':' :: after) mark
    rw [List.cons_append, List.append_assoc]
    exact ⟨_, read⟩

theorem length_doubleQuotes_le (text : List Code) :
    (Page.doubleQuotes text).length ≤ 2 * text.length := by
  induction text with
  | nil => exact Nat.le_refl _
  | cons character rest ih =>
      simp only [Page.doubleQuotes, List.flatMap_cons, List.length_append, List.length_cons] at ih ⊢
      split
      · simp only [List.length_cons, List.length_nil]
        omega
      · simp only [List.length_cons, List.length_nil]
        omega

theorem puts_key {page : Page} {column : Nat} (start : page.Opens column) {scalar : Layout.Scalar}
    (clear : scalar.Clear) (nonempty : scalar.text ≠ []) (line : isMultiline scalar.text = false)
    (short : scalar.text.length < keyWidth)
    (fits : allowsSingleQuotes scalar.text = false →
      (Page.escapedText scalar.text).length + 2 ≤ 1024) :
    ∃ form, KeyForm column form scalar.kind ∧
      page.Adds (form ++ [Code.char ':'])
        ((writeScalar page ⟨some column, true, true⟩ scalar).indicator [':'] false) := by
  have suits := suits_style clear
  have breaks : ∀ character ∈ scalar.text, isWriterBreak character = false := by
    simpa [isMultiline] using line
  rw [@writeScalar_suits scalar page ⟨some column, true, true⟩ _ (style_key clear nonempty line) suits,
    Scalar.kind, rereadText_line line]
  generalize scalar.style false = style at suits ⊢
  have close (written : Page) := @Page.adds_indicator_close written [':'] false (by decide)
  have bare : page.spaceBefore = [] := by
    rw [Page.spaceBefore, start.spaced]
    rfl
  -- On one line nothing is folded, so the body is the text, but for its escapes.
  cases suits with
  | plain filled allowed kept =>
      obtain ⟨body, shape, same, adds, -⟩ := page.adds_plain (column + 2) false false nonempty allowed
      rw [same rfl] at shape adds
      rw [bare] at adds
      exact ⟨_, keyForm_plain column shape allowed (by unfold keyWidth at short; omega),
        adds.trans (close _)⟩
  | single text allowed =>
      obtain ⟨body, shape, adds, -, same⟩ :=
        page.adds_singleQuoted (Nat.zero_lt_succ (column + 1)) false allowed
      have kept : Page.readQuoted scalar.text = scalar.text := by
        have reread := rereadText_line line
        rwa [rereadText, if_pos allowed] at reread
      rw [kept, same rfl breaks] at shape
      rw [bare, same rfl breaks] at adds
      have shown := allowed
      simp only [allowsSingleQuotes, Bool.not_eq_true', Bool.or_eq_false_iff, List.any_eq_false,
        Bool.not_eq_true] at shown
      have visible := inline_of_not_special shown.2 breaks
      have bound := length_doubleQuotes_le scalar.text
      exact ⟨_, keyForm_single column shape visible (by unfold keyWidth at short; omega),
        adds.trans (close _)⟩
  | double text refused =>
      obtain ⟨body, shape, adds, -, same⟩ := @Page.adds_doubleQuoted page scalar.text (column + 2) false
        (fun impossible => Bool.noConfusion impossible)
      rw [same rfl] at shape
      rw [bare, same rfl] at adds
      exact ⟨_, keyForm_double column shape (fits refused), adds.trans (close _)⟩

end Writing

end SecretFill.Yaml
