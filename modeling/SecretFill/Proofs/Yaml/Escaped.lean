import SecretFill.Proofs.Decimal.Digits
import SecretFill.Proofs.Yaml.Quoted
/-!
Double quotes. Every text can be written between them, and a reader takes it back as it is: what is
not shown is escaped, and a line that ends in a backslash goes on behind the indentation of the next
one. A space at the start of a line has a backslash of its own.
-/

namespace SecretFill.Yaml

open SecretFill.Decimal

namespace Token

/-! ### Escapes -/

theorem peekAt_append (text rest : List Code) (mark : Mark) :
    (List.range text.length).map (Cursor.peekAt ⟨text ++ rest, mark⟩) = text := by
  refine List.ext_getElem (by simp) fun place _ inside => ?_
  simp only [List.getElem_map, List.getElem_range, Cursor.peekAt]
  rw [List.getD_eq_getElem?_getD, List.getElem?_append_left inside, List.getElem?_eq_getElem inside,
    Option.getD_some]

theorem escapedCharacter_toNat (character : Code) :
    escapedCharacter character.toNat = .ok character := by
  simp only [escapedCharacter, if_pos character.toNat_lt, Code.ofNat_toNat]

theorem letterEscape_read : ∀ entry ∈ Page.letterEscapes,
    escapes.lookup entry.2 = some entry.1 ∧ (entry.2 ≠ '\r' ∧ entry.2 ≠ byteOrderMark) ∧
      isLineBreak entry.2 = false ∧ isAcceptable entry.2 = true := by
  decide

theorem upperHexDigit_shown {digit : Nat} (small : digit < 16) :
    let character := (Code.char (Nat.digitChar digit)).toUpper
    isHexDigit character = true ∧ (character ≠ '\r' ∧ character ≠ byteOrderMark) ∧
      isLineBreak character = false ∧ isAcceptable character = true := by
  revert digit
  decide

/-- What stands behind the backslash of an escape, and what a reader makes of it. -/
structure EscapeRead (character : Code) (code : List Code) : Prop where
  tame : Tame code
  shown : Page.Inline code
  read : ∀ start rest mark,
    escape start ⟨code ++ rest, mark⟩ = .ok ([character], ⟨rest, mark.across code⟩)

theorem escapeRead_letter {character letter : Code}
    (found : Page.letterEscapes.lookup character = some letter) : EscapeRead character [letter] := by
  obtain ⟨before, after, split, -⟩ := List.lookup_eq_some_iff.mp found
  have member : (character, letter) ∈ Page.letterEscapes := by simp [split]
  obtain ⟨back, tame, shown⟩ := letterEscape_read _ member
  refine ⟨tame_cons.mpr ⟨tame, tame_nil⟩, ?_, fun start rest mark => ?_⟩
  · exact List.forall_mem_singleton.mpr shown
  · simp only [escape, List.singleton_append, Cursor.peek, List.headD_cons, back,
      Cursor.next_cons tame, Mark.across_cons, Mark.across_nil]

theorem escapeRead_digits {character letter : Code} {width : Nat}
    (plain : escapes.lookup letter = none) (wide : escapeWidth? letter = some width)
    (tame : letter ≠ '\r' ∧ letter ≠ byteOrderMark)
    (here : isLineBreak letter = false ∧ isAcceptable letter = true)
    (positive : 0 < width) (fits : character.toNat < 16 ^ width) :
    EscapeRead character (letter :: upperHexDigits width character.toNat) := by
  have shown : ∀ digit ∈ upperHexDigits width character.toNat,
      isHexDigit digit = true ∧ (digit ≠ '\r' ∧ digit ≠ byteOrderMark) ∧
        isLineBreak digit = false ∧ isAcceptable digit = true := by
    intro part member
    obtain ⟨digit, small, rfl⟩ := mem_upperHexDigits member
    exact upperHexDigit_shown small
  have digitsTame : Tame (upperHexDigits width character.toNat) :=
    fun digit member => (shown digit member).2.1
  -- There are as many digits as the letter says, so all are read and no more.
  have size := length_upperHexDigits positive fits
  refine ⟨tame_cons.mpr ⟨tame, digitsTame⟩, ?_, fun start rest mark => ?_⟩
  · exact List.forall_mem_cons.mpr ⟨here, fun digit member => (shown digit member).2.2⟩
  · have digits : (List.range width).map
        (Cursor.peekAt ⟨upperHexDigits width character.toNat ++ rest, mark.past letter⟩) =
          upperHexDigits width character.toNat := by
      have known := peekAt_append (upperHexDigits width character.toNat) rest (mark.past letter)
      rwa [size] at known
    have all : (upperHexDigits width character.toNat).find? (fun digit => !isHexDigit digit) = none := by
      refine List.find?_eq_none.mpr fun digit member => ?_
      simp [(shown digit member).1]
    have passed : Cursor.advance width
        ⟨upperHexDigits width character.toNat ++ rest, mark.past letter⟩ =
          ⟨rest, (mark.past letter).across (upperHexDigits width character.toNat)⟩ := by
      have known := Cursor.advance_append digitsTame rest (mark.past letter)
      rwa [size] at known
    simp only [escape, List.cons_append, Cursor.peek, List.headD_cons, plain, wide,
      Cursor.next_cons tame, digits, all, ofDigits_upperHexDigits, escapedCharacter_toNat, passed,
      Mark.across_cons]
    rfl

theorem escapeRead (character : Code) :
    ∃ code, Page.escape character = Code.char '\\' :: code ∧ EscapeRead character code := by
  unfold Page.escape
  cases found : Page.letterEscapes.lookup character with
  | some letter => exact ⟨[letter], rfl, escapeRead_letter found⟩
  | none =>
      have valid := character.toNat_lt
      dsimp only
      split
      · next small =>
          refine ⟨_, rfl, escapeRead_digits rfl rfl (by decide) (by decide) (by decide) ?_⟩
          exact Nat.lt_of_le_of_lt small (by decide)
      · split
        · next small =>
            refine ⟨_, rfl, escapeRead_digits rfl rfl (by decide) (by decide) (by decide) ?_⟩
            exact Nat.lt_of_le_of_lt small (by decide)
        · refine ⟨_, rfl, escapeRead_digits rfl rfl (by decide) (by decide) (by decide) ?_⟩
          exact Nat.lt_trans valid (by decide)

end Token

/-! ### Bodies -/

/-- What is written between double quotes for a text, with further lines at a column. -/
inductive EscapedBody (indent : Nat) : List Code → List Code → Prop
  | nil : EscapedBody indent [] []
  | shown {character : Code} {body text : List Code} (shown : Page.isShown character = true)
      (apart : character ≠ ' ') (more : EscapedBody indent body text) :
      EscapedBody indent (character :: body) (character :: text)
  | space {body text : List Code} (more : EscapedBody indent body text) :
      EscapedBody indent (' ' :: body) (' ' :: text)
  | escaped {body text : List Code} (character : Code) (more : EscapedBody indent body text) :
      EscapedBody indent (Page.escape character ++ body) (character :: text)
  /-- A space at the start of a line. -/
  | marked {body text : List Code} (more : EscapedBody indent body text) :
      EscapedBody indent ('\\' :: ' ' :: body) (' ' :: text)
  | fold {body text : List Code} (firm : Token.Firm (body ++ [Code.char '"']))
      (more : EscapedBody indent body text) :
      EscapedBody indent (Code.char '\\' :: Code.char '\n' ::
          (List.replicate indent (Code.char ' ') ++ body)) text

theorem shown_cases {character : Code} (shown : Page.isShown character = true) :
    (character ≠ '"' ∧ character ≠ '\\') ∧ (character ≠ '\r' ∧ character ≠ byteOrderMark) ∧
      isLineBreak character = false ∧ (character ≠ ' ' → isGapOrEnd character = false) := by
  have apart (other : Code) (hidden : Page.isShown other = false) : character ≠ other := by
    rintro rfl
    rw [hidden] at shown
    cases shown
  have line : isLineBreak character = false := by
    cases breaks : isLineBreak character with
    | false => rfl
    | true =>
        simp only [isLineBreak, Bool.or_eq_true, beq_iff_eq] at breaks
        rcases breaks with (((feed | single) | next) | separator) | paragraph
        · exact absurd feed (apart '\n' rfl)
        · exact absurd single (apart '\r' rfl)
        · exact absurd (Code.toNat_inj.mp next) (apart '\u0085' rfl)
        · exact absurd (Code.toNat_inj.mp separator) (apart '\u2028' rfl)
        · exact absurd (Code.toNat_inj.mp paragraph) (apart '\u2029' rfl)
  refine ⟨⟨apart '"' rfl, apart '\\' rfl⟩, ⟨apart '\r' rfl, apart byteOrderMark rfl⟩, line, ?_⟩
  exact fun space => Token.isGapOrEnd_eq_false_iff.mpr ⟨apart '\t' rfl, space, apart endMark rfl, line⟩

theorem Page.inline_of_shown {word : List Code}
    (shown : ∀ character ∈ word, Page.isShown character = true) : Page.Inline word := by
  intro character member
  refine ⟨(shown_cases (shown character member)).2.2.1, ?_⟩
  have visible := shown character member
  simp only [Page.isShown, Bool.and_eq_true, Bool.or_eq_true, Bool.not_eq_true', decide_eq_true_eq]
    at visible
  obtain ⟨⟨whole, basic | plane⟩, -⟩ := visible
  · simp [isAcceptable, whole, basic]
  · simp [isAcceptable, whole, plane]

/-- What does not begin with a space is not read as the end of a gap. -/
theorem EscapedBody.firm {indent : Nat} {body text : List Code}
    (shape : EscapedBody indent body text) (apart : text.head? ≠ some ' ') (rest : List Code) :
    Token.Firm (body ++ Code.char '"' :: rest) := by
  cases shape with
  | nil => exact ⟨'"', rest, rfl, rfl⟩
  | shown shown solid more => exact ⟨_, _, rfl, (shown_cases shown).2.2.2 solid⟩
  | space more => exact absurd rfl apart
  | escaped character more =>
      obtain ⟨code, same, -⟩ := Token.escapeRead character
      rw [same]
      exact ⟨'\\', _, rfl, rfl⟩
  | marked more => exact ⟨'\\', _, rfl, rfl⟩
  | fold firm more => exact ⟨'\\', _, rfl, rfl⟩

namespace Token

theorem quotedBody_shown {start : Mark} {bound rest text : List Code} {last : Cursor}
    (bounding : Code) {character : Code} {mark : Mark} (shown : Page.isShown character = true)
    (apart : character ≠ ' ')
    (more : QuotedRead true start bound ⟨rest, mark.past character⟩ text last) :
    QuotedRead true start (bounding :: bound) ⟨character :: rest, mark⟩ (character :: text) last := by
  obtain ⟨⟨quote, backslash⟩, tame, -, solid⟩ := shown_cases shown
  have notQuote : (character == '"') = false := beq_eq_false_iff_ne.mpr quote
  have notBackslash : (character == '\\') = false := beq_eq_false_iff_ne.mpr backslash
  simp only [QuotedRead, quotedBody, Cursor.peek, List.headD_cons, solid apart, notQuote,
    notBackslash, Bool.false_eq_true, if_false, if_true, Cursor.next_cons tame]
  rw [more]
  rfl

theorem quotedBody_backslash {start : Mark} {bound rest read text : List Code} {next last : Cursor}
    (bounding : Code) {mark : Mark}
    (passed : escape start ⟨rest, mark.past '\\'⟩ = .ok (read, next))
    (more : QuotedRead true start bound next text last) :
    QuotedRead true start (bounding :: bound) ⟨'\\' :: rest, mark⟩ (read ++ text) last := by
  have here : Cursor.next ⟨'\\' :: rest, mark⟩ = ⟨rest, mark.past '\\'⟩ := rfl
  have gap : isGapOrEnd '\\' = false := rfl
  simp only [QuotedRead, quotedBody, Cursor.peek, List.headD_cons, gap, here, passed,
    Bool.false_eq_true, if_false, if_true]
  show (quotedBody true start bound next >>= _) = _
  rw [more]
  rfl

theorem escape_line {indent : Nat} (positive : 0 < indent) {rest : List Code} (firm : Firm rest)
    (start mark : Mark) :
    escape start ⟨'\n' :: (List.replicate indent (Code.char ' ') ++ rest), mark⟩ =
      .ok ([], ⟨rest, mark.across ('\n' :: List.replicate indent (Code.char ' '))⟩) := by
  have enough : ([] : List Code).length <
      (endMark :: (List.replicate indent (Code.char ' ') ++ rest)).length := by
    simp
  exact quotedBreaks_read positive (by simp) firm start enough (mark.past '\n')

theorem quotedBody_spaces {start : Mark} {rest text : List Code} {last : Mark → Cursor} {least : Nat}
    (firm : Firm rest)
    (direct : ∀ (bound : List Code) (mark : Mark), least < bound.length →
      QuotedRead true start bound ⟨rest, mark⟩ text (last mark))
    (count : Nat) {bound : List Code} (enough : count + least < bound.length) (mark : Mark) :
    QuotedRead true start bound ⟨List.replicate count (Code.char ' ') ++ rest, mark⟩
      (List.replicate count (Code.char ' ') ++ text)
          (last (mark.across (List.replicate count (Code.char ' ')))) := by
  cases count with
  | zero => exact direct bound mark (by omega)
  | succ count =>
      obtain ⟨bounding, bound, rfl⟩ := List.exists_cons_of_length_pos (Nat.zero_lt_of_lt enough)
      rw [List.length_cons] at enough
      exact quotedBody_gap bounding rfl (quotedGap_spaces firm start mark)
        (direct bound _ (by omega))

theorem escapedBody_read {indent : Nat} (positive : 0 < indent) {body text : List Code}
    (shape : EscapedBody indent body text) (rest : List Code) (start : Mark) (count : Nat)
    {bound : List Code} (enough : count + body.length < bound.length) (mark : Mark) :
    QuotedRead true start bound ⟨List.replicate count (Code.char ' ') ++
        (body ++ Code.char '"' :: rest), mark⟩
      (List.replicate count (Code.char ' ') ++ text)
      ⟨rest, ((mark.across (List.replicate count (Code.char ' '))).across body).past '"'⟩ := by
  -- A reader takes spaces in a row at once, so those before the body are part of the induction.
  induction shape generalizing count bound mark with
  | nil =>
      refine @quotedBody_spaces start ('"' :: rest) [] (fun mark => ⟨rest, mark.past '"'⟩) 0
        ⟨'"', rest, rfl, rfl⟩ (fun bound mark enough => ?_) count _ enough mark
      obtain ⟨bounding, bound, rfl⟩ := List.exists_cons_of_length_pos enough
      exact quotedBody_close true start bound rest bounding mark (.inl rfl)
  | @space body text more ih =>
      rw [List.length_cons] at enough
      have longer : count + 1 + body.length < bound.length := by omega
      have read := ih (count + 1) longer mark
      rw [List.replicate_succ', List.append_assoc, List.append_assoc, Mark.across_append] at read
      exact read
  | @shown character body text shown apart more ih =>
      have firm : Firm (character :: body ++ Code.char '"' :: rest) :=
        ⟨character, _, rfl, (shown_cases shown).2.2.2 apart⟩
      refine @quotedBody_spaces start _ (character :: text)
        (fun mark => ⟨rest, (mark.across (character :: body)).past '"'⟩) _
        firm (fun bound mark enough => ?_) count _ enough mark
      obtain ⟨bounding, bound, rfl⟩ := List.exists_cons_of_length_pos (Nat.zero_lt_of_lt enough)
      simp only [List.length_cons] at enough
      exact quotedBody_shown bounding shown apart (ih 0 (by omega) (mark.past character))
  | @escaped body text character more ih =>
      obtain ⟨code, same, escapes⟩ := escapeRead character
      rw [same] at enough ⊢
      refine @quotedBody_spaces start _ (character :: text)
        (fun mark => ⟨rest, (mark.across (Code.char '\\' :: code ++ body)).past '"'⟩) _
        ⟨'\\', _, rfl, rfl⟩ (fun bound mark enough => ?_) count _ enough mark
      obtain ⟨bounding, bound, rfl⟩ := List.exists_cons_of_length_pos (Nat.zero_lt_of_lt enough)
      simp only [List.length_cons, List.length_append] at enough
      have shorter : 0 + body.length < bound.length := by omega
      have read := quotedBody_backslash bounding
        (escapes.read start (body ++ Code.char '"' :: rest) (mark.past '\\')) (ih 0 shorter _)
      rw [← List.append_assoc] at read
      rw [List.cons_append, Mark.across_cons, Mark.across_append]
      exact read
  | @marked body text more ih =>
      refine @quotedBody_spaces start _ (' ' :: text)
        (fun mark => ⟨rest, (mark.across ('\\' :: ' ' :: body)).past '"'⟩) _
        ⟨'\\', _, rfl, rfl⟩ (fun bound mark enough => ?_) count _ enough mark
      obtain ⟨bounding, bound, rfl⟩ := List.exists_cons_of_length_pos (Nat.zero_lt_of_lt enough)
      simp only [List.length_cons] at enough
      have shorter : 0 + body.length < bound.length := by omega
      have read : escape start ⟨' ' :: (body ++ Code.char '"' :: rest), mark.past '\\'⟩ =
          .ok ([' '], ⟨body ++ Code.char '"' :: rest, (mark.past '\\').past ' '⟩) := rfl
      exact quotedBody_backslash bounding read (ih 0 shorter _)
  | @fold body text firm more ih =>
      refine @quotedBody_spaces start
        (Code.char '\\' :: Code.char '\n' :: (List.replicate indent (Code.char ' ') ++ body) ++
            Code.char '"' :: rest) text (fun mark => ⟨rest,
        (mark.across (Code.char '\\' :: Code.char '\n' ::
            (List.replicate indent (Code.char ' ') ++ body))).past '"'⟩) _
        ⟨'\\', _, rfl, rfl⟩ (fun bound mark enough => ?_) count _ enough mark
      obtain ⟨bounding, bound, rfl⟩ := List.exists_cons_of_length_pos (Nat.zero_lt_of_lt enough)
      simp only [List.length_cons, List.length_append] at enough
      have firm : Firm (body ++ Code.char '"' :: rest) := by
        obtain ⟨first, later, split, solid⟩ := firm
        cases body with
        | nil => exact ⟨'"', rest, rfl, rfl⟩
        | cons character body =>
            cases split
            exact ⟨first, _, rfl, solid⟩
      have shorter : 0 + body.length < bound.length := by omega
      have read := quotedBody_backslash bounding (escape_line positive firm start (mark.past '\\'))
        (ih 0 shorter _)
      have apart : Code.char '\\' :: Code.char '\n' :: (List.replicate indent (Code.char ' ') ++ body) ++
          Code.char '"' :: rest =
          Code.char '\\' :: Code.char '\n' ::
              (List.replicate indent (Code.char ' ') ++ (body ++ Code.char '"' :: rest)) := by simp
      rw [apart, Mark.across_cons, Mark.across_cons, Mark.across_append]
      exact read

theorem quoted_double {indent : Nat} (positive : 0 < indent) {body text : List Code}
    (shape : EscapedBody indent body text) (rest : List Code) (mark : Mark) :
    quoted true ⟨'"' :: (body ++ Code.char '"' :: rest), mark⟩ =
      .ok (⟨.scalar (Text.ofList text) .doubleQuoted, mark,
        mark.across ('"' :: (body ++ [Code.char '"']))⟩,
            ⟨rest, mark.across ('"' :: (body ++ [Code.char '"']))⟩) := by
  have enough : 0 + body.length < (endMark :: '"' :: (body ++ Code.char '"' :: rest)).length := by
    simp only [List.length_cons, List.length_append]
    omega
  have read : quotedBody true mark _ ⟨body ++ Code.char '"' :: rest, mark.past '"'⟩ = _ :=
    escapedBody_read positive shape rest mark 0 enough (mark.past '"')
  have opened : Cursor.next ⟨'"' :: (body ++ Code.char '"' :: rest), mark⟩ =
      ⟨body ++ Code.char '"' :: rest, mark.past '"'⟩ := rfl
  simp only [quoted, opened, read, Mark.across_cons, Mark.across_append, Mark.across_nil]
  rfl

end Token

/-! ### Writing -/

namespace Page

open Layout

def escapedText (text : List Code) : List Code :=
  text.flatMap fun character => if isShown character then [character] else escape character

/-- Whether a text may be broken into lines at a column. Behind the width of a line every space
begins a new line, also one that has a backslash of its own after an escape. -/
def Foldable (indent : Nat) (text : List Code) : Prop :=
  indent < lineWidth ∨ hasPair (fun character => !isShown character) (· == ' ') text = false

theorem Foldable.tail {indent : Nat} {character : Code} {text : List Code}
    (foldable : Foldable indent (character :: text)) : Foldable indent text :=
  foldable.imp_right (hasPair_suffix [character])

def spaceMark (marked : Bool) : List Code := if marked then ['\\'] else []

theorem escapedBody_word {indent : Nat} {word body text : List Code}
    (shown : ∀ character ∈ word, isShown character = true) (more : EscapedBody indent body text) :
    EscapedBody indent (word ++ body) (word ++ text) := by
  induction word with
  | nil => exact more
  | cons character word ih =>
      obtain ⟨here, later⟩ := List.forall_mem_cons.mp shown
      by_cases space : character = ' '
      · subst space
        exact .space (ih later)
      · exact .shown here space (ih later)

theorem escapedBody_marked {indent : Nat} {word body text : List Code} {marked : Bool}
    (shown : ∀ character ∈ word, isShown character = true)
    (opens : marked = true → word.head? = some ' ') (more : EscapedBody indent body text) :
    EscapedBody indent (spaceMark marked ++ (word ++ body)) (word ++ text) := by
  cases marked with
  | false =>
      have written := escapedBody_word shown more
      exact written
  | true =>
      obtain ⟨word, rfl⟩ := List.head?_eq_some_iff.mp (opens rfl)
      exact .marked (escapedBody_word (List.forall_mem_cons.mp shown).2 more)

theorem escapedBody_fold {indent : Nat} {body text : List Code} {marked : Bool}
    (opens : marked = false → text.head? ≠ some ' ')
    (more : EscapedBody indent (spaceMark marked ++ body) text) :
    EscapedBody indent (Code.char '\\' :: Code.char '\n' ::
        (List.replicate indent (Code.char ' ') ++ (spaceMark marked ++ body)))
      text := by
  refine .fold ?_ more
  cases marked with
  | false => exact more.firm (opens rfl) []
  | true => exact ⟨'\\', _, rfl, rfl⟩

def breakLine (page : Page) (indent : Nat) (word : List Code) (marked : Bool) : Page :=
  let next := ((page.write (word ++ [Code.char '\\'])).newLine indent).inScalar
  if marked then next.write ['\\'] else next

theorem adds_breakLine (page : Page) (indent : Nat) (used : page.fresh = false) {word : List Code}
    (shown : ∀ character ∈ word, isShown character = true) (marked : Bool) :
    page.Adds (word ++ (Code.char '\\' :: '\n' ::
        (List.replicate indent (Code.char ' ') ++ spaceMark marked)))
        (page.breakLine indent word marked) ∧
      (page.breakLine indent word marked).fresh = false ∧
      (marked = true → (page.breakLine indent word marked).column = indent + 1) := by
  have line : Inline (word ++ [Code.char '\\']) :=
    inline_append.mpr ⟨inline_of_shown shown, by decide⟩
  obtain ⟨broken, column, -, -⟩ := @newLine_breaks (page.write (word ++ [Code.char '\\'])) indent
      (.inl used)
  have start : page.Adds _ ((page.write (word ++ [Code.char '\\'])).newLine indent).inScalar :=
    ((page.adds_write line).trans broken).flags rfl rfl
  cases marked with
  | false =>
      refine ⟨?_, rfl, fun impossible => Bool.noConfusion impossible⟩
      simpa [spaceMark, breakLine] using start
  | true =>
      have backslash : Inline ['\\'] := by decide
      have after := start.trans (adds_write _ backslash)
      refine ⟨?_, rfl, fun _ => congrArg (· + 1) column⟩
      simpa [spaceMark, breakLine] using after

theorem inline_escape (character : Code) : Inline (escape character) := by
  obtain ⟨code, same, read⟩ := Token.escapeRead character
  rw [same]
  exact List.forall_mem_cons.mpr ⟨by decide, read.shown⟩

theorem inline_escapedText (text : List Code) : Inline (escapedText text) := by
  intro part member
  obtain ⟨character, -, inside⟩ := List.mem_flatMap.mp member
  cases shown : isShown character with
  | true =>
      rw [shown, if_pos rfl] at inside
      exact inline_of_shown (List.forall_mem_singleton.mpr shown) part inside
  | false =>
      rw [shown, if_neg Bool.false_ne_true] at inside
      exact inline_escape character part inside

/-- One step of the writer: what it holds back goes on a line of its own before a character that is
shown, or grows by it, or goes before a character that is escaped, with or without a new line behind
it. -/
theorem writeDouble_cases (indent : Nat) (split first : Bool) (page : Page)
    (pending rest : List Code) (character : Code) :
    isShown character = true ∧
        (split = true ∧ lineWidth < page.column + pending.length ∧
            writeDouble indent split first page pending (character :: rest) =
              writeDouble indent split false
                (page.breakLine indent pending.reverse (character == ' ')) [character] rest ∨
          writeDouble indent split first page pending (character :: rest) =
            writeDouble indent split false page (character :: pending) rest) ∨
      isShown character = false ∧
        (split = true ∧
            writeDouble indent split first page pending (character :: rest) =
              writeDouble indent split false
                ((page.write (pending.reverse ++ escape character)).breakLine indent []
                  (rest.headD endMark == ' ')) [] rest ∨
          writeDouble indent split first page pending (character :: rest) =
            writeDouble indent split false (page.write (pending.reverse ++ escape character)) []
              rest) := by
  -- A shown character waits for those after it; any other is written at once.
  cases here : isShown character with
  | true =>
      refine .inl ⟨rfl, ?_⟩
      cases folds : (split && !first && !rest.isEmpty &&
          decide (lineWidth < page.column + pending.length) &&
          (character == ' ' || pending.isEmpty)) with
      | true =>
          have step : writeDouble indent split first page pending (character :: rest) =
              writeDouble indent split false
                (page.breakLine indent pending.reverse (character == ' ')) [character] rest := by
            simp [writeDouble, here, folds, breakLine]
          simp only [Bool.and_eq_true, decide_eq_true_eq] at folds
          obtain ⟨⟨⟨⟨splits, -⟩, -⟩, far⟩, -⟩ := folds
          exact .inl ⟨splits, far, step⟩
      | false => exact .inr (by simp [writeDouble, here, folds])
  | false =>
      refine .inr ⟨rfl, ?_⟩
      cases folds : (split && !first && !rest.isEmpty &&
          decide (lineWidth < (page.write (pending.reverse ++ escape character)).column - 1) &&
          (character == ' ' || List.isEmpty ([] : List Code))) with
      | true =>
          have step : writeDouble indent split first page pending (character :: rest) =
              writeDouble indent split false
                ((page.write (pending.reverse ++ escape character)).breakLine indent []
                  (rest.headD endMark == ' ')) [] rest := by
            simp only [writeDouble, here, Bool.false_eq_true, if_false, folds, if_true, breakLine,
              List.reverse_nil]
          simp only [Bool.and_eq_true] at folds
          obtain ⟨⟨⟨⟨splits, -⟩, -⟩, -⟩, -⟩ := folds
          exact .inl ⟨splits, step⟩
      | false =>
          exact .inr (by simp only [writeDouble, here, Bool.false_eq_true, if_false, folds])

/-- What the writer holds back, perhaps behind a backslash that waits for its space. If nothing
stands behind the backslash yet then the line is short, so that no new one is begun between them. -/
structure Held (page : Page) (pending rest : List Code) (marked : Bool) : Prop where
  used : page.fresh = false
  shown : ∀ character ∈ pending, isShown character = true
  opens : marked = true → (pending.reverse ++ rest).head? = some ' '
  near : marked = true → pending = [] → page.column ≤ lineWidth

structure Shows (indent : Nat) (split marked : Bool) (word rest body : List Code) : Prop where
  shape : EscapedBody indent (spaceMark marked ++ body) (word ++ rest)
  plain : split = false → body = word ++ escapedText rest

section Steps

variable {page : Page} {pending rest word body : List Code} {marked after split : Bool}
  {character : Code} {indent : Nat}

theorem Held.shows (held : page.Held pending rest marked) :
    ∀ character ∈ pending.reverse, isShown character = true :=
  fun character member => held.shown character (List.mem_reverse.mp member)

theorem Held.leads (held : page.Held pending rest marked) (nonempty : pending ≠ [])
    (mark : marked = true) : pending.reverse.head? = some ' ' := by
  obtain ⟨first, others, same⟩ :=
    List.exists_cons_of_ne_nil (mt List.reverse_eq_nil_iff.mp nonempty)
  have opened := held.opens mark
  rw [same] at opened ⊢
  exact opened

theorem Held.leads_of_far (held : page.Held pending rest marked)
    (far : lineWidth < page.column + pending.length) (mark : marked = true) :
    pending.reverse.head? = some ' ' := by
  refine held.leads ?_ mark
  rintro rfl
  have close := held.near mark rfl
  rw [List.length_nil] at far
  omega

theorem Held.leads_of_escaped (held : page.Held pending (character :: rest) marked)
    (here : isShown character = false) (mark : marked = true) :
    pending.reverse.head? = some ' ' := by
  refine held.leads ?_ mark
  rintro rfl
  have space := held.opens mark
  rw [Option.some.inj space] at here
  cases here

theorem Held.push (held : page.Held pending (character :: rest) marked)
    (here : isShown character = true) : page.Held (character :: pending) rest marked :=
  ⟨held.used, List.forall_mem_cons.mpr ⟨here, held.shown⟩, by simpa using held.opens,
    fun _ impossible => absurd impossible (List.cons_ne_nil _ _)⟩

theorem held_nothing (used : page.fresh = false) : page.Held [] rest false :=
  ⟨used, List.forall_mem_nil _, fun impossible => Bool.noConfusion impossible,
    fun impossible => Bool.noConfusion impossible⟩

theorem Shows.push (here : isShown character = true)
    (more : Shows indent split marked (word ++ [character]) rest body) :
    Shows indent split marked word (character :: rest) body := by
  refine ⟨by simpa using more.shape, fun one => ?_⟩
  simpa [escapedText, here] using more.plain one

theorem Shows.escaped (shown : ∀ character ∈ word, isShown character = true)
    (filled : marked = true → word.head? = some ' ') (here : isShown character = false)
    (more : Shows indent split false [] rest body) :
    Shows indent split marked word (character :: rest) ((word ++ escape character) ++ body) := by
  have shape := escapedBody_marked shown filled (EscapedBody.escaped character more.shape)
  refine ⟨by simpa [spaceMark] using shape, fun one => ?_⟩
  simp [more.plain one, escapedText, here]

theorem Shows.broken (shown : ∀ character ∈ word, isShown character = true)
    (filled : marked = true → word.head? = some ' ') (splits : split = true)
    (opens : after = false → character ≠ ' ')
    (more : Shows indent split after [character] rest body) :
    Shows indent split marked word (character :: rest)
      ((word ++ (Code.char '\\' :: '\n' ::
          (List.replicate indent (Code.char ' ') ++ spaceMark after))) ++ body) := by
  have shape := escapedBody_marked shown filled
    (escapedBody_fold (fun apart => by simpa using opens apart) more.shape)
  exact ⟨by simpa using shape, fun one => Bool.noConfusion (splits.symm.trans one)⟩

theorem Shows.escaped_broken (shown : ∀ character ∈ word, isShown character = true)
    (filled : marked = true → word.head? = some ' ') (splits : split = true)
    (opens : after = false → rest.head? ≠ some ' ') (more : Shows indent split after [] rest body) :
    Shows indent split marked word (character :: rest)
      ((word ++ escape character) ++
        (Code.char '\\' :: Code.char '\n' ::
            (List.replicate indent (Code.char ' ') ++ spaceMark after)) ++ body) := by
  have shape := escapedBody_marked shown filled
    (EscapedBody.escaped character (escapedBody_fold opens more.shape))
  exact ⟨by simpa using shape, fun one => Bool.noConfusion (splits.symm.trans one)⟩

end Steps

theorem headD_eq_space {rest : List Code} :
    (rest.headD endMark == ' ') = true ↔ rest.head? = some ' ' := by
  cases rest with
  | nil => decide
  | cons next rest => simp

theorem adds_writeDouble {indent : Nat} (split : Bool) (rest : List Code) (first : Bool)
    (page : Page) (pending : List Code) (marked : Bool) (held : page.Held pending rest marked)
    (foldable : split = true → Foldable indent rest) :
    ∃ body, page.Adds body (writeDouble indent split first page pending rest) ∧
      Shows indent split marked pending.reverse rest body := by
  -- On what is left of the text; what the writer holds back is part of the invariant.
  induction rest generalizing first page pending marked with
  | nil =>
      have opens := held.opens
      rw [List.append_nil] at opens
      have shape := escapedBody_marked held.shows opens (@EscapedBody.nil indent)
      refine ⟨pending.reverse, page.adds_write (inline_of_shown held.shows), ?_,
        fun _ => (List.append_nil _).symm⟩
      rwa [List.append_nil] at shape ⊢
  | cons character rest ih =>
      have later : split = true → Foldable indent rest := fun splits => (foldable splits).tail
      rcases writeDouble_cases indent split first page pending rest character with
        ⟨here, ⟨splits, far, step⟩ | step⟩ | ⟨here, folds⟩
      · obtain ⟨broken, used, -⟩ :=
          page.adds_breakLine indent held.used held.shows (character == ' ')
        obtain ⟨body, adds, shows⟩ := ih false _ [character] (character == ' ')
          ⟨used, List.forall_mem_singleton.mpr here, by simp, by simp⟩ later
        rw [step]
        exact ⟨_, broken.trans adds,
          shows.broken held.shows (held.leads_of_far far) splits (by simp)⟩
      · obtain ⟨body, adds, shows⟩ :=
          ih false page (character :: pending) marked (held.push here) later
        rw [List.reverse_cons] at shows
        rw [step]
        exact ⟨body, adds, shows.push here⟩
      · have line := inline_append.mpr ⟨inline_of_shown held.shows, inline_escape character⟩
        have start := page.adds_write line
        have filled := held.leads_of_escaped here
        rcases folds with ⟨splits, step⟩ | step
        · obtain ⟨broken, used, column⟩ :=
            @adds_breakLine (page.write (pending.reverse ++ escape character)) indent held.used []
              (List.forall_mem_nil _) (rest.headD endMark == ' ')
          -- Only here a backslash may wait for its space on a line that is already too long.
          have near : (rest.headD endMark == ' ') = true → indent < lineWidth := by
            intro mark
            obtain ⟨behind, rfl⟩ := List.head?_eq_some_iff.mp (headD_eq_space.mp mark)
            refine (foldable splits).resolve_right fun apart => ?_
            simp [hasPair, here] at apart
          obtain ⟨body, adds, shows⟩ := ih false _ [] (rest.headD endMark == ' ')
            ⟨used, List.forall_mem_nil _, headD_eq_space.mp,
              fun mark _ => Nat.le_trans (Nat.le_of_eq (column mark)) (near mark)⟩ later
          have opens : (rest.headD endMark == ' ') = false → rest.head? ≠ some ' ' :=
            fun apart space => Bool.noConfusion (apart.symm.trans (headD_eq_space.mpr space))
          rw [step]
          exact ⟨_, (start.trans broken).trans adds,
            shows.escaped_broken held.shows filled splits opens⟩
        · obtain ⟨body, adds, shows⟩ := ih false
            (page.write (pending.reverse ++ escape character)) [] false (held_nothing held.used)
            later
          rw [step]
          exact ⟨_, start.trans adds, shows.escaped held.shows filled here⟩

theorem adds_doubleQuoted (page : Page) {text : List Code} {indent : Nat} (split : Bool)
    (foldable : split = true → Foldable indent text) :
    ∃ body, EscapedBody indent body text ∧
      page.Adds (page.spaceBefore ++ Code.char '"' :: (body ++ [Code.char '"']))
          (page.doubleQuoted text indent split) ∧
      (page.doubleQuoted text indent split).fresh = false ∧
      (split = false → body = escapedText text) := by
  have opened := @adds_indicator page ['"'] false (by decide)
  obtain ⟨body, adds, ⟨shape, same⟩⟩ := adds_writeDouble split text true
    (page.indicator ['"'] true) [] false (held_nothing (by simp)) foldable
  have closed := @adds_indicator_close
    (writeDouble indent split true (page.indicator ['"'] true) [] text) ['"'] false (by decide)
  refine ⟨body, shape, ?_, by simp [doubleQuoted], same⟩
  have together := (opened.trans adds).trans closed
  simp only [List.append_assoc, List.singleton_append] at together
  exact together

end Page

end SecretFill.Yaml
