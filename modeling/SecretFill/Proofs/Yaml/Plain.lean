import SecretFill.Proofs.Yaml.Page
import SecretFill.Yaml.Token.Scalars
/-!
Plain scalars. What is written for a text differs from it in single spaces that have become new
lines (`PlainBody`), and a reader makes them spaces again.
-/

namespace SecretFill.Yaml

structure PlainWord (word : List Code) : Prop where
  nonempty : word ≠ []
  tame : Tame word
  solid : ∀ character ∈ word, isGapOrEnd character = false
  /-- A colon before a gap would end the scalar. -/
  ended : word.getLast? ≠ some ':'

theorem PlainWord.head? {word : List Code} (whole : PlainWord word) (rest : List Code) :
    (word ++ rest).head? = word.head? := by
  obtain ⟨first, later, rfl⟩ := List.exists_cons_of_ne_nil whole.nonempty
  rfl

theorem PlainWord.line {word : List Code} (whole : PlainWord word) :
    ∀ character ∈ word, isLineBreak character = false := by
  intro character member
  have solid := whole.solid character member
  simp only [isGapOrEnd, isSpaceOrEnd, isBreakOrEnd, Bool.or_eq_false_iff] at solid
  exact solid.2.2.2

/-- What is written for a text as a plain scalar with further lines at a column. -/
inductive PlainBody (indent : Nat) : List Code → List Code → Prop
  | word {word : List Code} (whole : PlainWord word) : PlainBody indent word word
  | spaces {word body text : List Code} (count : Nat) (whole : PlainWord word)
      (more : PlainBody indent body text) (free : text.head? ≠ some '#') :
      PlainBody indent (word ++ (List.replicate (count + 1) (Code.char ' ') ++ body))
        (word ++ (List.replicate (count + 1) (Code.char ' ') ++ text))
  | fold {word body text : List Code} (whole : PlainWord word) (more : PlainBody indent body text)
      (free : text.head? ≠ some '#') :
      PlainBody indent (word ++ (Code.char '\n' :: List.replicate indent (Code.char ' ') ++ body))
          (word ++ Code.char ' ' :: text)

namespace Token

def StopsPlain (rest : List Code) : Prop :=
  ∀ character later, rest = character :: later →
    isGapOrEnd character = true ∨ character = ':' ∧ isGapOrEnd (later.headD endMark) = true

theorem plainRun_append {word rest : List Code}
    (solid : ∀ character ∈ word, isGapOrEnd character = false)
    (ended : word.getLast? ≠ some ':') (stops : StopsPlain rest) :
    plainRun false (word ++ rest) = word := by
  induction word with
  | nil =>
      cases rest with
      | nil => rfl
      | cons character later =>
          have ends : endsPlain false character later = true := by
            rcases stops character later rfl with gap | ⟨colon, gap⟩
            · simp only [endsPlain, gap, Bool.true_or]
            · subst colon
              simp only [endsPlain, gap, beq_self_eq_true, Bool.true_or, Bool.and_self,
                Bool.or_true]
          simp only [List.nil_append, plainRun, ends, if_true]
  | cons character word ih =>
      obtain ⟨here, solid⟩ := List.forall_mem_cons.mp solid
      have goes : endsPlain false character (word ++ rest) = false := by
        simp only [endsPlain, here, Bool.false_or, Bool.false_and, Bool.or_false]
        -- Behind a colon in the word comes a character of the word, which is no gap.
        cases word with
        | nil =>
            have apart : character ≠ ':' := fun same => ended (by rw [same]; rfl)
            rw [beq_eq_false_iff_ne.mpr apart, Bool.false_and]
        | cons next word =>
            have solid := solid next List.mem_cons_self
            simp only [List.cons_append, List.headD_cons, solid, Bool.and_false]
      have later : word.getLast? ≠ some ':' := by
        cases word with
        | nil => simp
        | cons next word => simpa using ended
      simp only [List.cons_append, plainRun, goes, Bool.false_eq_true, if_false, ih solid later]

/-! ### Gaps -/

def Solid (rest : List Code) : Prop :=
  ∀ character ∈ rest.head?, character ≠ ' ' ∧ isLineBreak character = false

theorem run_spaces {count : Nat} {rest : List Code} (solid : Solid rest) (mark : Mark) :
    Cursor.takeRun ⟨List.replicate count (Code.char ' ') ++ rest, mark⟩ (· == ' ') =
      (List.replicate count (Code.char ' '),
          ⟨rest, mark.across (List.replicate count (Code.char ' '))⟩) := by
  apply Cursor.takeRun_append (tame_spaces count)
  · intro character member
    rw [List.eq_of_mem_replicate member]
    rfl
  · cases rest with
    | nil => rfl
    | cons character later =>
        have apart := (solid character rfl).1
        simp [apart]

theorem peek_isLineBreak_of_solid {rest : List Code} (solid : Solid rest) (mark : Mark) :
    isLineBreak (Cursor.peek ⟨rest, mark⟩) = false := by
  cases rest with
  | nil => rfl
  | cons character later => exact (solid character rfl).2

theorem plainBreaks_spaces {count : Nat} {rest : List Code} (solid : Solid rest)
    {bound : List Code} (enough : count ≤ bound.length) (mark : Mark) :
    plainBreaks bound ⟨List.replicate count (Code.char ' ') ++ rest, mark⟩ =
      (some [], ⟨rest, mark.across (List.replicate count (Code.char ' '))⟩) := by
  induction count generalizing bound mark with
  | zero =>
      cases bound with
      | nil => rfl
      | cons _ bound =>
          have apart : (Cursor.peek ⟨rest, mark⟩ == ' ') = false := by
            cases rest with
            | nil => rfl
            | cons character later => exact beq_eq_false_iff_ne.mpr (solid character rfl).1
          simp only [List.replicate_zero, List.nil_append, plainBreaks, apart,
            peek_isLineBreak_of_solid solid mark, Bool.false_eq_true, if_false, Mark.across_nil]
  | succ count ih =>
      cases bound with
      | nil => cases enough
      | cons _ bound =>
          have space : (Cursor.peek ⟨List.replicate (count + 1) (Code.char ' ') ++ rest,
              mark⟩ == ' ') = true := rfl
          have tame : (' ' : Code) ≠ '\r' ∧ ' ' ≠ byteOrderMark := by decide
          simp only [plainBreaks, space, if_true]
          rw [List.replicate_succ, List.cons_append, Cursor.next_cons tame,
            ih (Nat.le_of_succ_le_succ enough), Mark.across_cons]

theorem plainGap_spaces {count : Nat} {rest : List Code} (solid : Solid rest) (mark : Mark) :
    plainGap ⟨List.replicate count (Code.char ' ') ++ rest, mark⟩ =
      ⟨List.replicate count (Code.char ' '), false,
          ⟨rest, mark.across (List.replicate count (Code.char ' '))⟩⟩ := by
  simp only [plainGap, run_spaces solid, peek_isLineBreak_of_solid solid, Bool.false_eq_true,
    if_false]

def opensWithMarker (rest : List Code) : Bool := Cursor.atDocumentMarker ⟨rest, ⟨0, 0, 0⟩⟩

theorem atDocumentMarker_eq (rest : List Code) (mark : Mark) :
    Cursor.atDocumentMarker ⟨rest, mark⟩ = opensWithMarker rest := rfl

theorem takeRun_break (rest : List Code) (mark : Mark) :
    Cursor.takeRun ⟨'\n' :: rest, mark⟩ (· == ' ') = ([], ⟨'\n' :: rest, mark⟩) := rfl

theorem lineBreak_feed (rest : List Code) (mark : Mark) :
    Cursor.lineBreak ⟨'\n' :: rest, mark⟩ = ([Code.char '\n'], ⟨rest, mark.past '\n'⟩) := rfl

theorem plainGap_line {count : Nat} {rest : List Code} (solid : Solid rest)
    (inside : opensWithMarker (List.replicate count (Code.char ' ') ++ rest) = false) (mark : Mark) :
    plainGap ⟨'\n' :: (List.replicate count (Code.char ' ') ++ rest), mark⟩ =
      ⟨[' '], true, ⟨rest, mark.across ('\n' :: List.replicate count (Code.char ' '))⟩⟩ := by
  have enough : count ≤ (List.replicate count (Code.char ' ') ++ rest).length := by simp
  have breaks : isLineBreak (Cursor.peek ⟨'\n' :: (List.replicate count (Code.char ' ') ++ rest),
      mark⟩) = true :=
    rfl
  simp only [plainGap, takeRun_break, breaks, if_true, lineBreak_feed, atDocumentMarker_eq, inside,
    Bool.false_eq_true, if_false, plainBreaks_spaces solid enough]
  rfl

theorem plainGap_marker {rest : List Code} (ends : opensWithMarker rest = true) (mark : Mark) :
    plainGap ⟨'\n' :: rest, mark⟩ = ⟨[], true, ⟨rest, mark.past '\n'⟩⟩ := by
  have breaks : isLineBreak (Cursor.peek ⟨'\n' :: rest, mark⟩) = true := rfl
  simp only [plainGap, takeRun_break, breaks, if_true, lineBreak_feed, atDocumentMarker_eq, ends]

theorem not_opensWithMarker_spaces {count : Nat} (some : 0 < count) (rest : List Code) :
    opensWithMarker (List.replicate count (Code.char ' ') ++ rest) = false := by
  cases count with
  | zero => cases some
  | succ count => rfl

/-! ### Stretches -/

/-- What may stand behind a plain scalar inside a block at a column: the colon of a key, or a line
that is not deeper than the block. -/
inductive PlainTail (indent : Int) : List Code → Prop
  | colon {rest : List Code} (gap : isGapOrEnd (rest.headD endMark) = true) :
      PlainTail indent (':' :: rest)
  | line {count : Nat} {rest : List Code} (solid : Solid rest)
      (ends : opensWithMarker (List.replicate count (Code.char ' ') ++ rest) = true ∨ rest = [] ∨
        (count : Int) ≤ indent) :
      PlainTail indent ('\n' :: (List.replicate count (Code.char ' ') ++ rest))

theorem PlainTail.stops {indent : Int} {tail : List Code} (ends : PlainTail indent tail) :
    StopsPlain tail := by
  intro character later same
  cases ends with
  | colon gap =>
      cases same
      exact .inr ⟨rfl, gap⟩
  | line solid _ =>
      cases same
      exact .inl rfl

theorem stopsPlain_spaces (count : Nat) (rest : List Code) :
    StopsPlain (List.replicate (count + 1) (Code.char ' ') ++ rest) := by
  intro character later same
  cases same
  exact .inl rfl

theorem stopsPlain_feed (rest : List Code) : StopsPlain ('\n' :: rest) := by
  intro character later same
  cases same
  exact .inl rfl

theorem solid_of_plainBody {indent : Nat} {body text : List Code} (shape : PlainBody indent body text)
    (rest : List Code) : Solid (body ++ rest) := by
  have opens {word : List Code} (whole : PlainWord word) (others : List Code) :
      Solid (word ++ others) := by
    obtain ⟨first, later, rfl⟩ := List.exists_cons_of_ne_nil whole.nonempty
    intro character here
    cases here
    have solid := whole.solid first List.mem_cons_self
    simp only [isGapOrEnd, isSpaceOrEnd, isBreakOrEnd, Bool.or_eq_false_iff] at solid
    exact ⟨by simpa using solid.2.1, solid.2.2.2⟩
  cases shape with
  | word whole => exact opens whole rest
  | spaces count whole more free =>
      rw [List.append_assoc]
      exact opens whole _
  | fold whole more free =>
      rw [List.append_assoc]
      exact opens whole _

theorem plainStretches_word {indent : Int} {word rest gap bound : List Code} {text : List Code}
    {stop mark : Mark} {crosses : Bool} {bounding : Code} (whole : PlainWord word)
    (stops : StopsPlain rest) (kept : gap ≠ []) (free : word.head? ≠ some '#')
    (deep : indent < mark.column) :
    plainStretches false (indent + 1) (bounding :: bound)
        ⟨text, stop, ⟨gap, crosses, ⟨word ++ rest, mark⟩⟩⟩ =
      plainStretches false (indent + 1) bound
        ⟨text ++ gap ++ word, mark.across word, plainGap ⟨rest, mark.across word⟩⟩ := by
  have run := plainRun_append whole.solid whole.ended stops
  obtain ⟨first, later, rfl⟩ := List.exists_cons_of_ne_nil whole.nonempty
  have comment : (Cursor.peek ⟨first :: later ++ rest, mark⟩ == '#') = false :=
    beq_eq_false_iff_ne.mpr fun same => free (congrArg Option.some same)
  have inside : decide (Int.ofNat mark.column < indent + 1) = false :=
    decide_eq_false (by rw [Int.ofNat_eq_natCast]; omega)
  have filled : gap.isEmpty = false := by
    cases gap with
    | nil => exact absurd rfl kept
    | cons _ _ => rfl
  have after := Cursor.advance_append whole.tame rest mark
  simp only [plainStretches, filled, comment, inside, run, Bool.not_false, Bool.and_false,
    Bool.or_self, Bool.false_eq_true, if_false, List.isEmpty_cons, after]

theorem plainStretches_tail {indent : Int} {tail : List Code} (ends : PlainTail indent tail)
    (bound text : List Code) (stop mark : Mark) :
    plainStretches false (indent + 1) bound ⟨text, stop, plainGap ⟨tail, mark⟩⟩ =
      ⟨text, stop, plainGap ⟨tail, mark⟩⟩ := by
  cases bound with
  | nil => rfl
  | cons bounding bound =>
      cases ends with
      | @colon rest gap =>
          have none : plainGap ⟨':' :: rest, mark⟩ = ⟨[], false, ⟨':' :: rest, mark⟩⟩ := rfl
          simp only [none, plainStretches, List.isEmpty_nil, Bool.true_or, if_true]
      | @line count rest solid ends =>
          cases marker : opensWithMarker (List.replicate count (Code.char ' ') ++ rest) with
          | true =>
              simp only [plainGap_marker marker, plainStretches, List.isEmpty_nil, Bool.true_or,
                if_true]
          | false =>
              rw [marker] at ends
              rw [plainGap_line solid marker]
              -- The scalar ends with the text, or because the next line is not deep enough.
              rcases ends with impossible | rfl | shallow
              · cases impossible
              · simp [plainStretches, plainRun]
              · have column : columnOver mark.column ('\n' :: List.replicate count (Code.char ' ')) =
                    count :=
                  columnOver_break rfl _ _
                have left : decide (Int.ofNat (mark.across
                    ('\n' :: List.replicate count (Code.char ' '))).column <
                    indent + 1) = true := by
                  rw [Mark.across_column, column]
                  exact decide_eq_true (by rw [Int.ofNat_eq_natCast]; omega)
                simp only [plainStretches, left, Bool.not_false, Bool.true_and, Bool.or_true, if_true]

theorem plainStretches_body {indent : Int} {deeper : Nat} {body text tail : List Code}
    (below : indent < deeper) (positive : 0 < deeper) (shape : PlainBody deeper body text)
    (ends : PlainTail indent tail) {before gap bound : List Code} {stop mark : Mark} {crosses : Bool}
    (kept : gap ≠ []) (free : text.head? ≠ some '#') (deep : indent < mark.column)
    (enough : (body ++ tail).length ≤ bound.length) :
    plainStretches false (indent + 1) bound
        ⟨before, stop, ⟨gap, crosses, ⟨body ++ tail, mark⟩⟩⟩ =
      ⟨before ++ gap ++ text, mark.across body, plainGap ⟨tail, mark.across body⟩⟩ := by
  -- A stretch takes one element of the bound and at least one character of the text.
  induction shape generalizing before gap bound stop mark crosses with
  | @word word whole =>
      have some := List.length_pos_iff.mpr whole.nonempty
      rw [List.length_append] at enough
      obtain ⟨bounding, bound, rfl⟩ := List.exists_cons_of_length_pos (l := bound) (by omega)
      rw [plainStretches_word whole ends.stops kept free deep, plainStretches_tail ends]
  | @spaces word body text count whole more free' ih =>
      have some := List.length_pos_iff.mpr whole.nonempty
      simp only [List.length_append, List.length_replicate] at enough
      obtain ⟨bounding, bound, rfl⟩ := List.exists_cons_of_length_pos (l := bound) (by omega)
      rw [List.length_cons] at enough
      rw [whole.head?] at free
      have further : indent < ((mark.across word).across
          (List.replicate (count + 1) (Code.char ' '))).column := by
        simp only [Mark.across_column, columnOver_line whole.line, columnOver_spaces]
        omega
      rw [List.append_assoc, List.append_assoc,
        plainStretches_word whole (stopsPlain_spaces count _) kept free deep,
        plainGap_spaces (solid_of_plainBody more tail),
        ih (by simp) free' further (by rw [List.length_append]; omega)]
      simp only [Mark.across_append, List.append_assoc]
  | @fold word body text whole more free' ih =>
      have some := List.length_pos_iff.mpr whole.nonempty
      simp only [List.length_append, List.length_cons, List.length_replicate] at enough
      obtain ⟨bounding, bound, rfl⟩ := List.exists_cons_of_length_pos (l := bound) (by omega)
      rw [List.length_cons] at enough
      rw [whole.head?] at free
      have further : indent < ((mark.across word).across
          ('\n' :: List.replicate deeper (Code.char ' '))).column := by
        rw [Mark.across_column, columnOver_break rfl]
        exact below
      have inside := not_opensWithMarker_spaces positive (body ++ tail)
      rw [List.append_assoc, List.cons_append, List.cons_append, List.append_assoc,
        plainStretches_word whole (stopsPlain_feed _) kept free deep,
        plainGap_line (solid_of_plainBody more tail) inside,
        ih (by simp) free' further (by rw [List.length_append]; omega)]
      simp only [Mark.across_append, Mark.across_cons, List.append_assoc, List.cons_append,
        List.nil_append]

/-- A reader at what is written for a text reads the text, and stops at the gap behind it. -/
theorem plain_body {indent : Int} {deeper : Nat} {body text tail : List Code}
    (below : indent < deeper) (positive : 0 < deeper) (shape : PlainBody deeper body text)
    (ends : PlainTail indent tail) {mark : Mark} (deep : indent ≤ mark.column) :
    plain false indent ⟨body ++ tail, mark⟩ =
      (⟨.scalar (Text.ofList text) .plain, mark, mark.across body⟩,
        (plainGap ⟨tail, mark.across body⟩).cursor,
        (plainGap ⟨tail, mark.across body⟩).crossesLine) := by
  -- The first word is read by itself, and the rest behind the gap that follows it.
  cases shape with
  | word whole =>
      have run := plainRun_append whole.solid whole.ended ends.stops
      have after := Cursor.advance_append whole.tame tail mark
      simp only [plain, run, after, plainStretches_tail ends]
  | @spaces word body text count whole more free =>
      have some := List.length_pos_iff.mpr whole.nonempty
      have further : indent < ((mark.across word).across
          (List.replicate (count + 1) (Code.char ' '))).column := by
        simp only [Mark.across_column, columnOver_line whole.line, columnOver_spaces]
        omega
      have run := plainRun_append whole.solid whole.ended (stopsPlain_spaces count (body ++ tail))
      have after := Cursor.advance_append whole.tame
        (List.replicate (count + 1) (Code.char ' ') ++ (body ++ tail)) mark
      have enough : (body ++ tail).length ≤
          (word ++ (List.replicate (count + 1) (Code.char ' ') ++ (body ++ tail))).length := by
        simp only [List.length_append]
        omega
      rw [List.append_assoc, List.append_assoc]
      simp only [plain, run, after, plainGap_spaces (solid_of_plainBody more tail)]
      rw [plainStretches_body below positive more ends (by simp) free further enough]
      simp only [Mark.across_append, List.append_assoc]
  | @fold word body text whole more free =>
      have further : indent < ((mark.across word).across
          ('\n' :: List.replicate deeper (Code.char ' '))).column := by
        rw [Mark.across_column, columnOver_break rfl]
        exact below
      have inside := not_opensWithMarker_spaces positive (body ++ tail)
      have run := plainRun_append whole.solid whole.ended
        (stopsPlain_feed (List.replicate deeper (Code.char ' ') ++ (body ++ tail)))
      have after := Cursor.advance_append whole.tame
        ('\n' :: (List.replicate deeper (Code.char ' ') ++ (body ++ tail))) mark
      have enough : (body ++ tail).length ≤
          (word ++ Code.char '\n' :: (List.replicate deeper (Code.char ' ') ++
              (body ++ tail))).length := by
        simp only [List.length_append, List.length_cons]
        omega
      rw [List.append_assoc, List.cons_append, List.cons_append, List.append_assoc]
      simp only [plain, run, after, plainGap_line (solid_of_plainBody more tail) inside]
      rw [plainStretches_body below positive more ends (by simp) free further enough]
      simp only [Mark.across_append, Mark.across_cons, List.append_assoc, List.cons_append,
        List.nil_append]

end Token

/-! ### Writing -/

namespace Layout

theorem ne_of_not_special {character other : Code} (shown : isSpecial character = false)
    (special : isSpecial other = true) : character ≠ other := by
  rintro rfl
  rw [shown] at special
  cases special

theorem tame_of_not_special {character : Code} (shown : isSpecial character = false) :
    character ≠ '\r' ∧ character ≠ byteOrderMark :=
  ⟨ne_of_not_special shown rfl, ne_of_not_special shown rfl⟩

/-- Of the line breaks that a reader knows a writer shows all but one. -/
theorem isLineBreak_eq_of_not_special {character : Code} (shown : isSpecial character = false) :
    isLineBreak character = isWriterBreak character := by
  have single : (character == '\r') = false :=
    beq_eq_false_iff_ne.mpr (tame_of_not_special shown).1
  simp only [isLineBreak, isWriterBreak, single, Bool.or_false]

theorem isAcceptable_of_not_special {character : Code} (shown : isSpecial character = false) :
    isAcceptable character = true := by
  simp only [isSpecial, Bool.or_eq_false_iff, Bool.not_eq_false', Bool.or_eq_true, Bool.and_eq_true,
    beq_iff_eq, decide_eq_true_eq] at shown
  obtain ⟨whole, (((rfl | basic) | next) | plane) | other⟩ := shown
  · rfl
  · simp [isAcceptable, whole, basic]
  · simp [isAcceptable, whole, next]
  · simp [isAcceptable, whole, plane]
  · simp [isAcceptable, whole, other]

theorem inline_of_not_special {word : List Code}
    (shown : ∀ character ∈ word, isSpecial character = false)
    (line : ∀ character ∈ word, isWriterBreak character = false) : Page.Inline word := by
  intro character member
  have here := shown character member
  rw [isLineBreak_eq_of_not_special here]
  exact ⟨line character member, isAcceptable_of_not_special here⟩

theorem isGapOrEnd_eq_of_not_special {character : Code} (shown : isSpecial character = false) :
    isGapOrEnd character = (character == ' ' || isWriterBreak character) := by
  have tab : (character == '\t') = false := beq_eq_false_iff_ne.mpr (ne_of_not_special shown rfl)
  have null : (character == endMark) = false :=
    beq_eq_false_iff_ne.mpr (ne_of_not_special shown rfl)
  simp only [isGapOrEnd, isSpaceOrEnd, isBreakOrEnd, tab, null, Bool.false_or,
    isLineBreak_eq_of_not_special shown]

theorem hasPair_append {first second : Code → Bool} {before after : Code} (rest : List Code)
    (one : first before = true) (two : second after = true) (text : List Code) :
    hasPair first second (text ++ before :: after :: rest) = true := by
  induction text with
  | nil => simp only [List.nil_append, hasPair, one, two, Bool.and_self, Bool.true_or]
  | cons character text ih =>
      cases text with
      | nil => exact Bool.or_eq_true_iff.mpr (.inr ih)
      | cons next text => exact Bool.or_eq_true_iff.mpr (.inr ih)

theorem hasPair_suffix {first second : Code → Bool} {text : List Code} (before : List Code)
    (free : hasPair first second (before ++ text) = false) : hasPair first second text = false := by
  induction before with
  | nil => exact free
  | cons character before ih =>
      apply ih
      cases together : before ++ text with
      | nil => rfl
      | cons next rest =>
          rw [List.cons_append, together, hasPair, Bool.or_eq_false_iff] at free
          exact free.2

end Layout

namespace Page

open Layout

structure PlainRest (text : List Code) : Prop where
  shown : ∀ character ∈ text, isSpecial character = false
  line : ∀ character ∈ text, isWriterBreak character = false
  colons : hasPair (· == ':') isGapOrEnd text = false
  comments : hasPair isGapOrEnd (· == '#') text = false
  colon : text.getLast? ≠ some ':'
  space : text.getLast? ≠ some ' '

theorem PlainRest.suffix {before text : List Code} (rest : PlainRest (before ++ text))
    (nonempty : text ≠ []) : PlainRest text := by
  have last : (before ++ text).getLast? = text.getLast? := by
    rw [List.getLast?_append, List.getLast?_eq_some_getLast nonempty, Option.some_or]
  refine ⟨fun character member => rest.shown character (List.mem_append_right _ member),
    fun character member => rest.line character (List.mem_append_right _ member),
    hasPair_suffix before rest.colons, hasPair_suffix before rest.comments, ?_, ?_⟩
  · exact last ▸ rest.colon
  · exact last ▸ rest.space

theorem plainWord_of_plainRest {word rest : List Code} (whole : PlainRest (word ++ rest))
    (nonempty : word ≠ []) (inside : ∀ character ∈ word, character ≠ ' ')
    (ended : rest = [] ∨ rest.head? = some ' ') : PlainWord word := by
  refine ⟨nonempty, ?_, ?_, ?_⟩
  · intro character member
    exact tame_of_not_special (whole.shown character (List.mem_append_left _ member))
  · intro character member
    rw [isGapOrEnd_eq_of_not_special (whole.shown character (List.mem_append_left _ member)),
      whole.line character (List.mem_append_left _ member),
      beq_eq_false_iff_ne.mpr (inside character member)]
    rfl
  · intro last
    -- A colon at the end of the word would stand before a space or at the end of all.
    obtain ⟨before, rfl⟩ := List.getLast?_eq_some_iff.mp last
    rcases ended with rfl | space
    · exact whole.colon (by simp)
    · obtain ⟨later, rfl⟩ : ∃ later, rest = Code.char ' ' :: later := by
        cases rest with
        | nil => cases space
        | cons first later => exact ⟨later, by rw [Option.some.inj space]⟩
      have pair : hasPair (· == ':') isGapOrEnd (before ++ Code.char ':' :: ' ' :: later) = true :=
        hasPair_append later rfl rfl before
      rw [List.append_assoc] at whole
      rw [List.cons_append, List.nil_append] at whole
      rw [whole.colons] at pair
      cases pair

/-- Behind a space of a plain text no comment begins. -/
theorem head?_of_plainRest {before rest : List Code}
    (whole : PlainRest (before ++ Code.char ' ' :: rest)) : rest.head? ≠ some '#' := by
  intro comment
  obtain ⟨later, rfl⟩ : ∃ later, rest = Code.char '#' :: later := by
    cases rest with
    | nil => cases comment
    | cons first later => exact ⟨later, by rw [Option.some.inj comment]⟩
  have pair : hasPair isGapOrEnd (· == '#') (before ++ Code.char ' ' :: '#' :: later) = true :=
    hasPair_append later rfl rfl before
  rw [whole.comments] at pair
  cases pair

theorem writePlain_spaces (indent : Nat) (split : Bool) {page : Page} (used : page.fresh = false)
    (count : Nat) (later : List Stretch) :
    ∃ next, writePlainStretches indent split page (.spaces (count + 1) :: later) =
        writePlainStretches indent split next later ∧ next.fresh = false ∧
      (page.Adds (List.replicate (count + 1) (Code.char ' ')) next ∨
        (count = 0 ∧ split = true) ∧
          page.Adds ('\n' :: List.replicate indent (Code.char ' ')) next) := by
  by_cases folds : (count + 1 == 1 && split && decide (lineWidth < page.column)) = true
  · have single : count = 0 ∧ split = true := by
      simp only [Bool.and_eq_true, beq_iff_eq] at folds
      exact ⟨by omega, folds.1.2⟩
    obtain ⟨adds, -⟩ := @newLine_breaks page indent (.inl used)
    refine ⟨(page.newLine indent).inScalar, ?_, rfl, .inr ⟨single, adds.flags rfl rfl⟩⟩
    simp only [writePlainStretches, writeSpaces, folds, if_true]
  · refine ⟨page.write (List.replicate (count + 1) (Code.char ' ')), ?_, used, .inl (page.adds_spaces _)⟩
    simp only [writePlainStretches, writeSpaces, folds, Bool.false_eq_true, if_false]

def WritesPlain (indent : Nat) (split : Bool) (later : List Stretch) (text : List Code) : Prop :=
  PlainRest text → text ≠ [] → text.head? ≠ some ' ' → ∀ page : Page, page.fresh = false →
    ∃ body, PlainBody indent body text ∧ (split = false → body = text) ∧
      page.Adds body (writePlainStretches indent split page later) ∧
      (writePlainStretches indent split page later).fresh = false

/-- The same behind a word that is on the page already: a text that begins with spaces has one. -/
def ExtendsPlain (indent : Nat) (split : Bool) (later : List Stretch) (text : List Code) : Prop :=
  ∀ word, PlainRest (word ++ text) → word ≠ [] → (∀ character ∈ word, character ≠ ' ') →
    (text = [] ∨ text.head? = some ' ') → ∀ page : Page, page.fresh = false →
    ∃ body, PlainBody indent (word ++ body) (word ++ text) ∧ (split = false → body = text) ∧
      page.Adds body (writePlainStretches indent split page later) ∧
      (writePlainStretches indent split page later).fresh = false

section Stretches

variable {indent : Nat} {split : Bool} {later : List Stretch} {rest characters : List Code}

theorem extendsPlain_spaces {count : Nat} (ended : rest.head? ≠ some ' ')
    (writes : WritesPlain indent split later rest) :
    ExtendsPlain indent split (.spaces (count + 1) :: later)
      (List.replicate (count + 1) (Code.char ' ') ++ rest) := by
  intro word whole nonempty inside _ page used
  have plain := plainWord_of_plainRest whole nonempty inside (.inr rfl)
  have filled : rest ≠ [] := by
    rintro rfl
    apply whole.space
    rw [List.append_nil, List.replicate_succ', ← List.append_assoc]
    simp
  have whole' : PlainRest rest := by
    rw [← List.append_assoc] at whole
    exact whole.suffix filled
  have free : rest.head? ≠ some '#' := by
    apply @head?_of_plainRest (word ++ List.replicate count (Code.char ' '))
    rw [List.replicate_succ'] at whole
    simpa using whole
  obtain ⟨next, written, unused, gap⟩ := writePlain_spaces indent split used count later
  obtain ⟨body, shape, same, adds, left⟩ := writes whole' filled ended next unused
  rw [written]
  rcases gap with gap | ⟨⟨rfl, folds⟩, gap⟩
  · refine ⟨_, .spaces count plain shape free, ?_, gap.trans adds, left⟩
    exact fun whole => congrArg (List.replicate (count + 1) (Code.char ' ') ++ ·) (same whole)
  · refine ⟨_, .fold plain shape free, ?_, gap.trans adds, left⟩
    exact fun whole => Bool.noConfusion (folds.symm.trans whole)

theorem writesPlain_word (nonempty : characters ≠ [])
    (inside : ∀ character ∈ characters, character ≠ ' ' ∧ isWriterBreak character = false)
    (ended : ∀ character ∈ rest.head?, character = ' ' ∨ isWriterBreak character = true)
    (extends' : ExtendsPlain indent split later rest) :
    WritesPlain indent split (.word characters :: later) (characters ++ rest) := by
  intro whole _ _ page used
  have follows : rest = [] ∨ rest.head? = some ' ' := by
    cases rest with
    | nil => exact .inl rfl
    | cons first others =>
        rcases ended first rfl with space | breaks
        · exact .inr (congrArg some space)
        · rw [whole.line first (by simp)] at breaks
          cases breaks
  have shown := inline_of_not_special
    (fun character member => whole.shown character (List.mem_append_left _ member))
    (fun character member => (inside character member).2)
  obtain ⟨body, shape, same, adds, left⟩ := extends' characters whole nonempty
    (fun character member => (inside character member).1) follows (page.write characters) used
  refine ⟨_, shape, ?_, (page.adds_write shown).trans adds, left⟩
  exact fun one => congrArg (characters ++ ·) (same one)

end Stretches

theorem writePlain_stretches (indent : Nat) (split : Bool) {later : List Stretch} {text : List Code}
    (cut : Stretched later text) :
    WritesPlain indent split later text ∧ ExtendsPlain indent split later text := by
  -- Both at once: a word is extended by what follows it, and spaces are followed by a text.
  induction cut with
  | nil =>
      refine ⟨fun _ nonempty => absurd rfl nonempty, ?_⟩
      intro word whole nonempty inside ended page used
      refine ⟨[], ?_, fun _ => rfl, .refl page, used⟩
      rw [List.append_nil]
      have plain := plainWord_of_plainRest whole nonempty inside ended
      exact .word plain
  | spaces more ended ih =>
      exact ⟨fun _ _ apart => absurd rfl apart, extendsPlain_spaces ended ih.1⟩
  | breaks more nonempty inside ended ih =>
      obtain ⟨first, others, rfl⟩ := List.exists_cons_of_ne_nil nonempty
      have breaks := inside first List.mem_cons_self
      refine ⟨fun whole => ?_, fun word whole => ?_⟩
      · rw [whole.line first (by simp)] at breaks
        cases breaks
      · rw [whole.line first (by simp)] at breaks
        cases breaks
  | @word characters later rest more nonempty inside ended ih =>
      refine ⟨writesPlain_word nonempty inside ended ih.2, ?_⟩
      intro word _ _ _ follows
      obtain ⟨first, others, rfl⟩ := List.exists_cons_of_ne_nil nonempty
      rcases follows with empty | space
      · cases empty
      · exact absurd (Option.some.inj space) (inside first List.mem_cons_self).1

theorem plainRest_of_allowsPlain {text : List Code} (allowed : allowsPlain text = true) :
    PlainRest text ∧ text.head? ≠ some ' ' := by
  simp only [allowsPlain, atEnds, isMultiline, hasIndicator, beforeGap, Bool.not_eq_true',
    Bool.or_eq_false_iff] at allowed
  obtain ⟨⟨⟨⟨first, last⟩, line⟩, shown⟩, ⟨⟨-, colons, colon⟩, comments⟩⟩ := allowed
  have lastIs (character : Code) (other : (text.getLast?.map (· == character)).getD false = false) :
      text.getLast? ≠ some character := by
    intro same
    rw [same] at other
    simp at other
  refine ⟨⟨?_, ?_, colons, comments, lastIs ':' colon, lastIs ' ' last⟩, ?_⟩
  · simpa using shown
  · simpa using line
  · intro same
    rw [same] at first
    simp at first

theorem adds_plain (page : Page) {text : List Code} (indent : Nat) (split root : Bool)
    (nonempty : text ≠ []) (allowed : allowsPlain text = true) :
    ∃ body, PlainBody indent body text ∧ (split = false → body = text) ∧
      page.Adds (page.spaceBefore ++ body) (page.plain text indent split root) ∧
      (page.plain text indent split root).fresh = false := by
  obtain ⟨rest, apart⟩ := plainRest_of_allowsPlain allowed
  have filled : text.isEmpty = false := by
    cases text with
    | nil => exact absurd rfl nonempty
    | cons _ _ => rfl
  let start : Page := if root then { page with openEnded := true } else page
  let ready : Page := if start.spaced then start else start.write [' ']
  have written : page.plain text indent split root =
      writePlainStretches indent split ready.inScalar (stretches text) := by
    simp only [plain, filled, Bool.false_eq_true, if_false, ready, start]
  -- The marks of the page change nothing of its text; only a space may come before.
  have begins : page.Adds page.spaceBefore ready.inScalar := by
    have opened : start.spaced = page.spaced := by cases root <;> rfl
    have same : page.Adds [] start := by
      cases root with
      | true => exact (Adds.refl page).flags rfl rfl
      | false => exact .refl page
    unfold spaceBefore
    cases spaced : page.spaced with
    | true =>
        rw [spaced] at opened
        simp only [ready, opened, if_true]
        exact same.flags rfl rfl
    | false =>
        rw [spaced] at opened
        simp only [ready, opened, Bool.false_eq_true, if_false]
        exact (same.trans (adds_spaces start 1)).flags rfl rfl
  obtain ⟨body, shape, same, adds, left⟩ := (writePlain_stretches indent split (stretched text)).1
    rest nonempty apart ready.inScalar rfl
  rw [written]
  exact ⟨body, shape, same, begins.trans adds, left⟩

end Page

end SecretFill.Yaml
