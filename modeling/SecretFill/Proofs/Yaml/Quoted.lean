import SecretFill.Proofs.Yaml.Plain
/-!
Single quotes. A reader takes back what is written between them, except that one of the line breaks
that a writer shows, U+0085, reads as a line feed: alone it becomes a space, among others it is
lost or changed.
-/

namespace SecretFill.Yaml

open Layout (isWriterBreak)

namespace Token

def Firm (rest : List Code) : Prop :=
  ∃ first later, rest = first :: later ∧ isGapOrEnd first = false

theorem isGapOrEnd_eq_false_iff {character : Code} : isGapOrEnd character = false ↔
    character ≠ '\t' ∧ character ≠ ' ' ∧ character ≠ endMark ∧ isLineBreak character = false := by
  simp [isGapOrEnd, isSpaceOrEnd, isBreakOrEnd]

/-! ### Gaps -/

theorem blanks_spaces {count : Nat} {rest : List Code} (firm : Firm rest) (mark : Mark) :
    Cursor.takeRun ⟨List.replicate count (Code.char ' ') ++ rest, mark⟩ isSpaceOrTab =
      (List.replicate count (Code.char ' '),
          ⟨rest, mark.across (List.replicate count (Code.char ' '))⟩) := by
  apply Cursor.takeRun_append (tame_spaces count)
  · intro character member
    rw [List.eq_of_mem_replicate member]
    rfl
  · obtain ⟨first, later, rfl, firm⟩ := firm
    obtain ⟨tab, space, -, -⟩ := isGapOrEnd_eq_false_iff.mp firm
    simp [isSpaceOrTab, tab, space]

theorem peek_firm {rest : List Code} (firm : Firm rest) (mark : Mark) :
    (Cursor.peek ⟨rest, mark⟩ == endMark) = false ∧ isLineBreak (Cursor.peek ⟨rest, mark⟩) = false := by
  obtain ⟨first, later, rfl, firm⟩ := firm
  obtain ⟨-, -, ended, line⟩ := isGapOrEnd_eq_false_iff.mp firm
  exact ⟨beq_eq_false_iff_ne.mpr ended, line⟩

theorem isWriterBreak_cases {character : Code} (breaks : isWriterBreak character = true) :
    character = '\n' ∨ character = '\u0085' ∨ character = '\u2028' ∨ character = '\u2029' := by
  have same {other : Code} (code : character.toNat = other.toNat) : character = other :=
    Code.toNat_inj.mp code
  simp only [isWriterBreak, Bool.or_eq_true, beq_iff_eq] at breaks
  rcases breaks with ((line | next) | separator) | paragraph
  · exact .inl line
  · exact .inr (.inl (same next))
  · exact .inr (.inr (.inl (same separator)))
  · exact .inr (.inr (.inr (same paragraph)))

def readBreak (character : Code) : Code := if character.toNat = 0x85 then '\n' else character

theorem lineBreak_read {character : Code} (breaks : isWriterBreak character = true)
    (rest : List Code) (mark : Mark) :
    Cursor.lineBreak ⟨character :: rest, mark⟩ =
      ([readBreak character], ⟨rest, mark.past character⟩) := by
  rcases isWriterBreak_cases breaks with rfl | rfl | rfl | rfl <;> rfl

theorem not_marker_of_gap {character : Code} (gap : isGapOrEnd character = true) (rest : List Code)
    (mark : Mark) : Cursor.atDocumentMarker ⟨character :: rest, mark⟩ = false := by
  have apart (other : Code) (solid : isGapOrEnd other = false) : (character == other) = false := by
    apply beq_eq_false_iff_ne.mpr
    rintro rfl
    rw [gap] at solid
    cases solid
  have hyphen := apart '-' rfl
  have point := apart '.' rfl
  simp only [Cursor.atDocumentMarker, Cursor.atMarker, Cursor.peek, List.headD_cons, hyphen, point,
    Bool.false_and, Bool.or_self]

theorem isGapOrEnd_of_isWriterBreak {character : Code} (breaks : isWriterBreak character = true) :
    isGapOrEnd character = true := by
  simp only [isGapOrEnd, isSpaceOrEnd, isBreakOrEnd, isLineBreak_of_isWriterBreak breaks,
    Bool.or_true]

theorem quotedBreaks_read {characters rest : List Code} {indent : Nat} (positive : 0 < indent)
    (breaks : ∀ character ∈ characters, isWriterBreak character = true) (firm : Firm rest)
    (start : Mark) {bound : List Code} (enough : characters.length < bound.length) (mark : Mark) :
    quotedBreaks start bound ⟨characters ++ (List.replicate indent (Code.char ' ') ++ rest), mark⟩ =
      .ok (characters.map readBreak, ⟨rest,
          mark.across (characters ++ List.replicate indent (Code.char ' '))⟩) := by
  induction characters generalizing bound mark with
  | nil =>
      obtain ⟨bounding, bound, rfl⟩ := List.exists_cons_of_length_pos enough
      obtain ⟨deeper, rfl⟩ := Nat.exists_eq_succ_of_ne_zero (Nat.ne_of_gt positive)
      have inside : Cursor.atDocumentMarker
          ⟨List.replicate (deeper + 1) (Code.char ' ') ++ rest, mark⟩ = false :=
              not_marker_of_gap rfl _ _
      have skipped := congrArg Prod.snd (@blanks_spaces (deeper + 1) rest firm mark)
      have line := (peek_firm firm (mark.across (List.replicate (deeper + 1) (Code.char ' ')))).2
      simp only [Cursor.takeRun] at skipped
      simp only [List.nil_append, quotedBreaks, inside, skipped, line, Bool.false_eq_true, if_false,
        List.map_nil]
  | cons character characters ih =>
      obtain ⟨bounding, bound, rfl⟩ := List.exists_cons_of_length_pos (Nat.zero_lt_of_lt enough)
      obtain ⟨here, later⟩ := List.forall_mem_cons.mp breaks
      have inside := not_marker_of_gap (isGapOrEnd_of_isWriterBreak here)
        (characters ++ (List.replicate indent (Code.char ' ') ++ rest)) mark
      have stays : Cursor.skipWhile
          ⟨character :: (characters ++ (List.replicate indent (Code.char ' ') ++ rest)),
              mark⟩ isSpaceOrTab =
            ⟨character :: (characters ++ (List.replicate indent (Code.char ' ') ++ rest)), mark⟩ := by
        have apart : isSpaceOrTab character = false := by
          rcases isWriterBreak_cases here with rfl | rfl | rfl | rfl <;> rfl
        simp only [Cursor.skipWhile, Cursor.run, List.takeWhile_cons, apart, Bool.false_eq_true,
          if_false, List.length_nil, Cursor.advance]
      have line : isLineBreak (Cursor.peek
          ⟨character :: (characters ++ (List.replicate indent (Code.char ' ') ++ rest)), mark⟩) = true :=
        isLineBreak_of_isWriterBreak here
      have read := ih later (Nat.lt_of_succ_lt_succ enough) (mark.past character)
      simp only [List.cons_append, quotedBreaks, inside, stays, line, lineBreak_read here, read,
        Bool.false_eq_true, if_false, if_true]
      rfl

theorem quotedGap_spaces {count : Nat} {rest : List Code} (firm : Firm rest) (start mark : Mark) :
    quotedGap start ⟨List.replicate count (Code.char ' ') ++ rest, mark⟩ =
      .ok (List.replicate count (Code.char ' '),
          ⟨rest, mark.across (List.replicate count (Code.char ' '))⟩) := by
  obtain ⟨ended, line⟩ := peek_firm firm (mark.across (List.replicate count (Code.char ' ')))
  simp only [quotedGap, blanks_spaces firm, ended, line, Bool.false_eq_true, if_false]

theorem quotedGap_breaks {first : Code} {characters rest : List Code} {indent : Nat}
    (positive : 0 < indent) (here : isWriterBreak first = true)
    (breaks : ∀ character ∈ characters, isWriterBreak character = true) (firm : Firm rest)
    (start mark : Mark) :
    quotedGap start ⟨first :: (characters ++ (List.replicate indent (Code.char ' ') ++ rest)), mark⟩ =
      .ok (foldedBreak [readBreak first] (characters.map readBreak),
        ⟨rest, mark.across (first :: (characters ++ List.replicate indent (Code.char ' ')))⟩) := by
  -- No blank comes before the first break, which is read by itself as the one that may fold.
  have blanks : Cursor.takeRun
      ⟨first :: (characters ++ (List.replicate indent (Code.char ' ') ++ rest)), mark⟩ isSpaceOrTab =
        ([], ⟨first :: (characters ++ (List.replicate indent (Code.char ' ') ++ rest)), mark⟩) := by
    have apart : isSpaceOrTab first = false := by
      rcases isWriterBreak_cases here with rfl | rfl | rfl | rfl <;> rfl
    simp only [Cursor.takeRun, Cursor.skipWhile, Cursor.run, List.takeWhile_cons, apart,
      Bool.false_eq_true, if_false, List.length_nil, Cursor.advance]
  have ended : (Cursor.peek
      ⟨first :: (characters ++ (List.replicate indent (Code.char ' ') ++ rest)), mark⟩ == endMark) =
          false := by
    rcases isWriterBreak_cases here with rfl | rfl | rfl | rfl <;> rfl
  have line : isLineBreak (Cursor.peek
      ⟨first :: (characters ++ (List.replicate indent (Code.char ' ') ++ rest)), mark⟩) = true :=
    isLineBreak_of_isWriterBreak here
  have enough : characters.length <
      (endMark :: (characters ++ (List.replicate indent (Code.char ' ') ++ rest))).length := by
    simp only [List.length_cons, List.length_append]
    omega
  have others := quotedBreaks_read positive breaks firm start enough (mark.past first)
  simp only [quotedGap, blanks, ended, line, lineBreak_read here, others, Bool.false_eq_true,
    if_false, if_true]
  rfl

/-! ### Between the quotes -/

abbrev QuotedRead (double : Bool) (start : Mark) (bound : List Code) (cursor : Cursor)
    (text : List Code) (last : Cursor) : Prop :=
  quotedBody double start bound cursor = .ok (text, last)

theorem quotedBody_gap {double : Bool} {start : Mark} {bound gap text : List Code}
    {cursor next last : Cursor} (bounding : Code) (space : isGapOrEnd cursor.peek = true)
    (passed : quotedGap start cursor = .ok (gap, next))
    (more : QuotedRead double start bound next text last) :
    QuotedRead double start (bounding :: bound) cursor (gap ++ text) last := by
  simp only [QuotedRead, quotedBody, space, if_true, passed]
  show (quotedBody double start bound next >>= _) = _
  rw [more]
  rfl

theorem quotedBody_close (double : Bool) (start : Mark) (bound rest : List Code) (bounding : Code)
    (mark : Mark) (free : double = true ∨ rest.head? ≠ some '\'') :
    QuotedRead double start (bounding :: bound)
      ⟨(if double then Code.char '"' else '\'') :: rest, mark⟩ []
      ⟨rest, mark.past (if double then Code.char '"' else '\'')⟩ := by
  cases double with
  | true => rfl
  | false =>
      rcases free with impossible | free
      · cases impossible
      · cases rest with
        | nil => rfl
        | cons next rest =>
            have apart : (next == '\'') = false :=
              beq_eq_false_iff_ne.mpr fun same => free (congrArg some same)
            show (if (next == '\'') = true then _ else
              Except.ok ([], Cursor.next ⟨'\'' :: next :: rest, mark⟩)) = _
            rw [apart]
            rfl

theorem quotedBody_single {start : Mark} {bound rest text : List Code} {last : Cursor}
    (bounding : Code) {character : Code} {mark : Mark} (solid : isGapOrEnd character = false)
    (tame : character ≠ '\r' ∧ character ≠ byteOrderMark) (apart : character ≠ '\'')
    (more : QuotedRead false start bound ⟨rest, mark.past character⟩ text last) :
    QuotedRead false start (bounding :: bound) ⟨character :: rest, mark⟩ (character :: text) last := by
  have other : (character == '\'') = false := beq_eq_false_iff_ne.mpr apart
  simp only [QuotedRead, quotedBody, Cursor.peek, List.headD_cons, solid, other, Bool.false_eq_true,
    if_false, Cursor.next_cons tame]
  rw [more]
  rfl

theorem quotedBody_twice {start : Mark} {bound rest text : List Code} {last : Cursor}
    (bounding : Code) {mark : Mark}
    (more : QuotedRead false start bound ⟨rest, mark.across ['\'', '\'']⟩ text last) :
    QuotedRead false start (bounding :: bound) ⟨'\'' :: '\'' :: rest, mark⟩ ('\'' :: text) last := by
  show (quotedBody false start bound _ >>= _) = _
  have passed : Cursor.advance 2 ⟨'\'' :: '\'' :: rest, mark⟩ = ⟨rest, mark.across ['\'', '\'']⟩ := rfl
  rw [passed, more]
  rfl

end Token

/-! ### Bodies -/

def readBreaks (characters : List Code) : List Code :=
  match characters with
  | [] => []
  | first :: others =>
      if first.toNat = 0x85 then Token.foldedBreak ['\n'] (others.map Token.readBreak)
      else (first :: others).map Token.readBreak

/-- What is written between single quotes, with further lines at a column, and what a reader makes
of it. -/
inductive QuotedBody (indent : Nat) : List Code → List Code → Prop
  | nil : QuotedBody indent [] []
  | solid {character : Code} {body text : List Code} (solid : isGapOrEnd character = false)
      (tame : character ≠ '\r' ∧ character ≠ byteOrderMark) (apart : character ≠ '\'')
      (more : QuotedBody indent body text) : QuotedBody indent (character :: body) (character :: text)
  | quote {body text : List Code} (more : QuotedBody indent body text) :
      QuotedBody indent ('\'' :: '\'' :: body) ('\'' :: text)
  | spaces {body text : List Code} (count : Nat)
      (firm : Token.Firm (body ++ [Code.char '\''])) (more : QuotedBody indent body text) :
      QuotedBody indent (List.replicate (count + 1) (Code.char ' ') ++ body)
        (List.replicate (count + 1) (Code.char ' ') ++ text)
  | fold {body text : List Code} (firm : Token.Firm (body ++ [Code.char '\'']))
      (more : QuotedBody indent body text) :
      QuotedBody indent ('\n' :: (List.replicate indent (Code.char ' ') ++ body)) (' ' :: text)
  | breaks {characters body text : List Code} (nonempty : characters ≠ [])
      (inside : ∀ character ∈ characters, isWriterBreak character = true)
      (firm : Token.Firm (body ++ [Code.char '\''])) (more : QuotedBody indent body text) :
      QuotedBody indent
        ((if characters.head? = some '\n' then [Code.char '\n'] else []) ++ characters ++
          (List.replicate indent (Code.char ' ') ++ body))
        (readBreaks characters ++ text)

namespace Token

theorem firm_close {body : List Code} (firm : Firm (body ++ [Code.char '\''])) (rest : List Code) :
    Firm (body ++ Code.char '\'' :: rest) := by
  obtain ⟨first, later, same, solid⟩ := firm
  cases body with
  | nil => exact ⟨'\'', rest, rfl, rfl⟩
  | cons character body =>
      cases same
      exact ⟨first, _, rfl, solid⟩

/-- Line breaks inside single quotes: of several ones the first is folded away if it is a line feed,
and kept if not. -/
theorem quotedBody_breaks {indent : Nat} (positive : 0 < indent) {characters body text rest : List Code}
    (nonempty : characters ≠ []) (inside : ∀ character ∈ characters, isWriterBreak character = true)
    (firm : Firm (body ++ Code.char '\'' :: rest)) {start : Mark} (bounding : Code) {bound : List Code}
    (more : ∀ mark : Mark, QuotedRead false start bound ⟨body ++ Code.char '\'' :: rest, mark⟩ text
      ⟨rest, (mark.across body).past '\''⟩) (mark : Mark) :
    QuotedRead false start (bounding :: bound)
      ⟨((if characters.head? = some '\n' then [Code.char '\n'] else []) ++ characters ++
        (List.replicate indent (Code.char ' ') ++ body)) ++ Code.char '\'' :: rest, mark⟩
      (readBreaks characters ++ text)
      ⟨rest, (mark.across ((if characters.head? = some '\n' then [Code.char '\n'] else []) ++
          characters ++
        (List.replicate indent (Code.char ' ') ++ body))).past '\''⟩ := by
  obtain ⟨first, characters, rfl⟩ := List.exists_cons_of_ne_nil nonempty
  obtain ⟨here, others⟩ := List.forall_mem_cons.mp inside
  by_cases feed : first = '\n'
  · subst feed
    have passed := @quotedGap_breaks '\n' _ _ _ positive rfl inside firm start mark
    have read := quotedBody_gap bounding rfl passed (more _)
    simp only [List.head?_cons, List.cons_append, List.append_assoc, Mark.across_cons,
        Mark.across_append] at read ⊢
    exact read
  · have other : ¬ (first :: characters).head? = some '\n' := fun same => feed (Option.some.inj same)
    have passed := quotedGap_breaks positive here others firm start mark
    have gap : isGapOrEnd (Cursor.peek ⟨first :: (characters ++
        (List.replicate indent (Code.char ' ') ++ (body ++ Code.char '\'' :: rest))), mark⟩) = true :=
      isGapOrEnd_of_isWriterBreak here
    have read := quotedBody_gap bounding gap passed (more _)
    have same : foldedBreak [readBreak first] (characters.map readBreak) =
        readBreaks (first :: characters) := by
      rcases isWriterBreak_cases here with rfl | rfl | rfl | rfl
      · exact absurd rfl feed
      · rfl
      · rfl
      · rfl
    rw [same] at read
    simp only [if_neg other, List.nil_append, List.cons_append, List.append_assoc, Mark.across_cons,
      Mark.across_append] at read ⊢
    exact read

theorem quotedBody_read {indent : Nat} (positive : 0 < indent) {body text : List Code}
    (shape : QuotedBody indent body text) {rest : List Code} (free : rest.head? ≠ some '\'')
    (start : Mark) {bound : List Code} (enough : body.length < bound.length) (mark : Mark) :
    QuotedRead false start bound ⟨body ++ Code.char '\'' :: rest, mark⟩ text
      ⟨rest, (mark.across body).past '\''⟩ := by
  induction shape generalizing bound mark with
  | nil =>
      obtain ⟨bounding, bound, rfl⟩ := List.exists_cons_of_length_pos enough
      exact quotedBody_close false start bound rest bounding mark (.inr free)
  | solid solid tame apart more ih =>
      obtain ⟨bounding, bound, rfl⟩ := List.exists_cons_of_length_pos (Nat.zero_lt_of_lt enough)
      exact quotedBody_single bounding solid tame apart (ih (Nat.lt_of_succ_lt_succ enough) _)
  | quote more ih =>
      obtain ⟨bounding, bound, rfl⟩ := List.exists_cons_of_length_pos (Nat.zero_lt_of_lt enough)
      simp only [List.length_cons] at enough
      exact quotedBody_twice bounding (ih (by omega) _)
  | @spaces body text count firm more ih =>
      obtain ⟨bounding, bound, rfl⟩ := List.exists_cons_of_length_pos (Nat.zero_lt_of_lt enough)
      simp only [List.length_append, List.length_replicate, List.length_cons] at enough
      rw [List.append_assoc, Mark.across_append]
      exact quotedBody_gap bounding rfl
        (@quotedGap_spaces (count + 1) _ (firm_close firm rest) start mark) (ih (by omega) _)
  | @fold body text firm more ih =>
      obtain ⟨bounding, bound, rfl⟩ := List.exists_cons_of_length_pos (Nat.zero_lt_of_lt enough)
      simp only [List.length_append, List.length_replicate, List.length_cons] at enough
      rw [List.cons_append, List.append_assoc]
      have passed := @quotedGap_breaks '\n' [] _ _ positive rfl (by simp)
        (firm_close firm rest) start mark
      have shorter : body.length < bound.length := by omega
      have read := quotedBody_gap bounding rfl passed (ih shorter _)
      simp only [List.nil_append, Mark.across_cons, Mark.across_append] at read ⊢
      exact read
  | @breaks characters body text nonempty inside firm more ih =>
      obtain ⟨bounding, bound, rfl⟩ := List.exists_cons_of_length_pos (Nat.zero_lt_of_lt enough)
      simp only [List.length_append, List.length_replicate, List.length_cons] at enough
      have filled := List.length_pos_of_ne_nil nonempty
      have shorter : body.length < bound.length := by omega
      exact quotedBody_breaks positive nonempty inside (firm_close firm rest) bounding (ih shorter) mark

theorem quoted_single {indent : Nat} (positive : 0 < indent) {body text : List Code}
    (shape : QuotedBody indent body text) {rest : List Code} (free : rest.head? ≠ some '\'')
    (mark : Mark) :
    quoted false ⟨'\'' :: (body ++ Code.char '\'' :: rest), mark⟩ =
      .ok (⟨.scalar (Text.ofList text) .singleQuoted, mark,
        mark.across ('\'' :: (body ++ [Code.char '\'']))⟩,
            ⟨rest, mark.across ('\'' :: (body ++ [Code.char '\'']))⟩) := by
  have enough : body.length < (endMark :: '\'' :: (body ++ Code.char '\'' :: rest)).length := by
    simp only [List.length_cons, List.length_append]
    omega
  have read := quotedBody_read positive shape free mark enough (mark.past '\'')
  have opened : Cursor.next ⟨'\'' :: (body ++ Code.char '\'' :: rest), mark⟩ =
      ⟨body ++ Code.char '\'' :: rest, mark.past '\''⟩ := rfl
  simp only [quoted, opened]
  rw [show quotedBody false mark _ _ = _ from read]
  simp only [Mark.across_cons, Mark.across_append, Mark.across_nil]
  rfl

end Token

/-! ### Writing -/

namespace Page

open Layout

def Stretch.read : Stretch → List Code
  | .spaces count => List.replicate count (Code.char ' ')
  | .breaks characters => readBreaks characters
  | .word characters => characters

def readQuoted (text : List Code) : List Code := (stretches text).flatMap Stretch.read

theorem adds_lineBreaks (page : Page) {characters : List Code} (nonempty : characters ≠ [])
    (breaks : ∀ character ∈ characters, isWriterBreak character = true) :
    page.Adds characters (characters.foldl lineBreak page) ∧
      (characters.foldl lineBreak page).Opens 0 := by
  induction characters generalizing page with
  | nil => exact absurd rfl nonempty
  | cons character rest ih =>
      obtain ⟨here, later⟩ := List.forall_mem_cons.mp breaks
      have one := page.adds_lineBreak here
      cases rest with
      | nil => exact ⟨one, rfl, rfl, rfl⟩
      | cons next rest =>
          obtain ⟨adds, opens⟩ := ih (page.lineBreak character) (List.cons_ne_nil _ _) later
          exact ⟨one.trans adds, opens⟩

theorem adds_writeBreaks (page : Page) {characters : List Code} {indent : Nat} (positive : 0 < indent)
    (nonempty : characters ≠ []) (breaks : ∀ character ∈ characters, isWriterBreak character = true) :
    page.Adds ((if characters.head? = some '\n' then [Code.char '\n'] else []) ++ characters ++
        List.replicate indent (Code.char ' ')) (page.writeBreaks characters indent) ∧
      (page.writeBreaks characters indent).Opens indent := by
  let start : Page := if characters.head? = some '\n' then page.lineBreak '\n' else page
  have first : page.Adds (if characters.head? = some '\n' then [Code.char '\n'] else []) start := by
    simp only [start]
    split
    · exact page.adds_lineBreak rfl
    · exact .refl page
  obtain ⟨adds, column, -, fresh⟩ := adds_lineBreaks start nonempty breaks
  have ahead : (characters.foldl lineBreak start).column < indent := by
    rw [column]
    exact positive
  obtain ⟨filled, opens⟩ := newLine_fills fresh ahead
  rw [column, Nat.sub_zero] at filled
  exact ⟨(first.trans adds).trans filled, opens⟩

theorem adds_writeSpaces (page : Page) (count indent : Nat) (mayFold : Bool)
    (used : page.fresh = false ∨ indent < page.column) :
    (page.Adds (List.replicate (count + 1) (Code.char ' '))
        (page.writeSpaces (count + 1) indent mayFold) ∧
        (page.writeSpaces (count + 1) indent mayFold).fresh = page.fresh ∧
        page.column < (page.writeSpaces (count + 1) indent mayFold).column) ∨
      (count = 0 ∧ mayFold = true) ∧
        page.Adds ('\n' :: List.replicate indent (Code.char ' '))
            (page.writeSpaces (count + 1) indent mayFold) ∧
        (page.writeSpaces (count + 1) indent mayFold).Opens indent := by
  by_cases folds : (count + 1 == 1 && mayFold && decide (lineWidth < page.column)) = true
  · right
    have single : count = 0 ∧ mayFold = true := by
      simp only [Bool.and_eq_true, beq_iff_eq] at folds
      exact ⟨by omega, folds.1.2⟩
    simp only [writeSpaces, folds, if_true]
    exact ⟨single, newLine_breaks used⟩
  · left
    simp only [writeSpaces, folds, Bool.false_eq_true, if_false]
    refine ⟨page.adds_spaces _, rfl, ?_⟩
    simp only [write, List.length_replicate]
    omega

theorem inline_doubleQuotes {word : List Code} (shown : Inline word) : Inline (doubleQuotes word) := by
  intro character member
  obtain ⟨original, inside, here⟩ := List.mem_flatMap.mp member
  split at here
  · simp only [List.mem_cons, List.not_mem_nil, or_false, or_self] at here
    rw [here]
    decide
  · rw [List.mem_singleton.mp here]
    exact shown original inside

theorem quotedBody_word {indent : Nat} {word body text : List Code}
    (shown : ∀ character ∈ word, isSpecial character = false)
    (inside : ∀ character ∈ word, character ≠ ' ' ∧ isWriterBreak character = false)
    (more : QuotedBody indent body text) :
    QuotedBody indent (doubleQuotes word ++ body) (word ++ text) := by
  induction word with
  | nil => exact more
  | cons character word ih =>
      obtain ⟨here, shown⟩ := List.forall_mem_cons.mp shown
      obtain ⟨⟨apart, line⟩, inside⟩ := List.forall_mem_cons.mp inside
      have more := ih shown inside
      by_cases quote : character = '\''
      · subst quote
        exact .quote more
      · have single : (character == '\'') = false := beq_eq_false_iff_ne.mpr quote
        simp only [doubleQuotes, List.flatMap_cons, single, Bool.false_eq_true, if_false,
          List.cons_append]
        refine .solid ?_ (tame_of_not_special here) quote more
        rw [isGapOrEnd_eq_of_not_special here, line, beq_eq_false_iff_ne.mpr apart]
        rfl

theorem firm_doubleQuotes {word : List Code} (nonempty : word ≠ [])
    (shown : ∀ character ∈ word, isSpecial character = false)
    (inside : ∀ character ∈ word, character ≠ ' ' ∧ isWriterBreak character = false)
    (rest : List Code) : Token.Firm (doubleQuotes word ++ rest) := by
  obtain ⟨first, later, rfl⟩ := List.exists_cons_of_ne_nil nonempty
  by_cases quote : first = '\''
  · subst quote
    exact ⟨'\'', _, rfl, rfl⟩
  · have single : (first == '\'') = false := beq_eq_false_iff_ne.mpr quote
    obtain ⟨apart, line⟩ := inside first List.mem_cons_self
    simp only [doubleQuotes, List.flatMap_cons, single, Bool.false_eq_true, if_false,
      List.cons_append]
    refine ⟨first, _, rfl, ?_⟩
    rw [isGapOrEnd_eq_of_not_special (shown first List.mem_cons_self), line,
      beq_eq_false_iff_ne.mpr apart]
    rfl

structure QuotedRest (text : List Code) : Prop where
  shown : ∀ character ∈ text, isSpecial character = false
  before : hasPair (· == ' ') isWriterBreak text = false
  behind : hasPair isWriterBreak (· == ' ') text = false

theorem QuotedRest.suffix {before text : List Code} (rest : QuotedRest (before ++ text)) :
    QuotedRest text :=
  ⟨fun character member => rest.shown character (List.mem_append_right _ member),
    hasPair_suffix before rest.before, hasPair_suffix before rest.behind⟩

def OpensWithWord (text : List Code) : Prop :=
  ∀ character ∈ text.head?, character ≠ ' ' ∧ isWriterBreak character = false

theorem opensWithWord_of_spaces {count : Nat} {rest : List Code}
    (whole : QuotedRest (List.replicate (count + 1) (Code.char ' ') ++ rest))
    (ended : rest.head? ≠ some ' ') :
    OpensWithWord rest := by
  rintro character here
  obtain ⟨later, rfl⟩ := List.head?_eq_some_iff.mp here
  refine ⟨fun space => ended (congrArg some space), Bool.eq_false_iff.mpr fun breaks => ?_⟩
  have pair : hasPair (· == ' ') isWriterBreak
      (List.replicate count (Code.char ' ') ++ Code.char ' ' :: character :: later) = true :=
    hasPair_append later rfl breaks _
  have same : List.replicate (count + 1) (Code.char ' ') ++ character :: later =
      List.replicate count (Code.char ' ') ++ Code.char ' ' :: character :: later := by
    rw [List.replicate_succ', List.append_assoc]
    rfl
  rw [← same, whole.before] at pair
  cases pair

theorem opensWithWord_of_breaks {characters rest : List Code}
    (whole : QuotedRest (characters ++ rest)) (nonempty : characters ≠ [])
    (inside : ∀ character ∈ characters, isWriterBreak character = true)
    (ended : ∀ character ∈ rest.head?, isWriterBreak character = false) : OpensWithWord rest := by
  rintro character here
  refine ⟨?_, ended character here⟩
  rintro rfl
  obtain ⟨later, rfl⟩ := List.head?_eq_some_iff.mp here
  have breaks := inside _ (List.getLast_mem nonempty)
  have pair : hasPair isWriterBreak (· == ' ')
      (characters.dropLast ++ characters.getLast nonempty :: ' ' :: later) = true :=
    hasPair_append later breaks rfl _
  have same : characters ++ Code.char ' ' :: later =
      characters.dropLast ++ characters.getLast nonempty :: ' ' :: later := by
    have whole := List.dropLast_concat_getLast nonempty
    calc characters ++ Code.char ' ' :: later
        = (characters.dropLast ++ [characters.getLast nonempty]) ++ Code.char ' ' :: later := by
            rw [whole]
      _ = _ := List.append_assoc ..
  rw [← same, whole.behind] at pair
  cases pair

/-- Stretches between single quotes become a body from which their text is read. A page that is at
the start of a line has not passed its indentation; one that a space follows has. -/
def WritesQuoted (indent : Nat) (split : Bool) (later : List Stretch) (text : List Code) : Prop :=
  ∀ (first : Bool) (page : Page), (page.fresh = false ∨ indent ≤ page.column) →
    (text.head? = some ' ' → page.fresh = false ∨ indent < page.column) →
    ∃ body, QuotedBody indent body (later.flatMap Stretch.read) ∧
      page.Adds body (writeQuotedStretches indent split first page later) ∧
      (OpensWithWord text → Token.Firm (body ++ [Code.char '\''])) ∧
      (split = false → (∀ character ∈ text, isWriterBreak character = false) →
        body = doubleQuotes text)

section Stretches

variable {indent : Nat} {split : Bool} {later : List Stretch} {rest characters : List Code}

theorem writesQuoted_spaces {count : Nat}
    (whole : QuotedRest (List.replicate (count + 1) (Code.char ' ') ++ rest))
    (ended : rest.head? ≠ some ' ')
    (writes : WritesQuoted indent split later rest) :
    WritesQuoted indent split (.spaces (count + 1) :: later)
      (List.replicate (count + 1) (Code.char ' ') ++ rest) := by
  intro first page _ used
  have opens := opensWithWord_of_spaces whole ended
  have apart : OpensWithWord (List.replicate (count + 1) (Code.char ' ') ++ rest) → False :=
    fun word => (word ' ' rfl).1 rfl
  have behind (next : Page) : rest.head? = some ' ' → next.fresh = false ∨ indent < next.column :=
    fun space => absurd space ended
  let mayFold := split && !first && !later.isEmpty
  rcases adds_writeSpaces page count indent mayFold (used rfl) with
    ⟨gap, fresh, further⟩ | ⟨⟨rfl, folds⟩, gap, lined⟩
  · have passed : (page.writeSpaces (count + 1) indent mayFold).fresh = false ∨
        indent ≤ (page.writeSpaces (count + 1) indent mayFold).column := by
      rcases used rfl with used | used
      · exact .inl (fresh.trans used)
      · exact .inr (by omega)
    obtain ⟨body, shape, adds, firm, same⟩ := writes false _ passed (behind _)
    refine ⟨_, .spaces count (firm opens) shape, gap.trans adds, fun word => (apart word).elim, ?_⟩
    intro one line
    rw [same one fun character member => line character (List.mem_append_right _ member)]
    simp [doubleQuotes, List.flatMap_append, List.flatMap_replicate]
  · obtain ⟨body, shape, adds, firm, same⟩ := writes false _
      (.inr (Nat.le_of_eq lined.column.symm)) (behind _)
    refine ⟨_, .fold (firm opens) shape, gap.trans adds, fun word => (apart word).elim, ?_⟩
    intro one
    simp [mayFold, one] at folds

theorem writesQuoted_breaks (positive : 0 < indent) (whole : QuotedRest (characters ++ rest))
    (nonempty : characters ≠ [])
    (inside : ∀ character ∈ characters, isWriterBreak character = true)
    (ended : ∀ character ∈ rest.head?, isWriterBreak character = false)
    (writes : WritesQuoted indent split later rest) :
    WritesQuoted indent split (.breaks characters :: later) (characters ++ rest) := by
  intro first page _ _
  have opens := opensWithWord_of_breaks whole nonempty inside ended
  obtain ⟨gap, lined⟩ := adds_writeBreaks page positive nonempty inside
  obtain ⟨body, shape, adds, firm, same⟩ := writes false _
    (.inr (Nat.le_of_eq lined.column.symm)) (fun space => absurd rfl (opens ' ' space).1)
  obtain ⟨one, others, rfl⟩ := List.exists_cons_of_ne_nil nonempty
  have breaks := inside one List.mem_cons_self
  refine ⟨_, .breaks nonempty inside (firm opens) shape, ?_, ?_, ?_⟩
  · have both := gap.trans adds
    rw [List.append_assoc] at both
    exact both
  · intro word
    rw [(word one rfl).2] at breaks
    cases breaks
  · intro _ line
    rw [line one (by simp)] at breaks
    cases breaks

theorem writesQuoted_word (whole : QuotedRest (characters ++ rest)) (nonempty : characters ≠ [])
    (inside : ∀ character ∈ characters, character ≠ ' ' ∧ isWriterBreak character = false)
    (writes : WritesQuoted indent split later rest) :
    WritesQuoted indent split (.word characters :: later) (characters ++ rest) := by
  intro first page started _
  have shown : ∀ character ∈ characters, isSpecial character = false :=
    fun character member => whole.shown character (List.mem_append_left _ member)
  have gap := page.adds_write (inline_doubleQuotes
    (inline_of_not_special shown fun character member => (inside character member).2))
  have further : page.column < (page.write (doubleQuotes characters)).column := by
    obtain ⟨one, others, same, -⟩ := firm_doubleQuotes nonempty shown inside []
    rw [List.append_nil] at same
    simp only [write, same, List.length_cons]
    omega
  have passed : (page.write (doubleQuotes characters)).fresh = false ∨
      indent < (page.write (doubleQuotes characters)).column := by
    rcases started with fresh | started
    · exact .inl fresh
    · exact .inr (by omega)
  obtain ⟨body, shape, adds, -, same⟩ := writes false _
    (passed.imp_right Nat.le_of_lt) (fun _ => passed)
  refine ⟨_, quotedBody_word shown inside shape, gap.trans adds, ?_, ?_⟩
  · intro _
    rw [List.append_assoc]
    exact firm_doubleQuotes nonempty shown inside _
  · intro one line
    rw [same one fun character member => line character (List.mem_append_right _ member)]
    exact List.flatMap_append.symm

end Stretches

theorem writeQuoted_stretches {indent : Nat} (positive : 0 < indent) (split : Bool)
    {later : List Stretch} {text : List Code} (cut : Stretched later text)
    (whole : QuotedRest text) : WritesQuoted indent split later text := by
  induction cut with
  | nil =>
      intro first page _ _
      exact ⟨[], .nil, .refl page, fun _ => ⟨'\'', [], rfl, rfl⟩, fun _ _ => rfl⟩
  | spaces more ended ih => exact writesQuoted_spaces whole ended (ih whole.suffix)
  | breaks more nonempty inside ended ih =>
      exact writesQuoted_breaks positive whole nonempty inside ended (ih whole.suffix)
  | word more nonempty inside ended ih =>
      exact writesQuoted_word whole nonempty inside (ih whole.suffix)

theorem adds_singleQuoted (page : Page) {text : List Code} {indent : Nat} (positive : 0 < indent)
    (split : Bool) (allowed : allowsSingleQuotes text = true) :
    ∃ body, QuotedBody indent body (readQuoted text) ∧
      page.Adds (page.spaceBefore ++ Code.char '\'' :: (body ++ [Code.char '\'']))
          (page.singleQuoted text indent split) ∧
      (page.singleQuoted text indent split).fresh = false ∧
      (split = false → (∀ character ∈ text, isWriterBreak character = false) →
        body = doubleQuotes text) := by
  simp only [allowsSingleQuotes, hasSpaceBeforeBreak, hasBreakBeforeSpace, Bool.not_eq_true',
    Bool.or_eq_false_iff] at allowed
  obtain ⟨⟨before, behind⟩, shown⟩ := allowed
  have opened := @adds_indicator page ['\''] false (by decide)
  obtain ⟨body, shape, adds, -, same⟩ := writeQuoted_stretches positive split (stretched text)
    ⟨by simpa using shown, before, behind⟩ true (page.indicator ['\''] true) (.inl (by simp))
    (fun _ => .inl (by simp))
  have closed := @adds_indicator_close
    (writeQuotedStretches indent split true (page.indicator ['\''] true) (stretches text)) ['\'']
    false (by decide)
  refine ⟨body, shape, ?_, by simp [singleQuoted], same⟩
  have together := (opened.trans adds).trans closed
  simp only [List.append_assoc, List.singleton_append] at together
  exact together

/-! ### What is lost -/

/-- The line break that is shown between single quotes, but read as another one. -/
def lostBreak : Code := '\u0085'

theorem readBreak_eq {character : Code} (kept : character ≠ lostBreak) :
    Token.readBreak character = character := by
  have other : character.toNat ≠ 0x85 :=
    fun code => kept (Code.toNat_inj.mp code)
  simp only [Token.readBreak, if_neg other]

theorem readBreak_ne (character : Code) : Token.readBreak character ≠ lostBreak := by
  unfold Token.readBreak
  split
  · decide
  · next other =>
      rintro rfl
      exact other rfl

theorem readBreaks_eq {characters : List Code} (kept : lostBreak ∉ characters) :
    readBreaks characters = characters := by
  cases characters with
  | nil => rfl
  | cons first others =>
      have other : first.toNat ≠ 0x85 := fun code =>
        kept ((Code.toNat_inj.mp code : first = lostBreak) ▸ List.mem_cons_self)
      have same : (first :: others).map Token.readBreak = first :: others := by
        refine (List.map_congr_left fun character member => ?_).trans (List.map_id _)
        exact readBreak_eq fun lost => kept (lost ▸ member)
      simp only [readBreaks, if_neg other, same]

theorem lostBreak_not_mem_readBreaks (characters : List Code) :
    lostBreak ∉ readBreaks characters := by
  have mapped (others : List Code) : lostBreak ∉ others.map Token.readBreak := by
    intro member
    obtain ⟨character, -, same⟩ := List.mem_map.mp member
    exact readBreak_ne character same
  cases characters with
  | nil => exact List.not_mem_nil
  | cons first others =>
      by_cases lost : first.toNat = 0x85
      · simp only [readBreaks, if_pos lost, Token.foldedBreak, bne_self_eq_false, Bool.false_eq_true,
          if_false]
        split
        · decide
        · exact mapped others
      · simp only [readBreaks, if_neg lost]
        exact mapped (first :: others)

theorem stretched_read_eq {later : List Stretch} {text : List Code} (cut : Stretched later text)
    (kept : lostBreak ∉ text) : later.flatMap Stretch.read = text := by
  induction cut with
  | nil => rfl
  | spaces more ended ih =>
      rw [List.flatMap_cons, ih fun member => kept (List.mem_append_right _ member)]
      rfl
  | breaks more nonempty inside ended ih =>
      rw [List.flatMap_cons, ih fun member => kept (List.mem_append_right _ member)]
      exact congrArg (· ++ _) (readBreaks_eq fun member => kept (List.mem_append_left _ member))
  | word more nonempty inside ended ih =>
      rw [List.flatMap_cons, ih fun member => kept (List.mem_append_right _ member)]
      rfl

theorem lostBreak_not_mem_stretched {later : List Stretch} {text : List Code}
    (cut : Stretched later text) : lostBreak ∉ later.flatMap Stretch.read := by
  induction cut with
  | nil => exact List.not_mem_nil
  | spaces more ended ih =>
      rw [List.flatMap_cons, List.mem_append]
      rintro (member | member)
      · cases List.eq_of_mem_replicate member
      · exact ih member
  | breaks more nonempty inside ended ih =>
      rw [List.flatMap_cons, List.mem_append]
      rintro (member | member)
      · exact lostBreak_not_mem_readBreaks _ member
      · exact ih member
  | word more nonempty inside ended ih =>
      rw [List.flatMap_cons, List.mem_append]
      rintro (member | member)
      · cases (inside _ member).2
      · exact ih member

/-- Between single quotes exactly those texts are kept in which the lost break does not occur. -/
theorem readQuoted_eq_iff (text : List Code) : readQuoted text = text ↔ lostBreak ∉ text := by
  constructor
  · intro same
    rw [← same]
    exact lostBreak_not_mem_stretched (stretched text)
  · exact stretched_read_eq (stretched text)

end Page

end SecretFill.Yaml
