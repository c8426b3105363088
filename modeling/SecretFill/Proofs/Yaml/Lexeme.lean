import SecretFill.Proofs.Yaml.Escaped
import SecretFill.Proofs.Yaml.Scan
/-!
What each token of a block does to a scan. For every kind of token there is one lemma that leads
from the spot before it to the spot behind the gap after it.
-/

namespace SecretFill.Yaml.Token

namespace Scan

/-! ### Which token stands at the cursor -/

theorem peek_of_rest {scan : Scan} {first : Code} {rest : List Code}
    (here : scan.cursor.rest = first :: rest) : scan.cursor.peek = first := by
  rw [Cursor.peek, here]
  rfl

theorem peekAt_of_rest {scan : Scan} {first : Code} {rest : List Code}
    (here : scan.cursor.rest = first :: rest) : scan.cursor.peekAt 1 = rest.headD endMark := by
  rw [Cursor.peekAt, here]
  cases rest <;> rfl

/-- No document marker stands where a gap follows the first character. -/
theorem not_marker {scan : Scan} {marker : Code} (solid : isGapOrEnd marker = false)
    (gap : isGapOrEnd (scan.cursor.peekAt 1) = true) : scan.cursor.atMarker marker = false := by
  have apart : (scan.cursor.peekAt 1 == marker) = false := by
    apply beq_eq_false_iff_ne.mpr
    intro same
    rw [same, solid] at gap
    cases gap
  simp only [Cursor.atMarker, apart, Bool.and_false, Bool.false_and]

section
variable {scan : Scan} {rest : List Code}

theorem dispatch_dash (here : scan.cursor.rest = Code.char '-' :: rest)
    (gap : isGapOrEnd (rest.headD endMark) = true) : scan.dispatch = scan.blockEntry := by
  rw [← peekAt_of_rest here] at gap
  have hyphens := @not_marker scan '-' rfl gap
  have points := @not_marker scan '.' rfl gap
  simp [dispatch, peek_of_rest here, hyphens, points, gap, endMark]

theorem dispatch_question (here : scan.cursor.rest = Code.char '?' :: rest)
    (gap : isGapOrEnd (rest.headD endMark) = true) : scan.dispatch = scan.key := by
  rw [← peekAt_of_rest here] at gap
  have hyphens := @not_marker scan '-' rfl gap
  have points := @not_marker scan '.' rfl gap
  simp [dispatch, peek_of_rest here, hyphens, points, gap, endMark]

theorem dispatch_colon (here : scan.cursor.rest = Code.char ':' :: rest)
    (gap : isGapOrEnd (rest.headD endMark) = true) : scan.dispatch = scan.value := by
  rw [← peekAt_of_rest here] at gap
  have hyphens := @not_marker scan '-' rfl gap
  have points := @not_marker scan '.' rfl gap
  simp [dispatch, peek_of_rest here, hyphens, points, gap, endMark]

theorem dispatch_anchor {first : Code} (known : first = '*' ∨ first = '&')
    (here : scan.cursor.rest = first :: rest) : scan.dispatch = scan.node Token.anchor := by
  rcases known with rfl | rfl
  · simp [dispatch, Cursor.atMarker, peek_of_rest here, endMark]
  · simp [dispatch, Cursor.atMarker, peek_of_rest here, endMark]

theorem dispatch_quote (double : Bool)
    (here : scan.cursor.rest = (if double then Code.char '"' else '\'') :: rest) :
    scan.dispatch = scan.node (Token.quoted double) := by
  cases double with
  | false => simp [dispatch, Cursor.atMarker, peek_of_rest here, endMark]
  | true => simp [dispatch, Cursor.atMarker, peek_of_rest here, endMark]

theorem dispatch_open (mapping : Bool)
    (here : scan.cursor.rest = (if mapping then Code.char '\x7b' else '[') :: rest) :
    scan.dispatch =
      scan.flowStart (if mapping then .flowMappingStart else .flowSequenceStart) := by
  cases mapping with
  | false => simp [dispatch, Cursor.atMarker, peek_of_rest here, endMark]
  | true => simp [dispatch, Cursor.atMarker, peek_of_rest here, endMark]

theorem dispatch_close (mapping : Bool)
    (here : scan.cursor.rest = (if mapping then Code.char '\x7d' else ']') :: rest) :
    scan.dispatch = scan.flowEnd (if mapping then .flowMappingEnd else .flowSequenceEnd) := by
  cases mapping with
  | false => simp [dispatch, Cursor.atMarker, peek_of_rest here, endMark]
  | true => simp [dispatch, Cursor.atMarker, peek_of_rest here, endMark]

structure StartsPlain (first : Code) (rest : List Code) : Prop where
  solid : isGapOrEnd first = false
  plain : ("#,[]\x7b\x7d&*!|>'\"%@\x60" : Text).toList.contains first = false
  /-- A hyphen, question mark or colon is part of a word. -/
  inner : first = '-' ∨ first = '?' ∨ first = ':' → isGapOrEnd (rest.headD endMark) = false
  unmarked : opensWithMarker (first :: rest) = false

theorem dispatch_plain {first : Code} (flow : scan.flow = 0)
    (here : scan.cursor.rest = first :: rest) (starts : StartsPlain first rest) :
    scan.dispatch = scan.plain := by
  obtain ⟨solid, plain, inner, unmarked⟩ := starts
  rw [← peekAt_of_rest here] at inner
  have peek := peek_of_rest here
  have marker : (scan.cursor.atMarker '-' || scan.cursor.atMarker '.') = false := by
    have same : opensWithMarker scan.cursor.rest = false := here ▸ unmarked
    exact same
  rw [Bool.or_eq_false_iff] at marker
  have ended : first ≠ endMark := (isGapOrEnd_eq_false_iff.mp solid).2.2.1
  -- An indicator begins a scalar only if something stands right behind it.
  have apart (indicator : Code) (known : indicator = '-' ∨ indicator = '?' ∨ indicator = ':') :
      (first == indicator && isGapOrEnd (scan.cursor.peekAt 1)) = false := by
    by_cases same : first = indicator
    · rw [inner (same ▸ known), Bool.and_false]
    · rw [beq_eq_false_iff_ne.mpr same, Bool.false_and]
  have hyphen := apart '-' (by simp)
  have question := apart '?' (by simp)
  have colon := apart ':' (by simp)
  have starts : scan.startsPlain = true := by
    by_cases known : first = '-' ∨ first = '?' ∨ first = ':'
    · rcases known with rfl | rfl | rfl
      · simp [startsPlain, peek, inner]
      · simp [startsPlain, peek, inner, flow]
      · simp [startsPlain, peek, inner, flow]
    · simp only [not_or] at known
      simp at plain
      simp [startsPlain, peek, solid, known, plain]
  simp at plain
  simp [dispatch, peek, ended, marker, plain, flow, hyphen, question, colon, starts]

end

/-! ### Parts of a turn -/

theorem At.turns {scan : Scan} {spot : Spot} (there : scan.At spot)
    (inside : spot.indent ≤ spot.column) : scan.turn = scan.dispatch := by
  refine congrArg dispatch (unwind_stays ?_)
  rw [there.indent, there.column, Int.ofNat_eq_natCast]
  exact inside

theorem saveCandidate_free {scan : Scan} (allowed : scan.keyAllowed = true)
    (free : scan.candidates = []) :
    scan.saveCandidate = .ok { scan with candidates :=
      [⟨scan.flow, scan.count, scan.flow == 0 && scan.indent == Int.ofNat scan.cursor.mark.column,
        scan.cursor.mark⟩] } := by
  obtain ⟨cursor, tokens, count, flow, indent, indents, keyAllowed, candidates, finished⟩ := scan
  cases allowed
  cases free
  rfl

theorem At.saves {scan : Scan} {spot : Spot} (there : scan.At spot)
    (apart : spot.keyAllowed = true → spot.indent ≠ spot.column) :
    ∃ saved, scan.saveCandidate = .ok saved ∧ saved.Stands spot ∧ saved.cursor = scan.cursor := by
  cases allowed : spot.keyAllowed with
  | false =>
      refine ⟨scan, ?_, there.toStands, rfl⟩
      simp only [saveCandidate, there.keyAllowed, allowed, Bool.not_false, if_true]
  | true =>
      refine ⟨_, saveCandidate_free (there.keyAllowed.trans allowed) (there.free allowed), ?_, rfl⟩
      refine { there.toStands with loose := fun candidate member => ?_ }
      rw [List.mem_singleton.mp member]
      refine ⟨there.flow, ?_, Nat.le_refl _⟩
      have other : (scan.indent == Int.ofNat scan.cursor.mark.column) = false := by
        rw [there.indent, there.column, Int.ofNat_eq_natCast]
        exact beq_eq_false_iff_ne.mpr (apart allowed)
      simp only [other, Bool.and_false]

theorem Stands.cursor {scan : Scan} {spot : Spot} (stands : scan.Stands spot) :
    scan.cursor = ⟨spot.rest, scan.cursor.mark⟩ :=
  congrArg (fun text => (⟨text, scan.cursor.mark⟩ : Cursor)) stands.rest

theorem Stands.pushes {scan : Scan} {spot : Spot} (stands : scan.Stands spot) (body rest : List Code)
    (token : Token) (keyAllowed : Bool) :
    ({ scan.push token with
        cursor := ⟨rest, scan.cursor.mark.across body⟩, keyAllowed := keyAllowed } : Scan).Stands
      { spot with
        rest := rest
        column := columnOver spot.column body
        kinds := spot.kinds ++ [token.kind]
        keyAllowed := keyAllowed } := by
  refine ⟨rfl, ?_, ?_, congrArg (· + 1) stands.count, stands.flow, stands.indent, stands.indents, rfl,
    ?_, stands.unfinished⟩
  · simp only [Mark.across_column, stands.column]
  · simp only [push, List.reverse_cons, List.map_append, List.map_cons, List.map_nil, stands.kinds]
  · intro candidate member
    obtain ⟨flow, required, line⟩ := stands.loose candidate member
    exact ⟨flow, required, Nat.le_trans line (Mark.le_across_line _ _)⟩

end Scan

/-! ### Nodes -/

section
variable {kinds : List Kind} {column : Nat} {indent : Int} {indents : List Int} {keyAllowed : Bool}
  {between rest : List Code} {crossed : Bool}

theorem leads_node {read : Cursor → Except Failure (Token × Cursor)} {body : List Code} {kind : Kind}
    (dispatches : ∀ scan : Scan, scan.cursor.rest = body ++ (between ++ rest) →
      scan.dispatch = scan.node read)
    (reads : ∀ mark, ∃ stop, read ⟨body ++ (between ++ rest), mark⟩ =
      .ok (⟨kind, mark, stop⟩, ⟨between ++ rest, mark.across body⟩))
    (filled : body ≠ []) (inside : indent ≤ column) (apart : keyAllowed = true → indent ≠ column)
    (gap : Scan.Gap between crossed) (opens : Scan.Opens rest) :
    (⟨body ++ (between ++ rest), column, kinds, indent, indents, keyAllowed⟩ : Spot).Leads
      ⟨rest, columnOver (columnOver column body) between, kinds ++ [kind], indent, indents,
        crossed⟩ := by
  have shorter : rest.length < (body ++ (between ++ rest)).length := by
    have positive := List.length_pos_iff.mpr filled
    simp only [List.length_append]
    omega
  refine @leads_of_turn _ ⟨between ++ rest, columnOver column body, kinds ++ [kind], indent, indents,
    false⟩ between rest crossed (fun scan there => ?_) rfl gap opens shorter
  obtain ⟨saved, saves, stands, same⟩ := there.saves apart
  obtain ⟨stop, gives⟩ := reads saved.cursor.mark
  refine ⟨_, ?_, stands.pushes body (between ++ rest) ⟨kind, saved.cursor.mark, stop⟩ false,
    fun impossible => Bool.noConfusion impossible⟩
  rw [← stands.cursor] at gives
  rw [there.turns inside, dispatches scan there.rest, Scan.node, saves]
  show (read saved.cursor >>= _) = _
  rw [gives]
  rfl

theorem gap_ends {between : List Code} {crossed : Bool} (gap : Scan.Gap between crossed)
    (filled : between ≠ []) (rest : List Code) :
    isGapOrEnd ((between ++ rest).headD endMark) = true := by
  cases gap with
  | line count => rfl
  | spaces count =>
      cases count with
      | zero => exact absurd rfl filled
      | succ count => rfl

theorem tame_of_isWordCharacter {character : Code} (member : isWordCharacter character = true) :
    character ≠ '\r' ∧ character ≠ byteOrderMark := by
  constructor
  · rintro rfl
    exact absurd member (by decide)
  · rintro rfl
    exact absurd member (by decide)

theorem mem_of_isGapOrEnd {character : Code} (gap : isGapOrEnd character = true) :
    character ∈ [Code.char '\t', ' ', endMark, '\n', '\r', '\u0085', '\u2028', '\u2029'] := by
  have same {other : Code} (code : character.toNat = other.toNat) : character = other :=
    Code.toNat_inj.mp code
  simp only [isGapOrEnd, isSpaceOrEnd, isBreakOrEnd, isLineBreak, Bool.or_eq_true, beq_iff_eq] at gap
  rcases gap with rfl | rfl | rfl | (((rfl | rfl) | next) | separator) | paragraph
  · decide
  · decide
  · decide
  · decide
  · decide
  · rw [@same '\u0085' next]
    decide
  · rw [@same '\u2028' separator]
    decide
  · rw [@same '\u2029' paragraph]
    decide

theorem not_isWordCharacter_of_gap {character : Code} (gap : isGapOrEnd character = true) :
    isWordCharacter character = false := by
  have apart : ∀ character ∈ [Code.char '\t', ' ', endMark, '\n', '\r', '\u0085', '\u2028', '\u2029'],
      isWordCharacter character = false := by
    decide
  exact apart character (mem_of_isGapOrEnd gap)

structure Name (name : List Code) : Prop where
  nonempty : name ≠ []
  word : ∀ character ∈ name, isWordCharacter character = true

theorem anchor_read {indicator : Code} (known : indicator = '*' ∨ indicator = '&') {name : List Code}
    (named : Name name) {rest : List Code} (gap : isGapOrEnd (rest.headD endMark) = true)
    (mark : Mark) :
    anchor ⟨indicator :: name ++ rest, mark⟩ =
      .ok (⟨if indicator = '*' then .alias (Text.ofList name) else .anchor (Text.ofList name),
        mark, mark.across (indicator :: name)⟩, ⟨rest, mark.across (indicator :: name)⟩) := by
  have tame : indicator ≠ '\r' ∧ indicator ≠ byteOrderMark := by
    rcases known with rfl | rfl
    · decide
    · decide
  have run : Cursor.takeRun ⟨name ++ rest, mark.past indicator⟩ isWordCharacter =
      (name, ⟨rest, (mark.past indicator).across name⟩) := by
    apply Cursor.takeRun_append _ named.word
    · cases rest with
      | nil => rfl
      | cons character later => simpa using not_isWordCharacter_of_gap gap
    · exact fun character member => tame_of_isWordCharacter (named.word character member)
  have filled : name.isEmpty = false := by
    cases name with
    | nil => exact absurd rfl named.nonempty
    | cons _ _ => rfl
  have ends : endsAnchor (Cursor.peek ⟨rest, (mark.past indicator).across name⟩) = true := by
    simp only [endsAnchor, Cursor.peek, gap, Bool.true_or]
  have read (activity : Activity) :
      word activity mark endsAnchor ⟨name ++ rest, mark.past indicator⟩ =
        .ok (Text.ofList name, ⟨rest, (mark.past indicator).across name⟩) := by
    simp only [word, run, filled, ends, Bool.false_eq_true, if_false, if_true]
  rcases known with rfl | rfl
  · simp only [anchor, Cursor.peek, List.cons_append, List.headD_cons, Cursor.next_cons tame, read,
      beq_self_eq_true, if_true]
    rfl
  · simp only [anchor, Cursor.peek, List.cons_append, List.headD_cons, Cursor.next_cons tame, read]
    rfl

theorem leads_anchor {indicator : Code} (known : indicator = '*' ∨ indicator = '&')
    {name : List Code} (named : Name name) (inside : indent ≤ column)
    (apart : keyAllowed = true → indent ≠ column) (gap : Scan.Gap between crossed)
    (filled : between ≠ []) (opens : Scan.Opens rest) :
    (⟨indicator :: name ++ (between ++ rest), column, kinds, indent, indents, keyAllowed⟩ : Spot).Leads
      ⟨rest, columnOver (columnOver column (indicator :: name)) between,
        kinds ++ [if indicator = '*' then .alias (Text.ofList name)
          else .anchor (Text.ofList name)], indent, indents, crossed⟩ :=
  leads_node (fun _ here => Scan.dispatch_anchor known here)
    (fun mark => ⟨_, anchor_read known named (gap_ends gap filled rest) mark⟩)
    (List.cons_ne_nil _ _) inside apart gap opens

theorem head?_append_gap {between : List Code} {crossed : Bool} (gap : Scan.Gap between crossed)
    (filled : between ≠ []) (rest : List Code) {character : Code}
    (solid : isGapOrEnd character = false) : (between ++ rest).head? ≠ some character := by
  intro same
  have ends := gap_ends gap filled rest
  cases together : between ++ rest with
  | nil =>
      rw [together] at same
      cases same
  | cons first later =>
      rw [together] at same ends
      cases same
      rw [List.headD_cons, solid] at ends
      cases ends

theorem leads_single {deeper : Nat} (positive : 0 < deeper) {body text : List Code}
    (shape : QuotedBody deeper body text) (inside : indent ≤ column)
    (apart : keyAllowed = true → indent ≠ column) (gap : Scan.Gap between crossed)
    (filled : between ≠ []) (opens : Scan.Opens rest) :
    (⟨Code.char '\'' :: (body ++ [Code.char '\'']) ++ (between ++ rest), column, kinds, indent, indents,
        keyAllowed⟩ : Spot).Leads
      ⟨rest, columnOver (columnOver column ('\'' :: (body ++ [Code.char '\'']))) between,
        kinds ++ [.scalar (Text.ofList text) .singleQuoted], indent, indents, crossed⟩ := by
  have free : (between ++ rest).head? ≠ some '\'' := head?_append_gap gap filled rest rfl
  refine leads_node (fun _ here => Scan.dispatch_quote false here) (fun mark => ?_)
    (List.cons_ne_nil _ _) inside apart gap opens
  have read := quoted_single positive shape free mark
  rw [List.cons_append, List.append_assoc]
  exact ⟨_, read⟩

theorem leads_double {deeper : Nat} (positive : 0 < deeper) {body text : List Code}
    (shape : EscapedBody deeper body text) (inside : indent ≤ column)
    (apart : keyAllowed = true → indent ≠ column) (gap : Scan.Gap between crossed)
    (opens : Scan.Opens rest) :
    (⟨Code.char '"' :: (body ++ [Code.char '"']) ++ (between ++ rest), column, kinds, indent, indents,
        keyAllowed⟩ : Spot).Leads
      ⟨rest, columnOver (columnOver column ('"' :: (body ++ [Code.char '"']))) between,
        kinds ++ [.scalar (Text.ofList text) .doubleQuoted], indent, indents, crossed⟩ := by
  refine leads_node (fun _ here => Scan.dispatch_quote true here) (fun mark => ?_)
    (List.cons_ne_nil _ _) inside apart gap opens
  have read := quoted_double positive shape (between ++ rest) mark
  rw [List.cons_append, List.append_assoc]
  exact ⟨_, read⟩

theorem solid_of_opens {rest : List Code} (opens : Scan.Opens rest) : Solid rest :=
  fun character here => ⟨(opens character here).1, (opens character here).2.2.2⟩

theorem plainGap_tail {count : Nat} {rest : List Code} (solid : Solid rest) (mark : Mark) :
    let gap := plainGap ⟨'\n' :: (List.replicate count (Code.char ' ') ++ rest), mark⟩
    gap.cursor = ⟨rest, mark.across ('\n' :: List.replicate count (Code.char ' '))⟩ ∧
        gap.crossesLine = true := by
  cases marker : opensWithMarker (List.replicate count (Code.char ' ') ++ rest) with
  | false =>
      rw [plainGap_line solid marker]
      exact ⟨rfl, rfl⟩
  | true =>
      cases count with
      | zero =>
          rw [plainGap_marker marker]
          exact ⟨rfl, rfl⟩
      | succ count => cases marker

theorem plain_of_saves {scan saved : Scan} {token : Token} {cursor : Cursor} {crosses : Bool}
    (saves : scan.saveCandidate = .ok saved)
    (read : plain (saved.flow != 0) saved.indent saved.cursor = (token, cursor, crosses)) :
    scan.plain = .ok { saved.push token with cursor := cursor, keyAllowed := crosses } := by
  simp only [Scan.plain, saves, bind, Except.bind, read]

theorem leads_plain {deeper : Nat} (below : indent < deeper) (positive : 0 < deeper)
    {body text : List Code} (shape : PlainBody deeper body text) {count : Nat}
    (starts : ∃ first later, body ++ Code.char '\n' ::
        (List.replicate count (Code.char ' ') ++ rest) = first :: later ∧
      Scan.StartsPlain first later)
    (inside : indent ≤ column) (apart : keyAllowed = true → indent ≠ column)
    (opens : Scan.Opens rest) (ends : Ends indent count rest) :
    (⟨body ++ Code.char '\n' :: (List.replicate count (Code.char ' ') ++ rest), column, kinds,
        indent, indents,
        keyAllowed⟩ : Spot).Leads
      ⟨rest, count, kinds ++ [.scalar (Text.ofList text) .plain], indent, indents, true⟩ := by
  obtain ⟨first, later, split, starts⟩ := starts
  have tail : PlainTail indent ('\n' :: (List.replicate count (Code.char ' ') ++ rest)) := by
    refine .line (solid_of_opens opens) ?_
    rcases ends with shallow | ⟨rfl, ended | marked⟩
    · exact .inr (.inr shallow)
    · exact .inr (.inl ended)
    · exact .inl marked
  have column' : columnOver column (body ++ Code.char '\n' :: List.replicate count (Code.char ' ')) =
      count := by
    rw [columnOver_append, columnOver_break rfl]
  have shorter : rest.length < (body ++ Code.char '\n' ::
      (List.replicate count (Code.char ' ') ++ rest)).length := by
    simp only [List.length_append, List.length_cons]
    omega
  refine @leads_of_turn
    ⟨body ++ Code.char '\n' :: (List.replicate count (Code.char ' ') ++ rest), column, kinds, indent,
        indents, keyAllowed⟩
    ⟨rest, count, kinds ++ [.scalar (Text.ofList text) .plain], indent, indents, true⟩
    [] rest false (fun scan there => ?_) rfl (.spaces 0) opens shorter
  obtain ⟨saved, saves, stands, same⟩ := there.saves apart
  have started : indent ≤ saved.cursor.mark.column := by
    rw [stands.column]
    exact inside
  have read := plain_body below positive shape tail started
  have gap := @plainGap_tail count _ (solid_of_opens opens) (saved.cursor.mark.across body)
  have passed : (saved.cursor.mark.across body).across ('\n' :: List.replicate count (Code.char ' ')) =
      saved.cursor.mark.across (body ++ Code.char '\n' :: List.replicate count (Code.char ' ')) :=
    (Mark.across_append _ _ _).symm
  have pushed := stands.pushes (body ++ Code.char '\n' :: List.replicate count (Code.char ' ')) rest
    ⟨.scalar (Text.ofList text) .plain, saved.cursor.mark, saved.cursor.mark.across body⟩ true
  rw [column'] at pushed
  refine ⟨_, ?_, pushed, ?_⟩
  · rw [← stands.cursor, gap.1, gap.2, passed] at read
    rw [there.turns inside, Scan.dispatch_plain there.flow (there.rest.trans split) starts]
    apply plain_of_saves saves
    rw [stands.outside, stands.indent]
    exact read
  · -- The line has ended, so what might have been a key before it is none.
    intro _ _ candidate member
    refine Nat.lt_of_le_of_lt (stands.loose candidate member).line ?_
    have broken := (Scan.Gap.line count).line_lt (saved.cursor.mark.across body)
    rw [passed] at broken
    exact Nat.lt_of_le_of_lt (Mark.le_across_line _ body) broken

/-! ### Block indicators -/

def openingKinds (indent : Int) (column : Nat) (kind : Kind) : List Kind :=
  if indent < column then [kind] else []

def openedBlocks (indent : Int) (column : Nat) (indents : List Int) : List Int :=
  if indent < column then indent :: indents else indents

theorem Scan.Stands.openBlock {scan : Scan} {spot : Spot} (stands : scan.Stands spot)
    (inside : spot.indent ≤ spot.column) (kind : Kind) :
    (scan.openBlock kind).Stands { spot with
      kinds := spot.kinds ++ openingKinds spot.indent spot.column kind
      indent := spot.column
      indents := openedBlocks spot.indent spot.column spot.indents } := by
  by_cases deeper : spot.indent < spot.column
  · have deepens : scan.deepen scan.cursor.mark.column =
        some { scan with indent := spot.column, indents := spot.indent :: spot.indents } := by
      simp only [Scan.deepen, Int.ofNat_eq_natCast, stands.column, stands.indent, stands.indents,
        if_pos deeper]
    simp only [Scan.openBlock, deepens, openingKinds, openedBlocks, if_pos deeper]
    refine ⟨stands.rest, stands.column, ?_, congrArg (· + 1) stands.count, stands.flow, rfl, rfl,
      stands.keyAllowed, stands.loose, stands.unfinished⟩
    simp only [Scan.pushMark, Scan.push, List.reverse_cons, List.map_append, List.map_cons,
      List.map_nil, stands.kinds]
  · have stays : scan.deepen scan.cursor.mark.column = none := by
      simp only [Scan.deepen, Int.ofNat_eq_natCast, stands.column, stands.indent, if_neg deeper]
    have same : spot.indent = spot.column := by omega
    simp only [Scan.openBlock, stays, openingKinds, openedBlocks, if_neg deeper, List.append_nil]
    exact { stands with indent := stands.indent.trans same }

theorem Scan.Stands.indicator {scan : Scan} {spot : Spot} (stands : scan.Stands spot)
    {characters rest : List Code} (ahead : spot.rest = characters ++ rest) (tame : Tame characters)
    (kind : Kind) :
    (scan.pushIndicator kind characters.length).Stands { spot with
      rest := rest
      column := columnOver spot.column characters
      kinds := spot.kinds ++ [kind] } := by
  have after : scan.cursor.advance characters.length =
      ⟨rest, scan.cursor.mark.across characters⟩ := by
    rw [stands.cursor, ahead]
    exact Cursor.advance_append tame rest _
  have pushed := stands.pushes characters rest
    ⟨kind, scan.cursor.mark, scan.cursor.mark.across characters⟩ scan.keyAllowed
  rw [stands.keyAllowed] at pushed
  simp only [Scan.pushIndicator, after]
  exact { pushed with keyAllowed := stands.keyAllowed }

/-- A scan behind an indicator that begins a block or goes on with it. -/
def Scan.marked (scan : Scan) (opening kind : Kind) : Scan :=
  ({ scan.openBlock opening with keyAllowed := true, candidates := [] } : Scan).pushIndicator kind 1

theorem leads_marked {indicator : Code} {opening kind : Kind}
    (tame : indicator ≠ '\r' ∧ indicator ≠ byteOrderMark)
    (turns : ∀ scan : Scan,
      scan.At ⟨indicator :: (between ++ rest), column, kinds, indent, indents, true⟩ →
      scan.dispatch = .ok (scan.marked opening kind))
    (inside : indent ≤ column) (gap : Scan.Gap between crossed) (opens : Scan.Opens rest) :
    (⟨indicator :: (between ++ rest), column, kinds, indent, indents, true⟩ : Spot).Leads
      ⟨rest, columnOver (columnOver column [indicator]) between,
        kinds ++ openingKinds indent column opening ++ [kind], column,
        openedBlocks indent column indents, true⟩ := by
  have shorter : rest.length < (indicator :: (between ++ rest)).length := by
    simp only [List.length_cons, List.length_append]
    omega
  refine @leads_of_turn _ ⟨between ++ rest, columnOver column [indicator],
    kinds ++ openingKinds indent column opening ++ [kind], column, openedBlocks indent column indents,
    true⟩ between rest crossed (fun scan there => ?_) rfl gap opens shorter
  refine ⟨scan.marked opening kind, (there.turns inside).trans (turns scan there), ?_, ?_⟩
  · have opened := there.toStands.openBlock inside opening
    have ready : ({ scan.openBlock opening with keyAllowed := true, candidates := [] } : Scan).Stands
        ⟨indicator :: (between ++ rest), column, kinds ++ openingKinds indent column opening, column,
          openedBlocks indent column indents, true⟩ :=
      { opened with
        keyAllowed := rfl, loose := fun candidate member => absurd member List.not_mem_nil }
    exact @Scan.Stands.indicator _ _ ready [indicator] _ rfl (tame_cons.mpr ⟨tame, tame_nil⟩) kind
  · exact fun _ _ candidate member => absurd member List.not_mem_nil

theorem drop_opened {scan : Scan} {spot : Spot} (there : scan.At spot)
    (inside : spot.indent ≤ spot.column) (opening : Kind) :
    ({ scan.openBlock opening with keyAllowed := true } : Scan).dropCandidate =
      .ok { scan.openBlock opening with keyAllowed := true, candidates := [] } := by
  have opened := there.toStands.openBlock inside opening
  refine Scan.dropCandidate_loose opened.flow fun candidate member => ?_
  exact ⟨(opened.loose candidate member).flow, (opened.loose candidate member).required⟩

theorem drop_opened_key {scan : Scan} {spot : Spot} (there : scan.At spot)
    (inside : spot.indent ≤ spot.column) (opening : Kind) :
    ({ scan.openBlock opening with keyAllowed := (scan.openBlock opening).flow == 0 } :
        Scan).dropCandidate =
      .ok { scan.openBlock opening with keyAllowed := true, candidates := [] } := by
  have opened := there.toStands.openBlock inside opening
  have block : ((scan.openBlock opening).flow == 0) = true := beq_iff_eq.mpr opened.flow
  rw [block, drop_opened there inside]

theorem leads_dash (inside : indent ≤ column) (gap : Scan.Gap between crossed) (filled : between ≠ [])
    (opens : Scan.Opens rest) :
    (⟨'-' :: (between ++ rest), column, kinds, indent, indents, true⟩ : Spot).Leads
      ⟨rest, columnOver (columnOver column ['-']) between,
        kinds ++ openingKinds indent column .blockSequenceStart ++ [.blockEntry], column,
        openedBlocks indent column indents, true⟩ := by
  refine leads_marked (by decide) (fun scan there => ?_) inside gap opens
  rw [Scan.dispatch_dash there.rest (gap_ends gap filled rest)]
  simp only [Scan.blockEntry, there.outside, there.keyAllowed, Bool.false_eq_true, if_false, if_true]
  show (Scan.dropCandidate _ >>= _) = _
  rw [drop_opened there inside]
  rfl

theorem leads_question (inside : indent ≤ column) (gap : Scan.Gap between crossed)
    (filled : between ≠ []) (opens : Scan.Opens rest) :
    (⟨'?' :: (between ++ rest), column, kinds, indent, indents, true⟩ : Spot).Leads
      ⟨rest, columnOver (columnOver column ['?']) between,
        kinds ++ openingKinds indent column .blockMappingStart ++ [.key], column,
        openedBlocks indent column indents, true⟩ := by
  refine leads_marked (by decide) (fun scan there => ?_) inside gap opens
  rw [Scan.dispatch_question there.rest (gap_ends gap filled rest)]
  simp only [Scan.key, there.outside, there.keyAllowed, Bool.false_eq_true, if_false, if_true]
  show (Scan.dropCandidate { scan.openBlock .blockMappingStart with
    keyAllowed := (scan.openBlock .blockMappingStart).flow == 0 } >>= _) = _
  rw [drop_opened_key there inside]
  rfl

theorem leads_colon (inside : indent ≤ column) (gap : Scan.Gap between crossed) (filled : between ≠ [])
    (opens : Scan.Opens rest) :
    (⟨':' :: (between ++ rest), column, kinds, indent, indents, true⟩ : Spot).Leads
      ⟨rest, columnOver (columnOver column [':']) between,
        kinds ++ openingKinds indent column .blockMappingStart ++ [.value], column,
        openedBlocks indent column indents, true⟩ := by
  refine leads_marked (by decide) (fun scan there => ?_) inside gap opens
  rw [Scan.dispatch_colon there.rest (gap_ends gap filled rest)]
  simp only [Scan.value, there.free rfl, List.find?_nil, there.outside, there.keyAllowed,
    Bool.false_eq_true, if_false, if_true]
  show (Scan.dropCandidate { scan.openBlock .blockMappingStart with
    keyAllowed := (scan.openBlock .blockMappingStart).flow == 0 } >>= _) = _
  rw [drop_opened_key there inside]
  rfl

/-! ### Document markers -/

theorem leads_marker {marker : Code} (known : marker = '-' ∨ marker = '.')
    (gap : Scan.Gap between crossed) (filled : between ≠ []) (opens : Scan.Opens rest) :
    (⟨[marker, marker, marker] ++ (between ++ rest), 0, kinds, -1, [], keyAllowed⟩ : Spot).Leads
      ⟨rest, columnOver 3 between, kinds ++ [Scan.markerKind marker], -1, [], crossed⟩ := by
  have tame : Tame [marker, marker, marker] := by
    rcases known with rfl | rfl
    · exact fun character member => by simp at member; subst member; decide
    · exact fun character member => by simp at member; subst member; decide
  have width : columnOver 0 [marker, marker, marker] = 3 := by
    rcases known with rfl | rfl
    · rfl
    · rfl
  have shorter : rest.length < ([marker, marker, marker] ++ (between ++ rest)).length := by
    simp only [List.length_cons, List.length_append]
    omega
  refine @leads_of_turn _ ⟨between ++ rest, 3, kinds ++ [Scan.markerKind marker], -1, [], false⟩
    between rest crossed (fun scan there => ?_) rfl gap opens shorter
  have there' : scan.cursor.atMarker marker = true := by
    have ends := gap_ends gap filled rest
    rw [there.toStands.cursor]
    have fourth : Cursor.peekAt ⟨[marker, marker, marker] ++ (between ++ rest), scan.cursor.mark⟩ 3 =
        (between ++ rest).headD endMark := by
      cases between ++ rest <;> rfl
    simp only [Cursor.atMarker, fourth, ends, Bool.and_true]
    simp [Cursor.peek, Cursor.peekAt]
  -- No block is open here, so only the candidates are given up.
  obtain ⟨leaves, closed⟩ := there.toStands.leaves rfl
  have after := closed.indicator rfl tame (Scan.markerKind marker)
  rw [width] at after
  refine ⟨_, ?_, after, fun impossible => Bool.noConfusion impossible⟩
  have inside : (-1 : Int) ≤ (0 : Nat) := by decide
  rw [there.turns inside, Scan.dispatch_marker known there' there.column]
  simp only [Scan.documentMarker, leaves]
  rfl

/-! ### Empty collections -/

theorem next_of_turn {scan read : Scan} (turn : scan.turn = .ok read)
    (unfinished : read.finished = false)
    (opens : Scan.Opens read.cursor.rest)
    (loose : ∀ candidate ∈ read.candidates, candidate.required = false)
    (shorter : read.cursor.rest.length < scan.cursor.rest.length) :
    ∃ kept : List Candidate, (∀ candidate ∈ kept, candidate ∈ read.candidates) ∧
      scan.Next { read with candidates := kept } := by
  let kept : Scan := { read with
    candidates := read.candidates.filter fun candidate => !read.isStale candidate }
  have drops : read.dropStale = .ok kept := Scan.dropStale_loose loose
  have stays : kept.toNextToken = kept := Scan.toNextToken_opens opens
  have again : kept.dropStale = .ok { kept with
      candidates := kept.candidates.filter fun candidate => !kept.isStale candidate } := by
    apply Scan.dropStale_loose
    exact fun candidate member => loose candidate (List.mem_filter.mp member).1
  refine ⟨kept.candidates.filter fun candidate => !kept.isStale candidate,
    fun candidate member => ?_,
    ⟨⟨read, kept, turn, unfinished, drops, unfinished, ?_⟩, shorter⟩⟩
  · exact (List.mem_filter.mp (List.mem_filter.mp member).1).1
  · rw [stays]
    exact again

theorem turn_closing {scan : Scan} (mapping : Bool) {after : List Code} (nested : scan.flow ≠ 0)
    (others : ∀ candidate ∈ scan.candidates, candidate.flow ≠ scan.flow)
    (ahead : scan.cursor.rest = (if mapping then Code.char '\x7d' else ']') :: after) :
    scan.turn = .ok (({ scan with flow := scan.flow - 1, keyAllowed := false } : Scan).pushIndicator
      (if mapping then .flowMappingEnd else .flowSequenceEnd) 1) := by
  have stays (level : Int) : scan.unwind level = scan := by
    simp only [Scan.unwind, beq_eq_false_iff_ne.mpr nested, Bool.false_eq_true, if_false]
  have absent : scan.candidates.find? (fun candidate => candidate.flow == scan.flow) = none :=
    List.find?_eq_none.mpr fun candidate member => by simpa using others candidate member
  have drops : scan.dropCandidate = .ok scan := by
    simp only [Scan.dropCandidate, absent]
  rw [Scan.turn, stays, Scan.dispatch_close mapping ahead, Scan.flowEnd, drops]
  rfl

theorem leads_brackets (mapping : Bool) (inside : indent ≤ column)
    (apart : keyAllowed = true → indent ≠ column) (gap : Scan.Gap between crossed)
    (opens : Scan.Opens rest) :
    (⟨(if mapping then Code.char '\x7b' else '[') :: (if mapping then Code.char '\x7d' else ']') ::
        (between ++ rest),
        column, kinds, indent, indents, keyAllowed⟩ : Spot).Leads
      ⟨rest, columnOver (column + 2) between,
        kinds ++ [if mapping then .flowMappingStart else .flowSequenceStart,
          if mapping then .flowMappingEnd else .flowSequenceEnd], indent, indents, crossed⟩ := by
  intro scan there
  let closing : Code := if mapping then Code.char '\x7d' else ']'
  let opener : Kind := if mapping then .flowMappingStart else .flowSequenceStart
  let closer : Kind := if mapping then .flowMappingEnd else .flowSequenceEnd
  obtain ⟨saved, saves, stands, same⟩ := there.saves apart
  have open' : Tame [if mapping then Code.char '\x7b' else '['] := by
    cases mapping with
    | false => exact tame_cons.mpr ⟨by decide, tame_nil⟩
    | true => exact tame_cons.mpr ⟨by decide, tame_nil⟩
  have close' : Tame [closing] := by
    cases mapping with
    | false => exact tame_cons.mpr ⟨by decide, tame_nil⟩
    | true => exact tame_cons.mpr ⟨by decide, tame_nil⟩
  let after := closing :: (between ++ rest)
  have entered := @Scan.Stands.indicator _ _ stands [if mapping then Code.char '\x7b' else '[']
    after rfl open'
    opener
  let inner : Scan := { saved.pushIndicator opener 1 with flow := saved.flow + 1, keyAllowed := true }
  have turn : scan.turn = .ok inner := by
    rw [there.turns inside, Scan.dispatch_open mapping there.rest, Scan.flowStart, saves]
    rfl
  have start : inner.cursor.rest = after := entered.rest
  have opens' : Scan.Opens inner.cursor.rest := by
    rw [start]
    intro character here
    cases here
    cases mapping with
    | false => decide
    | true => decide
  -- Two turns without a gap: a key that was waiting may be given up between them.
  obtain ⟨candidates, subset, next⟩ := next_of_turn turn entered.unfinished opens'
    (fun candidate member => (entered.loose candidate member).required)
    (by
      rw [start, there.rest]
      exact Nat.lt_succ_self _)
  let waiting : Scan := { inner with candidates := candidates }
  let closed : Scan := { saved.pushIndicator opener 1 with
    keyAllowed := false, candidates := candidates }
  have left : waiting.turn = .ok (closed.pushIndicator closer 1) := by
    refine turn_closing mapping (Nat.succ_ne_zero _) (fun candidate member same => ?_) start
    have flow := (entered.loose candidate (subset candidate member)).flow
    exact Nat.succ_ne_zero saved.flow (same.symm.trans flow)
  -- Behind the closing bracket the scan is out of the collection again.
  have outside : closed.Stands ⟨after, column + 1, kinds ++ [opener], indent, indents, false⟩ := by
    have column' : columnOver column [if mapping then Code.char '\x7b' else '['] = column + 1 := by
      cases mapping with
      | false => rfl
      | true => rfl
    rw [column'] at entered
    exact { entered with
      keyAllowed := rfl
      loose := fun candidate member => entered.loose candidate (subset candidate member) }
  have done := @Scan.Stands.indicator _ _ outside [closing] (between ++ rest) rfl close' closer
  have shorter : rest.length < waiting.cursor.rest.length := by
    have here : waiting.cursor.rest = after := start
    rw [here]
    simp only [after, List.length_cons, List.length_append]
    omega
  obtain ⟨last, one, after⟩ := next_of_stands left done
    (fun impossible => Bool.noConfusion impossible) rfl gap opens shorter
  have column' : columnOver (column + 1) [closing] = column + 2 := by
    cases mapping with
    | false => rfl
    | true => rfl
  simp only [column', List.append_assoc] at after
  exact ⟨last, .next next (.next one (.refl last)), after⟩

/-! ### Simple keys -/

/-- The place of the next token as one where a key may begin. -/
def Scan.candidateHere (scan : Scan) : Candidate :=
  ⟨scan.flow, scan.count, scan.flow == 0 && scan.indent == Int.ofNat scan.cursor.mark.column,
    scan.cursor.mark⟩

def Scan.keyed (scan : Scan) (token : Token) (form after : List Code) : Scan :=
  { ({ scan with candidates := [scan.candidateHere] } : Scan).push token with
    cursor := ⟨after, scan.cursor.mark.across form⟩, keyAllowed := false }

theorem isStale_keyed {scan : Scan} {token : Token} {form after : List Code}
    (line : ∀ character ∈ form, isLineBreak character = false) (short : form.length ≤ 1024) :
    (scan.keyed token form after).isStale scan.candidateHere = false := by
  have same : (scan.cursor.mark.across form).line = scan.cursor.mark.line :=
    Mark.across_line_of_line line scan.cursor.mark
  have near : ¬ 1024 < (scan.cursor.mark.across form).index - scan.cursor.mark.index := by
    rw [Mark.across_index]
    omega
  simp only [Scan.isStale, Scan.keyed, Scan.push, Scan.candidateHere, same, bne_self_eq_false,
    Bool.false_or]
  exact decide_eq_false near

def openingTokens (indent : Int) (column : Nat) (mark : Mark) : List Token :=
  if indent < column then [⟨.blockMappingStart, mark, mark⟩] else []

/-- The tokens of the key, and of the block that it may begin, go before that of the scalar. -/
theorem confirmKey_eq {scan : Scan} {form after : List Code} {token : Token}
    (there : scan.Stands ⟨form ++ after, column, kinds, indent, indents, true⟩)
    (inside : indent ≤ column) :
    (scan.keyed token form after).confirmKey scan.candidateHere = { scan with
      cursor := ⟨after, scan.cursor.mark.across form⟩
      tokens := token :: ⟨.key, scan.cursor.mark, scan.cursor.mark⟩ ::
        openingTokens indent column scan.cursor.mark ++ scan.tokens
      count := scan.count + 2 + (openingTokens indent column scan.cursor.mark).length
      indent := column
      indents := openedBlocks indent column indents
      candidates := []
      keyAllowed := false } := by
  have gone : [scan.candidateHere].filter (fun other => other.flow != scan.flow) = [] := by
    simp [Scan.candidateHere]
  have one : scan.count + 1 - scan.count = 1 := Nat.add_sub_cancel_left _ _
  have two : scan.count + 1 + 1 - scan.count = 2 := by omega
  have here : Int.ofNat scan.cursor.mark.column = column := congrArg Int.ofNat there.column
  have number : scan.candidateHere.number = scan.count := rfl
  have place : scan.candidateHere.mark = scan.cursor.mark := rfl
  by_cases deeper : indent < column
  · have deepens : scan.indent < (column : Int) := there.indent ▸ deeper
    have blocks : openedBlocks indent column indents = scan.indent :: scan.indents := by
      rw [openedBlocks, if_pos deeper, there.indent, there.indents]
    simp only [Scan.confirmKey, Scan.insertAt, Scan.deepen, Scan.keyed, Scan.push, number, place,
      gone, there.outside, Bool.false_eq_true, if_false, one, two, here, deepens, if_true,
      openingTokens, if_pos deeper, blocks]
    rfl
  · have stays : ¬ (column : Int) < column := Int.lt_irrefl _
    have blocks : openedBlocks indent column indents = scan.indents := by
      rw [openedBlocks, if_neg deeper, there.indents]
    have same : scan.indent = column := by
      have outer : scan.indent = indent := there.indent
      omega
    simp only [Scan.confirmKey, Scan.insertAt, Scan.deepen, Scan.keyed, Scan.push, number, place,
      gone, there.outside, Bool.false_eq_true, if_false, one, here, stays, openingTokens,
      if_neg deeper, blocks, same]
    rfl

theorem confirmKey_keyed {scan : Scan} {form after : List Code} {token : Token}
    (there : scan.Stands ⟨form ++ after, column, kinds, indent, indents, true⟩)
    (line : ∀ character ∈ form, isLineBreak character = false) (inside : indent ≤ column) :
    ((scan.keyed token form after).confirmKey scan.candidateHere).Stands
      ⟨after, column + form.length,
        kinds ++ openingKinds indent column .blockMappingStart ++ [.key, token.kind], column,
        openedBlocks indent column indents, false⟩ := by
  rw [confirmKey_eq there inside]
  refine ⟨rfl, ?_, ?_, ?_, there.flow, rfl, rfl, rfl, fun candidate member => ?_, there.unfinished⟩
  · rw [Mark.across_column, columnOver_line line, there.column]
  · have before : scan.tokens.reverse.map Token.kind = kinds := there.kinds
    simp only [List.cons_append, List.reverse_cons, List.reverse_append, List.map_append,
      List.map_cons, List.map_nil, before, List.append_assoc, List.nil_append, openingTokens,
      openingKinds]
    split
    · rfl
    · rfl
  · have before := there.count
    simp only [List.cons_append, List.length_cons, List.length_append]
    omega
  · exact absurd member List.not_mem_nil

theorem turn_keyed {scan : Scan} {form after : List Code} {token : Token}
    (there : scan.Stands ⟨form ++ Code.char ':' :: after, column, kinds, indent, indents, true⟩)
    (line : ∀ character ∈ form, isLineBreak character = false) (inside : indent ≤ column)
    (gap : isGapOrEnd (after.headD endMark) = true) :
    (scan.keyed token form (':' :: after)).turn =
      .ok (((scan.keyed token form (':' :: after)).confirmKey scan.candidateHere).pushIndicator
        .value 1) := by
  have found : (scan.keyed token form (':' :: after)).candidates.find?
      (fun candidate => candidate.flow == (scan.keyed token form (':' :: after)).flow) =
        some scan.candidateHere := by
    simp [Scan.keyed, Scan.push, Scan.candidateHere]
  -- The colon is on the line of the key, further to the right than any open block.
  have stays : (scan.keyed token form (':' :: after)).unwind
      (Int.ofNat (scan.keyed token form (':' :: after)).cursor.mark.column) =
        scan.keyed token form (':' :: after) := by
    apply Scan.unwind_stays
    show scan.indent ≤ Int.ofNat (scan.cursor.mark.across form).column
    have outer : scan.indent = indent := there.indent
    have start : scan.cursor.mark.column = column := there.column
    rw [Mark.across_column, columnOver_line line, start, outer, Int.ofNat_eq_natCast]
    omega
  rw [Scan.turn, stays, Scan.dispatch_colon rfl gap]
  simp only [Scan.value, found]
  rfl

/-- A key on the line of its value. It is read as a scalar first. -/
theorem leads_key {form : List Code} {kind : Kind}
    (turns : ∀ scan : Scan,
      scan.At ⟨form ++ Code.char ':' :: (between ++ rest), column, kinds, indent, indents, true⟩ →
      ∃ token : Token, token.kind = kind ∧
        scan.turn = .ok (scan.keyed token form (':' :: (between ++ rest))))
    (nonempty : form ≠ []) (line : ∀ character ∈ form, isLineBreak character = false)
    (short : form.length ≤ 1024) (inside : indent ≤ column) (gap : Scan.Gap between crossed)
    (filled : between ≠ []) (opens : Scan.Opens rest) :
    (⟨form ++ Code.char ':' :: (between ++ rest), column, kinds, indent, indents, true⟩ : Spot).Leads
      ⟨rest, columnOver (column + form.length + 1) between,
        kinds ++ openingKinds indent column .blockMappingStart ++ [.key, kind, .value], column,
        openedBlocks indent column indents, crossed⟩ := by
  intro scan there
  obtain ⟨token, rfl, turn⟩ := turns scan there
  let read := scan.keyed token form (':' :: (between ++ rest))
  have start : Scan.Opens read.cursor.rest := by
    intro character here
    cases here
    decide
  have stands := there.toStands
  have fresh : read.isStale scan.candidateHere = false := isStale_keyed line short
  have only : read.candidates = [scan.candidateHere] := rfl
  -- The scalar is short and on one line, so it may still be a key.
  have drops : read.dropStale = .ok read := by
    have none : read.candidates.find? (fun candidate => read.isStale candidate && candidate.required) =
        none := by
      rw [only, List.find?_singleton, fresh]
      rfl
    have kept : read.candidates.filter (fun candidate => !read.isStale candidate) =
        read.candidates := by
      rw [only]
      exact List.filter_cons_of_pos (by rw [fresh]; rfl)
    simp only [Scan.dropStale, none, kept]
  have waits : read.toNextToken.dropStale = .ok read := by
    rw [Scan.toNextToken_opens start]
    exact drops
  have shorter : read.cursor.rest.length < scan.cursor.rest.length := by
    have positive := List.length_pos_iff.mpr nonempty
    rw [there.rest]
    simp only [read, Scan.keyed, List.length_append, List.length_cons]
    omega
  have first : scan.Next read :=
    ⟨⟨read, read, turn, there.unfinished, drops, there.unfinished, waits⟩, shorter⟩
  have confirmed : (read.confirmKey scan.candidateHere).Stands _ :=
    confirmKey_keyed stands line inside
  have done := @Scan.Stands.indicator _ _ confirmed [':'] (between ++ rest) rfl
    (tame_cons.mpr ⟨by decide, tame_nil⟩) .value
  have further : rest.length < read.cursor.rest.length := by
    simp only [read, Scan.keyed, List.length_append, List.length_cons]
    omega
  obtain ⟨last, second, after⟩ := next_of_stands
      (turn_keyed stands line inside (gap_ends gap filled rest))
    done (fun impossible => Bool.noConfusion impossible) rfl gap opens further
  have column' : columnOver (column + form.length) [Code.char ':'] = column + form.length + 1 := rfl
  simp only [column', List.append_assoc, List.cons_append, List.nil_append] at after
  exact ⟨last, .next first (.next second (.refl last)), by simpa using after⟩

theorem turn_quoted {scan : Scan} {double : Bool} {form after : List Code} {kind : Kind}
    (there : scan.At ⟨form ++ after, column, kinds, indent, indents, true⟩) (inside : indent ≤ column)
    (starts : ∃ later, form ++ after = (if double then Code.char '"' else '\'') :: later)
    (reads : ∀ mark, ∃ stop,
      quoted double ⟨form ++ after, mark⟩ = .ok (⟨kind, mark, stop⟩, ⟨after, mark.across form⟩)) :
    ∃ token : Token, token.kind = kind ∧ scan.turn = .ok (scan.keyed token form after) := by
  obtain ⟨later, starts⟩ := starts
  obtain ⟨stop, read⟩ := reads scan.cursor.mark
  have saves := Scan.saveCandidate_free there.keyAllowed (there.free rfl)
  have cursor : scan.cursor = ⟨form ++ after, scan.cursor.mark⟩ := there.toStands.cursor
  rw [← cursor] at read
  refine ⟨⟨kind, scan.cursor.mark, stop⟩, rfl, ?_⟩
  rw [there.turns inside, Scan.dispatch_quote double (there.rest.trans starts), Scan.node, saves]
  show (quoted double scan.cursor >>= _) = _
  rw [read]
  rfl

theorem turn_plain {scan : Scan} {deeper : Nat} {body after text : List Code}
    (there : scan.At ⟨body ++ Code.char ':' :: after, column, kinds, indent, indents, true⟩)
    (inside : indent ≤ column) (below : indent < deeper) (positive : 0 < deeper)
    (shape : PlainBody deeper body text)
    (starts : ∃ first later, body ++ Code.char ':' :: after = first :: later ∧
        Scan.StartsPlain first later)
    (gap : isGapOrEnd (after.headD endMark) = true) :
    ∃ token : Token, token.kind = .scalar (Text.ofList text) .plain ∧
      scan.turn = .ok (scan.keyed token body (':' :: after)) := by
  obtain ⟨first, later, split, starts⟩ := starts
  have saves := Scan.saveCandidate_free there.keyAllowed (there.free rfl)
  have cursor : scan.cursor = ⟨body ++ Code.char ':' :: after, scan.cursor.mark⟩ := there.toStands.cursor
  have started : indent ≤ scan.cursor.mark.column := by
    rw [there.column]
    exact inside
  have read := plain_body below positive shape (.colon gap) started
  have none (mark : Mark) : plainGap ⟨':' :: after, mark⟩ = ⟨[], false, ⟨':' :: after, mark⟩⟩ := rfl
  rw [← cursor, none] at read
  refine ⟨⟨.scalar (Text.ofList text) .plain, scan.cursor.mark, scan.cursor.mark.across body⟩, rfl, ?_⟩
  rw [there.turns inside, Scan.dispatch_plain there.flow (there.rest.trans split) starts]
  apply plain_of_saves saves
  show plain (scan.flow != 0) scan.indent scan.cursor = _
  rw [there.outside, there.indent]
  exact read

end

end SecretFill.Yaml.Token
