import SecretFill.Proofs.Yaml.Plain
import SecretFill.Yaml.Token.Stream
/-!
Scanning a text whose layout is known. A spot is what matters of a scan between two tokens of a
block: the text ahead, the column, the tokens so far by kind, the open blocks, and whether a key may
begin. One spot leads to another one if every scan that stands at the first gets to the second.
-/

namespace SecretFill.Yaml.Token

structure Spot where
  rest : List Code
  column : Nat
  kinds : List Kind
  indent : Int
  indents : List Int
  keyAllowed : Bool

structure Candidate.Loose (candidate : Candidate) (line : Nat) : Prop where
  flow : candidate.flow = 0
  required : candidate.required = false
  line : candidate.mark.line ≤ line

structure Scan.Stands (scan : Scan) (spot : Spot) : Prop where
  rest : scan.cursor.rest = spot.rest
  column : scan.cursor.mark.column = spot.column
  kinds : scan.tokens.reverse.map Token.kind = spot.kinds
  count : scan.count = scan.tokens.length
  flow : scan.flow = 0
  indent : scan.indent = spot.indent
  indents : scan.indents = spot.indents
  keyAllowed : scan.keyAllowed = spot.keyAllowed
  loose : ∀ candidate ∈ scan.candidates, candidate.Loose scan.cursor.mark.line
  unfinished : scan.finished = false

/-- A scan before a token. Where a key may begin no other one is waiting for its colon. -/
structure Scan.At (scan : Scan) (spot : Spot) : Prop extends scan.Stands spot where
  free : spot.keyAllowed = true → scan.candidates = []

theorem Scan.Stands.outside {scan : Scan} {spot : Spot} (stands : scan.Stands spot) :
    (scan.flow != 0) = false := by
  rw [stands.flow]
  rfl

namespace Scan

/-! ### Candidates -/

theorem dropStale_loose {scan : Scan}
    (loose : ∀ candidate ∈ scan.candidates, candidate.required = false) :
    scan.dropStale = .ok { scan with
      candidates := scan.candidates.filter fun candidate => !scan.isStale candidate } := by
  have none : scan.candidates.find? (fun candidate => scan.isStale candidate && candidate.required) =
      none := by
    refine List.find?_eq_none.mpr fun candidate member => ?_
    simp [loose candidate member]
  simp only [dropStale, none]

theorem dropCandidate_loose {scan : Scan} (flow : scan.flow = 0)
    (loose : ∀ candidate ∈ scan.candidates, candidate.flow = 0 ∧ candidate.required = false) :
    scan.dropCandidate = .ok { scan with candidates := [] } := by
  obtain ⟨cursor, tokens, count, flow', indent, indents, keyAllowed, candidates, finished⟩ := scan
  cases flow
  cases candidates with
  | nil => rfl
  | cons candidate others =>
      obtain ⟨⟨here, required⟩, later⟩ := List.forall_mem_cons.mp loose
      have gone : (candidate :: others).filter (fun other => other.flow != 0) = [] := by
        refine List.filter_eq_nil_iff.mpr fun other member => ?_
        simp [(loose other member).1]
      simp only [dropCandidate, List.find?_cons, here, beq_self_eq_true, required,
        Bool.false_eq_true, if_false, gone]

theorem Stands.drops {scan : Scan} {spot : Spot} (stands : scan.Stands spot) :
    scan.dropCandidate = .ok { scan with candidates := [] } ∧
      ({ scan with candidates := [] } : Scan).Stands spot := by
  refine ⟨dropCandidate_loose stands.flow fun candidate member => ?_, ?_⟩
  · exact ⟨(stands.loose candidate member).flow, (stands.loose candidate member).required⟩
  · exact { stands with loose := fun candidate member => absurd member List.not_mem_nil }

/-! ### Gaps -/

inductive Gap : List Code → Bool → Prop
  | spaces (count : Nat) : Gap (List.replicate count (Code.char ' ')) false
  | line (count : Nat) : Gap ('\n' :: List.replicate count (Code.char ' ')) true

def Opens (rest : List Code) : Prop :=
  ∀ character ∈ rest.head?, character ≠ ' ' ∧ character ≠ '#' ∧ character ≠ byteOrderMark ∧
    isLineBreak character = false

theorem gap_opens {rest : List Code} (opens : Opens rest) (crossed : Bool) (mark : Mark) :
    gap false crossed mark rest = (⟨rest, mark⟩, crossed) := by
  cases rest with
  | nil => rfl
  | cons character later =>
      obtain ⟨space, comment, -, line⟩ := opens character rfl
      simp only [gap, line, beq_eq_false_iff_ne.mpr space, beq_eq_false_iff_ne.mpr comment,
        Bool.or_self, Bool.false_eq_true, if_false]

theorem gap_spaces {rest : List Code} (opens : Opens rest) (crossed : Bool) (count : Nat)
    (mark : Mark) :
    gap false crossed mark (List.replicate count (Code.char ' ') ++ rest) =
      (⟨rest, mark.across (List.replicate count (Code.char ' '))⟩, crossed) := by
  induction count generalizing mark with
  | zero => exact gap_opens opens crossed mark
  | succ count ih => exact ih (mark.past ' ')

theorem gap_line {rest : List Code} (opens : Opens rest) (crossed : Bool) (count : Nat)
    (mark : Mark) :
    gap false crossed mark (Code.char '\n' :: List.replicate count (Code.char ' ') ++ rest) =
      (⟨rest, mark.across (Code.char '\n' :: List.replicate count (Code.char ' '))⟩, true) :=
  gap_spaces opens true count (mark.past '\n')

theorem Gap.tame {between : List Code} {crossed : Bool} (apart : Gap between crossed) :
    Tame between := by
  cases apart with
  | spaces count => exact tame_spaces count
  | line count => exact tame_cons.mpr ⟨by decide, tame_spaces count⟩

theorem Gap.passed {between rest : List Code} {crossed : Bool} (apart : Gap between crossed)
    (opens : Opens rest) (mark : Mark) :
    gap false false mark (between ++ rest) = (⟨rest, mark.across between⟩, crossed) := by
  cases apart with
  | spaces count => exact gap_spaces opens false count mark
  | line count => exact gap_line opens false count mark

theorem Gap.line_lt {between : List Code} (apart : Gap between true) (mark : Mark) :
    mark.line < (mark.across between).line := by
  cases apart with
  | line count =>
      have later := (mark.past '\n').le_across_line (List.replicate count (Code.char ' '))
      exact Nat.lt_of_lt_of_le (Nat.lt_succ_self mark.line) later

theorem Gap.marked {between rest : List Code} {crossed : Bool} (apart : Gap between crossed)
    (opens : Opens rest) : (between ++ rest).headD endMark ≠ byteOrderMark := by
  cases apart with
  | line count => exact (by decide : '\n' ≠ byteOrderMark)
  | spaces count =>
      cases count with
      | succ count => exact (by decide : ' ' ≠ byteOrderMark)
      | zero =>
          cases rest with
          | nil => decide
          | cons character later => exact (opens character rfl).2.2.1

theorem toNextToken_opens {scan : Scan} (opens : Opens scan.cursor.rest) : scan.toNextToken = scan := by
  have unmarked : (scan.cursor.mark.index == 0 && scan.cursor.peek == byteOrderMark) = false := by
    have other : scan.cursor.peek ≠ byteOrderMark := (Gap.spaces 0).marked opens
    rw [beq_eq_false_iff_ne.mpr other, Bool.and_false]
  simp only [toNextToken, unmarked, Bool.false_eq_true, if_false, gap_opens opens, Bool.false_and,
    Bool.or_false]

/-- Passing the gap behind a token. The candidates of a line are gone on the next one. -/
theorem Stands.passes {scan : Scan} {between rest : List Code} {crossed : Bool} {spot : Spot}
    (stands : scan.Stands spot) (ahead : spot.rest = between ++ rest) (apart : Gap between crossed)
    (opens : Opens rest)
    (free : spot.keyAllowed = true → crossed = false →
      ∀ candidate ∈ scan.candidates, candidate.mark.line < scan.cursor.mark.line) :
    ∃ kept next, scan.dropStale = .ok kept ∧ kept.toNextToken.dropStale = .ok next ∧
      next.At { spot with
        rest := rest
        column := columnOver spot.column between
        keyAllowed := spot.keyAllowed || crossed } := by
  have loose : ∀ candidate ∈ scan.candidates, candidate.required = false :=
    fun candidate member => (stands.loose candidate member).required
  let kept : Scan := { scan with
    candidates := scan.candidates.filter fun candidate => !scan.isStale candidate }
  have reached : kept.toNextToken = { kept with
      cursor := ⟨rest, scan.cursor.mark.across between⟩
      keyAllowed := scan.keyAllowed || crossed } := by
    have unmarked : (scan.cursor.mark.index == 0 && scan.cursor.peek == byteOrderMark) = false := by
      have other : scan.cursor.peek ≠ byteOrderMark := by
        rw [Cursor.peek, stands.rest, ahead]
        exact apart.marked opens
      rw [beq_eq_false_iff_ne.mpr other, Bool.and_false]
    have passed := apart.passed opens scan.cursor.mark
    rw [← ahead, ← stands.rest] at passed
    simp only [toNextToken, kept, unmarked, Bool.false_eq_true, if_false, passed, stands.flow,
      beq_self_eq_true, Bool.and_true]
  have unbound : ∀ candidate ∈ kept.toNextToken.candidates, candidate.required = false := by
    rw [reached]
    exact fun candidate member => loose candidate (List.mem_filter.mp member).1
  refine ⟨kept, _, dropStale_loose loose, dropStale_loose unbound, ?_⟩
  rw [reached]
  refine ⟨⟨rfl, ?_, stands.kinds, stands.count, stands.flow, stands.indent, stands.indents, ?_, ?_,
    stands.unfinished⟩, ?_⟩
  · simp only [Mark.across_column, stands.column]
  · simp only [stands.keyAllowed]
  · intro candidate member
    have inside := (List.mem_filter.mp (List.mem_filter.mp member).1).1
    obtain ⟨flow, required, line⟩ := stands.loose candidate inside
    exact ⟨flow, required, Nat.le_trans line (Mark.le_across_line _ _)⟩
  · -- Either a line break has been passed just now, or one was passed with the token.
    intro allowed
    refine List.filter_eq_nil_iff.mpr fun candidate member => ?_
    have inside := (List.mem_filter.mp member).1
    have before : candidate.mark.line < (scan.cursor.mark.across between).line := by
      cases crossed with
      | true =>
          exact Nat.lt_of_le_of_lt (stands.loose candidate inside).line (apart.line_lt scan.cursor.mark)
      | false =>
          rw [Bool.or_false] at allowed
          exact Nat.lt_of_lt_of_le (free allowed rfl candidate inside) (Mark.le_across_line _ _)
    have stale : (candidate.mark.line != (scan.cursor.mark.across between).line) = true :=
      bne_iff_ne.mpr (Nat.ne_of_lt before)
    simp [isStale, stale]

/-! ### Steps -/

def turn (scan : Scan) : Except Failure Scan :=
  (scan.unwind (Int.ofNat scan.cursor.mark.column)).dispatch

theorem step_eq (scan : Scan) :
    scan.step = (do
      let place ← scan.toNextToken.dropStale
      let read ← place.turn
      if read.finished then .ok read else read.dropStale) := rfl

structure Next (place next : Scan) : Prop where
  reads : ∃ read kept, place.turn = .ok read ∧ read.finished = false ∧ read.dropStale = .ok kept ∧
    kept.finished = false ∧ kept.toNextToken.dropStale = .ok next
  shorter : next.cursor.rest.length < place.cursor.rest.length

inductive Goes : Scan → Scan → Prop
  | refl (scan : Scan) : Goes scan scan
  | next {first middle last : Scan} (one : Next first middle) (more : Goes middle last) :
      Goes first last
  /-- A block has ended that a scan would end together with others. -/
  | pop {first middle last : Scan} (turn : first.turn = middle.turn)
      (cursor : first.cursor = middle.cursor) (more : Goes middle last) : Goes first last

theorem Goes.trans {first middle last : Scan} (one : Goes first middle) (two : Goes middle last) :
    Goes first last := by
  induction one with
  | refl scan => exact two
  | next one more ih => exact .next one (ih two)
  | pop turn cursor more ih => exact .pop turn cursor (ih two)

/-- A scan that has a gap to pass before it takes a certain turn. -/
structure Yields (scan place : Scan) : Prop where
  unfinished : scan.finished = false
  reaches : ∃ start, scan.toNextToken.dropStale = .ok start ∧ start.turn = place.turn

theorem run_goes {scan place last : Scan} (yields : scan.Yields place) (goes : Goes place last)
    {fuel : Nat} (enough : place.cursor.rest.length < fuel) :
    ∃ later left, later.Yields last ∧ last.cursor.rest.length < left ∧
      run fuel scan = run left later := by
  induction goes generalizing scan fuel with
  | refl place => exact ⟨scan, fuel, yields, enough, rfl⟩
  | @next first middle last one more ih =>
      obtain ⟨read, kept, turns, unfinished, drops, open', passes⟩ := one.reads
      obtain ⟨start, reaches, same⟩ := yields.reaches
      obtain ⟨fuel, rfl⟩ := Nat.exists_eq_succ_of_ne_zero (Nat.ne_of_gt (Nat.zero_lt_of_lt enough))
      -- One step of the run is one turn of the scan and the gap behind the token.
      have steps : scan.step = .ok kept := by
        rw [step_eq, reaches]
        show (start.turn >>= _) = _
        rw [same, turns]
        show (if read.finished then _ else read.dropStale) = _
        rw [unfinished, if_neg Bool.false_ne_true, drops]
      have shorter := one.shorter
      obtain ⟨later, left, after, enough, ran⟩ :=
        ih ⟨open', middle, passes, rfl⟩ (Nat.lt_of_lt_of_le shorter (Nat.le_of_lt_succ enough))
      refine ⟨later, left, after, enough, ?_⟩
      simp only [run, yields.unfinished, steps, Bool.false_eq_true, if_false, ran]
  | pop turn cursor more ih =>
      rw [cursor] at enough
      obtain ⟨start, reaches, same⟩ := yields.reaches
      exact ih ⟨yields.unfinished, start, reaches, same.trans turn⟩ enough

end Scan

/-- Every scan at the first spot gets to the second one. -/
def Spot.Leads (first last : Spot) : Prop :=
  ∀ scan : Scan, scan.At first → ∃ next, scan.Goes next ∧ next.At last

theorem leads_refl (spot : Spot) : spot.Leads spot :=
  fun scan there => ⟨scan, .refl scan, there⟩

theorem Spot.Leads.trans {first middle last : Spot} (one : first.Leads middle)
    (two : middle.Leads last) : first.Leads last := by
  intro scan there
  obtain ⟨next, goes, there⟩ := one scan there
  obtain ⟨after, further, there⟩ := two next there
  exact ⟨after, goes.trans further, there⟩

theorem next_of_stands {scan read : Scan} {spot : Spot} {between rest : List Code} {crossed : Bool}
    (turn : scan.turn = .ok read) (stands : read.Stands spot)
    (free : spot.keyAllowed = true → crossed = false →
      ∀ candidate ∈ read.candidates, candidate.mark.line < read.cursor.mark.line)
    (ahead : spot.rest = between ++ rest) (apart : Scan.Gap between crossed) (opens : Scan.Opens rest)
    (shorter : rest.length < scan.cursor.rest.length) :
    ∃ next, scan.Next next ∧ next.At { spot with
      rest := rest
      column := columnOver spot.column between
      keyAllowed := spot.keyAllowed || crossed } := by
  obtain ⟨kept, next, drops, passes, after⟩ := stands.passes ahead apart opens free
  have open' : kept.finished = false := by
    rw [Scan.dropStale_loose fun candidate member => (stands.loose candidate member).required] at drops
    cases drops
    exact stands.unfinished
  refine ⟨next, ⟨⟨read, kept, turn, stands.unfinished, drops, open', passes⟩, ?_⟩, after⟩
  rw [after.rest]
  exact shorter

theorem leads_of_turn {first spot : Spot} {between rest : List Code} {crossed : Bool}
    (turns : ∀ scan : Scan, scan.At first → ∃ read : Scan, scan.turn = .ok read ∧
      read.Stands spot ∧
      (spot.keyAllowed = true → crossed = false →
        ∀ candidate ∈ read.candidates, candidate.mark.line < read.cursor.mark.line))
    (ahead : spot.rest = between ++ rest) (apart : Scan.Gap between crossed) (opens : Scan.Opens rest)
    (shorter : rest.length < first.rest.length) :
    first.Leads { spot with
      rest := rest
      column := columnOver spot.column between
      keyAllowed := spot.keyAllowed || crossed } := by
  intro scan there
  obtain ⟨read, turn, stands, free⟩ := turns scan there
  rw [← there.rest] at shorter
  obtain ⟨next, one, after⟩ := next_of_stands turn stands free ahead apart opens shorter
  exact ⟨next, .next one (.refl next), after⟩

/-! ### Ends of blocks -/

def Boundary (rest : List Code) : Prop := rest = [] ∨ opensWithMarker rest = true

/-- A place behind everything in blocks deeper than an indentation. -/
def Ends (indent : Int) (column : Nat) (rest : List Code) : Prop :=
  (column : Int) ≤ indent ∨ column = 0 ∧ Boundary rest

namespace Scan

def popped (scan : Scan) (outer : Int) (indents : List Int) : Scan :=
  { scan with indent := outer, indents := indents }.pushMark .blockEnd

theorem unwind_pop {scan : Scan} {outer column : Int} {indents : List Int} (flow : scan.flow = 0)
    (blocks : scan.indents = outer :: indents) (deeper : column < scan.indent) :
    scan.unwind column = (scan.popped outer indents).unwind column := by
  have level : (scan.flow == 0) = true := beq_iff_eq.mpr flow
  have level' : ((scan.popped outer indents).flow == 0) = true := level
  simp only [unwind, level, level', if_true, blocks, closeBlocks, if_pos deeper]
  rfl

theorem unwind_stays {scan : Scan} {column : Int} (inside : scan.indent ≤ column) :
    scan.unwind column = scan := by
  simp only [unwind]
  split
  · cases blocks : scan.indents with
    | nil => rfl
    | cons outer indents => simp only [closeBlocks, if_neg (Int.not_lt.mpr inside)]
  · rfl

theorem Stands.leaves {scan : Scan} {spot : Spot} (stands : scan.Stands spot)
    (outermost : spot.indent = -1) :
    scan.leaveDocument = .ok { scan with candidates := [], keyAllowed := false } ∧
      ({ scan with candidates := [], keyAllowed := false } : Scan).Stands
        { spot with keyAllowed := false } := by
  obtain ⟨drops, dropped⟩ := stands.drops
  have stays : scan.unwind (-1) = scan := unwind_stays (Int.le_of_eq (stands.indent.trans outermost))
  constructor
  · simp only [leaveDocument, stays, drops]
    rfl
  · exact { dropped with keyAllowed := rfl }

theorem dispatch_end {scan : Scan} (ended : scan.cursor.rest = []) :
    scan.dispatch = scan.streamEnd := by
  have last : (scan.cursor.peek == endMark) = true := by
    rw [Cursor.peek, ended]
    rfl
  simp only [dispatch, last, if_true]

def markerKind (marker : Code) : Kind := if marker = '-' then .documentStart else .documentEnd

theorem dispatch_marker {scan : Scan} {marker : Code} (known : marker = '-' ∨ marker = '.')
    (there : scan.cursor.atMarker marker = true) (start : scan.cursor.mark.column = 0) :
    scan.dispatch = scan.documentMarker (markerKind marker) := by
  have here : scan.cursor.peek = marker := by
    simp only [Cursor.atMarker, Bool.and_eq_true, beq_iff_eq] at there
    exact there.1.1.1
  have column : (scan.cursor.mark.column == 0) = true := beq_iff_eq.mpr start
  rcases known with rfl | rfl
  · have ended : (scan.cursor.peek == endMark) = false := by rw [here]; rfl
    have percent : (scan.cursor.peek == '%') = false := by rw [here]; rfl
    simp only [dispatch, ended, percent, column, there, Bool.false_and, Bool.and_self,
      Bool.false_eq_true, if_false, if_true]
    rfl
  · have ended : (scan.cursor.peek == endMark) = false := by rw [here]; rfl
    have percent : (scan.cursor.peek == '%') = false := by rw [here]; rfl
    have other : scan.cursor.atMarker '-' = false := by
      simp only [Cursor.atMarker, here]
      rfl
    simp only [dispatch, ended, percent, column, there, other, Bool.false_and, Bool.and_false,
      Bool.and_self, Bool.false_eq_true, if_false, if_true]
    rfl

theorem dispatch_leaving {scan other : Scan} (cursor : scan.cursor = other.cursor)
    (leaves : scan.leaveDocument = other.leaveDocument) (boundary : Boundary scan.cursor.rest)
    (start : scan.cursor.mark.column = 0) : scan.dispatch = other.dispatch := by
  rcases boundary with ended | marked
  · rw [dispatch_end ended, dispatch_end (cursor ▸ ended)]
    simp only [streamEnd, leaves]
  · have marked : scan.cursor.atDocumentMarker = true := marked
    simp only [Cursor.atDocumentMarker, Bool.or_eq_true] at marked
    obtain ⟨marker, known, there⟩ : ∃ marker : Code, (marker = '-' ∨ marker = '.') ∧
        scan.cursor.atMarker marker = true := by
      rcases marked with there | there
      · exact ⟨'-', .inl rfl, there⟩
      · exact ⟨'.', .inr rfl, there⟩
    rw [dispatch_marker known there start,
      dispatch_marker known (cursor ▸ there) (cursor ▸ start)]
    simp only [documentMarker, leaves]

theorem leaveDocument_pop {scan : Scan} {outer : Int} {indents : List Int} (flow : scan.flow = 0)
    (blocks : scan.indents = outer :: indents) (deep : -1 < scan.indent) :
    scan.leaveDocument = (scan.popped outer indents).leaveDocument := by
  simp only [leaveDocument, unwind_pop flow blocks deep]

theorem turn_pop {scan : Scan} {outer : Int} {indents : List Int} (flow : scan.flow = 0)
    (blocks : scan.indents = outer :: indents) (deeper : outer < scan.indent) (least : -1 ≤ outer)
    (ends : Ends outer scan.cursor.mark.column scan.cursor.rest) :
    scan.turn = (scan.popped outer indents).turn := by
  by_cases inner : Int.ofNat scan.cursor.mark.column < scan.indent
  · exact congrArg dispatch (unwind_pop flow blocks inner)
  · -- Only the outermost block is as far to the left as the end of a document.
    rw [Int.ofNat_eq_natCast] at inner
    rcases ends with shallow | ⟨start, boundary⟩
    · omega
    · have same : (scan.popped outer indents).cursor = scan.cursor := rfl
      have first : scan.unwind (Int.ofNat scan.cursor.mark.column) = scan := by
        apply unwind_stays
        rw [Int.ofNat_eq_natCast]
        omega
      have second : (scan.popped outer indents).unwind (Int.ofNat scan.cursor.mark.column) =
          scan.popped outer indents := by
        apply unwind_stays
        show outer ≤ _
        rw [Int.ofNat_eq_natCast]
        omega
      simp only [turn, same, first, second]
      exact dispatch_leaving rfl (leaveDocument_pop flow blocks (by omega)) boundary start

end Scan

theorem leads_pop {rest : List Code} {column : Nat} {kinds : List Kind} {indent outer : Int}
    {indents : List Int} {keyAllowed : Bool} (deeper : outer < indent) (least : -1 ≤ outer)
    (ends : Ends outer column rest) :
    (⟨rest, column, kinds, indent, outer :: indents, keyAllowed⟩ : Spot).Leads
      ⟨rest, column, kinds ++ [.blockEnd], outer, indents, keyAllowed⟩ := by
  intro scan there
  have turns : scan.turn = (scan.popped outer indents).turn := by
    apply Scan.turn_pop there.flow there.indents
    · rw [there.indent]
      exact deeper
    · exact least
    · rw [there.column, there.rest]
      exact ends
  refine ⟨scan.popped outer indents, .pop turns rfl (.refl _), ⟨⟨there.rest, there.column, ?_, ?_,
    there.flow, rfl, rfl, there.keyAllowed, there.loose, there.unfinished⟩, there.free⟩⟩
  · simp only [Scan.popped, Scan.pushMark, Scan.push, List.reverse_cons, List.map_append,
      List.map_cons, List.map_nil, there.kinds]
  · exact congrArg (· + 1) there.count

/-! ### Whole texts -/

theorem run_end {scan place : Scan} {kinds : List Kind} {keyAllowed : Bool} (yields : scan.Yields place)
    (there : place.At ⟨[], 0, kinds, -1, [], keyAllowed⟩) {left : Nat} (more : 0 < left) :
    ∃ tokens, Scan.run left scan = (tokens, none) ∧
      tokens.map Token.kind = kinds ++ [.streamEnd] := by
  obtain ⟨start, reaches, same⟩ := yields.reaches
  obtain ⟨left, rfl⟩ := Nat.exists_eq_succ_of_ne_zero (Nat.ne_of_gt more)
  let ended : Scan := { { place with candidates := [], keyAllowed := false }.pushMark .streamEnd with
    candidates := [], finished := true }
  obtain ⟨leaves, -⟩ := there.toStands.leaves rfl
  have turn : place.turn = .ok ended := by
    have stays : place.unwind (Int.ofNat place.cursor.mark.column) = place := by
      apply Scan.unwind_stays
      have outermost : place.indent = -1 := there.indent
      rw [outermost, Int.ofNat_eq_natCast]
      omega
    simp only [Scan.turn, stays, Scan.dispatch_end there.rest, Scan.streamEnd, leaves]
    rfl
  have steps : scan.step = .ok ended := by
    rw [Scan.step_eq, reaches]
    show (start.turn >>= _) = _
    rw [same, turn]
    rfl
  have final : Scan.run left ended = (ended.final, none) := by
    cases left with
    | zero => rfl
    | succ left => rfl
  refine ⟨ended.final, ?_, ?_⟩
  · simp only [Scan.run, yields.unfinished, steps, Bool.false_eq_true, if_false, final]
  · simp only [Scan.final, ended, Scan.pushMark, Scan.push, List.foldl_nil, Nat.sub_self,
      List.drop_zero, List.reverse_cons, List.map_append, List.map_cons, List.map_nil]
    exact congrArg (· ++ _) there.kinds

/-- A text whose first spot leads to its end is read as a whole. -/
theorem ofText_of_leads {text : List Code} {kinds : List Kind} {keyAllowed : Bool}
    (opens : Scan.Opens text)
    (leads : (⟨text, 0, [.streamStart], -1, [], true⟩ : Spot).Leads
      ⟨[], 0, kinds, -1, [], keyAllowed⟩) :
    ∃ tokens, ofText text = (tokens, none) ∧ tokens.map Token.kind = kinds ++ [.streamEnd] := by
  have stands : (Scan.start text).Stands ⟨text, 0, [.streamStart], -1, [], true⟩ :=
    ⟨rfl, rfl, rfl, rfl, rfl, rfl, rfl, rfl, by simp [Scan.start], rfl⟩
  obtain ⟨kept, place, drops, passes, there⟩ :=
    stands.passes rfl (.spaces 0) opens (by simp [Scan.start])
  cases (drops : Except.ok (Scan.start text) = .ok kept)
  obtain ⟨last, goes, after⟩ := leads place there
  have enough : place.cursor.rest.length < text.length + 2 := by
    rw [there.rest]
    show text.length < _
    omega
  obtain ⟨later, left, yields, more, ran⟩ :=
    Scan.run_goes ⟨rfl, place, passes, rfl⟩ goes enough
  obtain ⟨tokens, ended, kinds⟩ := run_end yields after (Nat.zero_lt_of_lt more)
  exact ⟨tokens, ran.trans ended, kinds⟩

end SecretFill.Yaml.Token
