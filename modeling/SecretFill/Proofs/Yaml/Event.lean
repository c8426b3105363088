import SecretFill.Proofs.Yaml.Document
/-!
The events of an outline. A reader that has the tokens of an outline before it gives the events of
the outline, and goes on with what its stack says. Where the writer has left out the start and the
end of a list, they are given all the same.
-/

namespace SecretFill.Yaml

open Writing

def anchorName (anchors : List Nat) (cell : Nat) : Option Text :=
  (anchorOf anchors cell).map Text.ofList

namespace Outline

mutual

def events (anchors : List Nat) : Outline → List Event.Kind
  | .alias cell => [.alias (Text.ofList ((anchorOf anchors cell).getD []))]
  | .scalar cell written =>
      [.scalar ⟨cell.bind (anchorName anchors), none⟩ (Text.ofList (rereadText written.text))
        (written.style false = .plain)]
  | .sequence cell items =>
      .sequenceStart ⟨anchorName anchors cell, none⟩ :: itemEvents anchors items ++ [.sequenceEnd]
  | .mapping cell _ entries =>
      .mappingStart ⟨anchorName anchors cell, none⟩ :: entryEvents anchors entries ++ [.mappingEnd]

def itemEvents (anchors : List Nat) : List Outline → List Event.Kind
  | [] => []
  | item :: rest => item.events anchors ++ itemEvents anchors rest

def entryEvents (anchors : List Nat) : List (Outline × Outline) → List Event.Kind
  | [] => []
  | (key, value) :: rest =>
      key.events anchors ++ (value.events anchors ++ entryEvents anchors rest)

end

end Outline

namespace Event

/-- A reader gives some events and is then another one. -/
inductive Reader.Gives : Reader → List Event → Reader → Prop
  | refl (reader : Reader) : Gives reader [] reader
  | next {first middle last : Reader} {event : Event} {events : List Event}
      (one : next? first = .ok (some (event, middle))) (more : Gives middle events last) :
      Gives first (event :: events) last

namespace Reader

theorem Gives.trans {first middle last : Reader} {before after : List Event}
    (one : first.Gives before middle) (two : middle.Gives after last) :
    first.Gives (before ++ after) last := by
  induction one with
  | refl reader => exact two
  | next one more ih => exact .next one (ih two)

theorem Gives.readAll {first last : Reader} {events : List Event} (gives : first.Gives events last)
    (left : Nat) :
    readAll (events.length + left) first =
      (events ++ (readAll left last).1, (readAll left last).2) := by
  induction gives with
  | refl reader => simp
  | @next first middle last event events one more ih =>
      have size : (event :: events).length + left = events.length + left + 1 := by
        rw [List.length_cons]
        omega
      rw [size, Event.readAll, one]
      simp only [ih, List.cons_append]

/-- A reader reads a node as some events, and goes on. -/
structure Reads (reader : Reader) (indentless : Bool) (kinds : List Kind) (last : Reader) : Prop where
  first : ∃ event middle events, node true indentless reader = .ok (event, middle) ∧
    middle.Gives events last ∧ (event :: events).map Event.kind = kinds

abbrev ahead (reader : Reader) (tokens : List Token) : Reader := { reader with tokens := tokens }

end Reader

/-! ### The first event of a node -/

section
variable {reader : Reader} {anchor : Option (List Code)} {named rest : List Token} {token : Token}
  {indentless : Bool}

inductive Nests : Token.Kind → (Properties → Kind) → Goal → Prop
  | flowSequence : Nests .flowSequenceStart .sequenceStart (.flowSequence true)
  | flowMapping : Nests .flowMappingStart .mappingStart (.flowKey true)
  | blockSequence : Nests .blockSequenceStart .sequenceStart .blockSequence
  | blockMapping : Nests .blockMappingStart .mappingStart .blockKey

inductive Closes : Goal → Token.Kind → Kind → Prop
  | flowSequence : Closes (.flowSequence true) .flowSequenceEnd .sequenceEnd
  | flowMapping : Closes (.flowKey true) .flowMappingEnd .mappingEnd
  | blockSequence : Closes .blockSequence .blockEnd .sequenceEnd
  | blockMapping : Closes .blockKey .blockEnd .mappingEnd

theorem anchored_cases (anchored : named.map Token.kind = anchorKinds anchor) :
    anchor = none ∧ named = [] ∨ ∃ name start stop, anchor = some name ∧
      named = [⟨.anchor (Text.ofList name), start, stop⟩] := by
  cases anchor with
  | none => exact .inl ⟨rfl, List.map_eq_nil_iff.mp anchored⟩
  | some name =>
      obtain ⟨⟨kind, start, stop⟩, rest, rfl, here, none⟩ := List.map_eq_cons_iff.mp anchored
      cases here
      cases List.map_eq_nil_iff.mp none
      exact .inr ⟨name, start, stop, rfl, rfl⟩

theorem node_nested (tokens : reader.tokens = named ++ token :: rest)
    (anchored : named.map Token.kind = anchorKinds anchor) {opening : Token.Kind}
    {kind : Properties → Kind} {goal : Goal} (nests : Nests opening kind goal)
    (here : token.kind = opening) :
    ∃ mark, node true indentless reader =
      .ok (⟨kind ⟨anchor.map Text.ofList, none⟩, mark⟩,
        ((reader.ahead rest).enter token.start).goTo goal) := by
  obtain ⟨tokens', failure, goal', stack, starts, handles⟩ := reader
  obtain ⟨kind', start, stop⟩ := token
  cases tokens
  cases here
  rcases anchored_cases anchored with ⟨rfl, rfl⟩ | ⟨name, mark, stop', rfl, rfl⟩
  · cases nests <;> exact ⟨_, rfl⟩
  · cases nests <;> exact ⟨_, rfl⟩

theorem node_scalar (tokens : reader.tokens = named ++ token :: rest)
    (anchored : named.map Token.kind = anchorKinds anchor) {text : Text} {style : Style}
    (scalar : token.kind = .scalar text style) :
    ∃ mark, node true indentless reader =
      .ok (⟨.scalar ⟨anchor.map Text.ofList, none⟩ text (style = .plain), mark⟩,
        (reader.ahead rest).leave) := by
  obtain ⟨tokens', failure, goal', stack, starts, handles⟩ := reader
  obtain ⟨kind', start, stop⟩ := token
  cases tokens
  cases scalar
  rcases anchored_cases anchored with ⟨rfl, rfl⟩ | ⟨name, mark, stop', rfl, rfl⟩
  · cases style <;> exact ⟨_, rfl⟩
  · cases style <;> exact ⟨_, rfl⟩

theorem node_indentless (tokens : reader.tokens = named ++ token :: rest)
    (anchored : named.map Token.kind = anchorKinds anchor) (entry : token.kind = .blockEntry) :
    ∃ mark, node true true reader =
      .ok (⟨.sequenceStart ⟨anchor.map Text.ofList, none⟩, mark⟩,
        (reader.ahead (token :: rest)).goTo .indentlessSequence) := by
  obtain ⟨tokens', failure, goal', stack, starts, handles⟩ := reader
  obtain ⟨kind', start, stop⟩ := token
  cases tokens
  cases entry
  rcases anchored_cases anchored with ⟨rfl, rfl⟩ | ⟨name, mark, stop', rfl, rfl⟩
  · exact ⟨_, rfl⟩
  · exact ⟨_, rfl⟩

theorem node_alias (tokens : reader.tokens = token :: rest) {name : Text}
    (alias' : token.kind = .alias name) :
    ∃ mark, node true indentless reader = .ok (⟨.alias name, mark⟩, (reader.ahead rest).leave) := by
  obtain ⟨tokens', failure, goal', stack, starts, handles⟩ := reader
  obtain ⟨kind', start, stop⟩ := token
  cases tokens
  cases alias'
  exact ⟨_, rfl⟩

end

/-! ### Items and entries -/

inductive StartsNode : Token.Kind → Prop
  | alias (name : Text) : StartsNode (.alias name)
  | anchor (name : Text) : StartsNode (.anchor name)
  | scalar (text : Text) (style : Style) : StartsNode (.scalar text style)
  | flowSequence : StartsNode .flowSequenceStart
  | flowMapping : StartsNode .flowMappingStart
  | blockSequence : StartsNode .blockSequenceStart
  | blockMapping : StartsNode .blockMappingStart

section
variable {reader : Reader} {mark token : Token} {rest : List Token}

theorem next_item (goal : reader.goal = .blockSequence ∨ reader.goal = .indentlessSequence)
    (tokens : reader.tokens = mark :: token :: rest) (entry : mark.kind = .blockEntry)
    (starts : StartsNode token.kind) :
    next? reader =
      (node true false ((reader.ahead (token :: rest)).thenGo reader.goal)).map some := by
  obtain ⟨tokens', failure, goal', stack, starts', handles⟩ := reader
  obtain ⟨kind, start, stop⟩ := token
  obtain ⟨kind', start', stop'⟩ := mark
  cases tokens
  cases entry
  rcases goal with rfl | rfl
  · cases starts <;> rfl
  · cases starts <;> rfl

theorem next_key (goal : reader.goal = .blockKey) (tokens : reader.tokens = mark :: token :: rest)
    (key : mark.kind = .key) (starts : StartsNode token.kind) :
    next? reader = (node true true ((reader.ahead (token :: rest)).thenGo .blockValue)).map some := by
  obtain ⟨tokens', failure, goal', stack, starts', handles⟩ := reader
  obtain ⟨kind, start, stop⟩ := token
  obtain ⟨kind', start', stop'⟩ := mark
  cases tokens
  cases key
  cases goal
  cases starts <;> rfl

theorem next_value (goal : reader.goal = .blockValue) (tokens : reader.tokens = mark :: token :: rest)
    (value : mark.kind = .value) (starts : StartsNode token.kind ∨ token.kind = .blockEntry) :
    next? reader = (node true true ((reader.ahead (token :: rest)).thenGo .blockKey)).map some := by
  obtain ⟨tokens', failure, goal', stack, starts', handles⟩ := reader
  obtain ⟨kind, start, stop⟩ := token
  obtain ⟨kind', start', stop'⟩ := mark
  cases tokens
  cases value
  cases goal
  rcases starts with starts | entry
  · cases starts <;> rfl
  · cases entry
    rfl

theorem Reader.Reads.gives {inner last : Reader} {indentless : Bool} {kinds : List Kind}
    (reads : inner.Reads indentless kinds last)
    (next : next? reader = (node true indentless inner).map some) :
    ∃ events, reader.Gives events last ∧ events.map Event.kind = kinds := by
  obtain ⟨event, middle, events, first, more, same⟩ := reads.first
  rw [first] at next
  exact ⟨event :: events, .next next more, same⟩

end

theorem kinds_starts (anchors : List Nat) ( inMapping fresh : Bool) (outline : Outline) :
    ∃ first rest, outline.kinds anchors inMapping fresh = first :: rest ∧
      (StartsNode first ∨ (inMapping && !fresh) = true ∧ first = .blockEntry) := by
  -- With an anchor the first token is the anchor, whatever is behind it.
  have named {anchor : Option (List Code)} {kind : Token.Kind} {kinds : List Token.Kind}
      (starts : StartsNode kind ∨ (inMapping && !(fresh && anchor.isNone)) = true ∧
        kind = .blockEntry) :
      ∃ first rest, anchorKinds anchor ++ kind :: kinds = first :: rest ∧
        (StartsNode first ∨ (inMapping && !fresh) = true ∧ first = .blockEntry) := by
    cases anchor with
    | none =>
        rw [Option.isNone_none, Bool.and_true] at starts
        exact ⟨_, _, rfl, starts⟩
    | some name => exact ⟨_, _, rfl, .inl (.anchor _)⟩
  cases outline with
  | «alias» cell =>
      simp only [Outline.kinds]
      exact ⟨_, _, rfl, .inl (.alias _)⟩
  | scalar cell written =>
      simp only [Outline.kinds]
      exact named (.inl (.scalar _ _))
  | sequence cell items =>
      cases items with
      | nil =>
          simp only [Outline.kinds]
          exact named (.inl .flowSequence)
      | cons item rest =>
          simp only [Outline.kinds]
          split
          · next both =>
              rw [Outline.itemKinds]
              exact named (.inr ⟨both, rfl⟩)
          · exact named (.inl .blockSequence)
  | mapping cell tag entries =>
      cases entries with
      | nil =>
          simp only [Outline.kinds]
          exact named (.inl .flowMapping)
      | cons entry rest =>
          simp only [Outline.kinds]
          exact named (.inl .blockMapping)

theorem head_of_kinds {anchors : List Nat} { inMapping fresh : Bool} {outline : Outline}
    {first : List Token} (kinds : first.map Token.kind = outline.kinds anchors inMapping fresh) :
    ∃ token later, first = token :: later ∧
      (StartsNode token.kind ∨ (inMapping && !fresh) = true ∧ token.kind = .blockEntry) := by
  obtain ⟨kind, others, same, starts⟩ := kinds_starts anchors inMapping fresh outline
  rw [same] at kinds
  obtain ⟨token, later, rfl, rfl, -⟩ := List.map_eq_cons_iff.mp kinds
  exact ⟨token, later, rfl, starts⟩

theorem head_of_start {anchors : List Nat} { inMapping fresh : Bool} {outline : Outline}
    {first : List Token} (alone : (inMapping && !fresh) = false)
    (kinds : first.map Token.kind = outline.kinds anchors inMapping fresh) :
    ∃ token later, first = token :: later ∧ StartsNode token.kind := by
  obtain ⟨token, later, same, starts | ⟨listed, -⟩⟩ := head_of_kinds kinds
  · exact ⟨token, later, same, starts⟩
  · rw [alone] at listed
    cases listed

/-! ### Nodes -/

theorem leave_ahead {reader : Reader} {goal : Goal} {stack : List Goal}
    (waits : reader.stack = goal :: stack) (rest : List Token) :
    (reader.ahead rest).leave = { reader.ahead rest with goal := goal, stack := stack } := by
  simp only [Reader.leave, waits]

theorem reads_collection {reader inner before last : Reader} {indentless : Bool} {kind ended : Kind}
    {mark mark' : Mark} {kinds : List Kind}
    (opens : node true indentless reader = .ok (⟨kind, mark⟩, inner))
    (inside : ∃ events, inner.Gives events before ∧ events.map Event.kind = kinds)
    (closes : next? before = .ok (some (⟨ended, mark'⟩, last))) :
    reader.Reads indentless (kind :: kinds ++ [ended]) last := by
  obtain ⟨events, gives, same⟩ := inside
  refine ⟨_, _, events ++ [⟨ended, mark'⟩], opens, gives.trans (.next closes (.refl _)), ?_⟩
  simp [same]

theorem next_end {reader : Reader} {goal : Goal} {stack : List Goal} {token : Token}
    {rest : List Token} {kind : Kind} (closes : Closes reader.goal token.kind kind)
    (tokens : reader.tokens = token :: rest) (waits : reader.stack = goal :: stack) :
    ∃ mark, next? reader = .ok (some (⟨kind, mark⟩,
      { reader with tokens := rest, goal := goal, stack := stack, starts := reader.starts.tail })) := by
  obtain ⟨tokens', failure, goal', stack', starts', handles⟩ := reader
  obtain ⟨kind', start, stop⟩ := token
  cases tokens
  cases waits
  cases closes <;> exact ⟨_, rfl⟩

theorem gives_nothing {reader : Reader} {first rest : List Token} (none : first.map Token.kind = [])
    (tokens : reader.tokens = first ++ rest) :
    ∃ events, reader.Gives events (reader.ahead rest) ∧ events.map Event.kind = [] := by
  cases List.map_eq_nil_iff.mp none
  obtain ⟨tokens', failure, goal, stack, starts, handles⟩ := reader
  cases tokens
  exact ⟨[], .refl _, rfl⟩

theorem reads_nested {reader : Reader} {indentless : Bool} {anchor : Option (List Code)}
    {first rest : List Token} {opening ending : Token.Kind} {innerKinds : List Token.Kind}
    {kind : Properties → Kind} {ended : Kind} {kinds : List Kind} {goal inside : Goal}
    {stack : List Goal} (nests : Nests opening kind inside) (closes : Closes inside ending ended)
    (tokenKinds : first.map Token.kind =
      anchorKinds anchor ++ opening :: (innerKinds ++ [ending]))
    (tokens : reader.tokens = first ++ rest) (waits : reader.stack = goal :: stack)
    (gives : ∀ (more : List Token) (stop : Token) (inner : Reader),
      more.map Token.kind = innerKinds → stop.kind = ending → inner.tokens = more ++ stop :: rest →
      inner.goal = inside →
      ∃ events, inner.Gives events (inner.ahead (stop :: rest)) ∧ events.map Event.kind = kinds) :
    reader.Reads indentless (kind ⟨anchor.map Text.ofList, none⟩ :: kinds ++ [ended])
      { reader.ahead rest with goal := goal, stack := stack } := by
  obtain ⟨named, tail, rfl, anchored, pair⟩ := List.map_eq_append_iff.mp tokenKinds
  obtain ⟨start, later, rfl, rfl, between⟩ := List.map_eq_cons_iff.mp pair
  obtain ⟨more, last, rfl, innerKinds, one⟩ := List.map_eq_append_iff.mp between
  obtain ⟨stop, later, rfl, rfl, none⟩ := List.map_eq_cons_iff.mp one
  cases List.map_eq_nil_iff.mp none
  simp only [List.append_assoc, List.cons_append, List.nil_append] at tokens
  obtain ⟨mark, node⟩ := @node_nested reader _ _ _ _ indentless tokens anchored _ _ _ nests rfl
  let inner : Reader := ((reader.ahead (more ++ stop :: rest)).enter start.start).goTo inside
  obtain ⟨mark', ended⟩ := @next_end (inner.ahead (stop :: rest)) goal stack stop rest _ closes rfl
    waits
  exact reads_collection node (gives more stop inner innerKinds rfl rfl rfl) ended

theorem next_leave {reader : Reader} {goal : Goal} {stack : List Goal} {token : Token}
    {rest : List Token} (here : reader.goal = .indentlessSequence) (other : token.kind ≠ .blockEntry)
    (tokens : reader.tokens = token :: rest) (waits : reader.stack = goal :: stack) :
    ∃ mark, next? reader =
      .ok (some (⟨.sequenceEnd, mark⟩, { reader with goal := goal, stack := stack })) := by
  obtain ⟨tokens', failure, goal', stack', starts', handles⟩ := reader
  obtain ⟨kind', start, stop⟩ := token
  cases tokens
  cases waits
  cases here
  cases kind' with
  | blockEntry => exact absurd rfl other
  | _ => exact ⟨_, rfl⟩

theorem entries_follow {anchors : List Nat} {entries : List (Outline × Outline)}
    {first rest : List Token} (kinds : first.map Token.kind = Outline.entryKinds anchors entries)
    (follows : ∃ token later, rest = token :: later ∧ token.kind ≠ .blockEntry) :
    ∃ token later, first ++ rest = token :: later ∧ token.kind ≠ .blockEntry := by
  cases entries with
  | nil =>
      rw [Outline.entryKinds] at kinds
      cases List.map_eq_nil_iff.mp kinds
      exact follows
  | cons entry others =>
      rw [Outline.entryKinds] at kinds
      obtain ⟨next, tail, rfl, keyMark, -⟩ := List.map_eq_cons_iff.mp kinds
      refine ⟨next, _, rfl, ?_⟩
      rw [keyMark]
      exact Token.Kind.noConfusion

mutual

/-- The tokens of an outline are read as its events. -/
theorem reads_node (anchors : List Nat) { inMapping fresh : Bool} {first rest : List Token}
    {goal : Goal} {stack : List Goal} :
    (outline : Outline) → {reader : Reader} →
      first.map Token.kind = outline.kinds anchors inMapping fresh →
      reader.tokens = first ++ rest → reader.stack = goal :: stack →
      ( inMapping = true → ∃ token later, rest = token :: later ∧ token.kind ≠ .blockEntry) →
      reader.Reads inMapping (outline.events anchors)
        { reader.ahead rest with goal := goal, stack := stack }
  | .alias cell, reader, kinds, tokens, waits, _ => by
      simp only [Outline.kinds] at kinds
      obtain ⟨token, later, rfl, name, none⟩ := List.map_eq_cons_iff.mp kinds
      cases List.map_eq_nil_iff.mp none
      obtain ⟨mark, node⟩ := @node_alias reader rest token inMapping tokens _ name
      rw [leave_ahead waits] at node
      rw [Outline.events]
      exact ⟨_, _, [], node, .refl _, rfl⟩
  | .scalar cell written, reader, kinds, tokens, waits, _ => by
      simp only [Outline.kinds] at kinds
      obtain ⟨named, tail, rfl, anchored, one⟩ := List.map_eq_append_iff.mp kinds
      obtain ⟨token, later, rfl, scalar, none⟩ := List.map_eq_cons_iff.mp one
      cases List.map_eq_nil_iff.mp none
      rw [List.append_assoc] at tokens
      obtain ⟨mark, node⟩ := @node_scalar reader _ _ _ _ inMapping tokens anchored _ _ scalar
      rw [leave_ahead waits] at node
      rw [Outline.events]
      refine ⟨_, _, [], node, .refl _, ?_⟩
      cases cell with
      | none => rfl
      | some cell => rfl
  | .sequence cell [], reader, kinds, tokens, waits, _ => by
      simp only [Outline.kinds] at kinds
      rw [Outline.events, Outline.itemEvents]
      exact reads_nested .flowSequence .flowSequence kinds tokens waits
        fun more stop inner none _ tokens _ => gives_nothing none tokens
  | .sequence cell (item :: others), reader, kinds, tokens, waits, follows => by
      simp only [Outline.kinds] at kinds
      rw [Outline.events]
      split at kinds
      · next both =>
          -- Such a list ends where no item follows, so the token behind it decides.
          have mapping : inMapping = true := (Bool.and_eq_true_iff.mp both).1
          subst mapping
          obtain ⟨token, later, rfl, other⟩ := follows rfl
          obtain ⟨named, tail, rfl, anchored, inside⟩ := List.map_eq_append_iff.mp kinds
          rw [List.append_assoc] at tokens
          obtain ⟨start, more, rfl, entry⟩ : ∃ start more, tail = start :: more ∧
              start.kind = .blockEntry := by
            rw [Outline.itemKinds] at inside
            obtain ⟨start, more, rfl, entry, -⟩ := List.map_eq_cons_iff.mp inside
            exact ⟨start, more, rfl, entry⟩
          obtain ⟨mark, node⟩ := node_indentless tokens anchored entry
          have items := @gives_items anchors (start :: more) (token :: later) (item :: others)
            ((reader.ahead (start :: more ++ token :: later)).goTo .indentlessSequence) inside rfl
            (.inr rfl)
          obtain ⟨mark', ended⟩ := @next_leave
            ((reader.ahead (token :: later)).goTo .indentlessSequence) goal stack token later rfl other
            rfl waits
          exact reads_collection node items ended
      · exact reads_nested .blockSequence .blockSequence kinds tokens waits
          fun more stop inner kinds _ tokens inside =>
            gives_items anchors (item :: others) kinds tokens (.inl inside)
  | .mapping cell tag [], reader, kinds, tokens, waits, _ => by
      simp only [Outline.kinds] at kinds
      rw [Outline.events, Outline.entryEvents]
      exact reads_nested .flowMapping .flowMapping kinds tokens waits
        fun more stop inner none _ tokens _ => gives_nothing none tokens
  | .mapping cell tag (entry :: others), reader, kinds, tokens, waits, _ => by
      simp only [Outline.kinds] at kinds
      rw [Outline.events]
      refine reads_nested .blockMapping .blockMapping kinds tokens waits
        fun more stop inner kinds ending tokens inside =>
          gives_entries anchors (entry :: others) kinds tokens inside ⟨stop, rest, rfl, ?_⟩
      rw [ending]
      exact Token.Kind.noConfusion

theorem gives_items (anchors : List Nat) {first rest : List Token} :
    (items : List Outline) → {reader : Reader} →
      first.map Token.kind = Outline.itemKinds anchors items → reader.tokens = first ++ rest →
      reader.goal = .blockSequence ∨ reader.goal = .indentlessSequence →
      ∃ events, reader.Gives events (reader.ahead rest) ∧
        events.map Event.kind = Outline.itemEvents anchors items
  | [], reader, kinds, tokens, goal => by
      rw [Outline.itemKinds] at kinds
      rw [Outline.itemEvents]
      exact gives_nothing kinds tokens
  | item :: others, reader, kinds, tokens, goal => by
      rw [Outline.itemKinds, List.cons_append] at kinds
      obtain ⟨mark, tail, rfl, entry, kinds⟩ := List.map_eq_cons_iff.mp kinds
      obtain ⟨one, more, rfl, here, later⟩ := List.map_eq_append_iff.mp kinds
      obtain ⟨token, tail, rfl, starts⟩ := head_of_start rfl here
      rw [List.cons_append, List.append_assoc] at tokens
      have reads := reads_node anchors item here
        (rfl : ((reader.ahead (token :: tail ++ (more ++ rest))).thenGo reader.goal).tokens = _) rfl
        (fun impossible => Bool.noConfusion impossible)
      obtain ⟨events, gives, same⟩ := reads.gives (next_item goal tokens entry starts)
      obtain ⟨events', gives', same'⟩ := @gives_items anchors more rest others
        (reader.ahead (more ++ rest)) later rfl goal
      rw [Outline.itemEvents]
      exact ⟨events ++ events', gives.trans gives', by rw [List.map_append, same, same']⟩

theorem gives_entries (anchors : List Nat) {first rest : List Token} :
    (entries : List (Outline × Outline)) → {reader : Reader} →
      first.map Token.kind = Outline.entryKinds anchors entries → reader.tokens = first ++ rest →
      reader.goal = .blockKey → (∃ token later, rest = token :: later ∧ token.kind ≠ .blockEntry) →
      ∃ events, reader.Gives events (reader.ahead rest) ∧
        events.map Event.kind = Outline.entryEvents anchors entries
  | [], reader, kinds, tokens, goal, follows => by
      rw [Outline.entryKinds] at kinds
      rw [Outline.entryEvents]
      exact gives_nothing kinds tokens
  | (key, value) :: others, reader, kinds, tokens, goal, follows => by
      simp only [Outline.entryKinds, List.cons_append, List.append_assoc] at kinds
      obtain ⟨mark, tail, rfl, keyMark, kinds⟩ := List.map_eq_cons_iff.mp kinds
      obtain ⟨one, tail, rfl, keyKinds, kinds⟩ := List.map_eq_append_iff.mp kinds
      obtain ⟨mark', tail, rfl, valueMark, kinds⟩ := List.map_eq_cons_iff.mp kinds
      obtain ⟨two, more, rfl, valueKinds, later⟩ := List.map_eq_append_iff.mp kinds
      obtain ⟨token, tail, rfl, starts⟩ := head_of_start rfl keyKinds
      obtain ⟨token', tail', rfl, starts'⟩ := head_of_kinds valueKinds
      have starts' : StartsNode token'.kind ∨ token'.kind = .blockEntry :=
        starts'.imp_right And.right
      -- The key ends at its colon, and the value at the next entry or the end.
      have colon : mark'.kind ≠ .blockEntry := by
        rw [valueMark]
        exact Token.Kind.noConfusion
      simp only [List.cons_append, List.append_assoc] at tokens
      have readsKey := reads_node anchors key keyKinds
        (rfl : ((reader.ahead (token :: tail ++
          (mark' :: (token' :: tail' ++ (more ++ rest))))).thenGo .blockValue).tokens = _) rfl
        (fun _ => ⟨_, _, rfl, colon⟩)
      obtain ⟨events, gives, same⟩ := readsKey.gives (next_key goal tokens keyMark starts)
      have further := entries_follow later follows
      let middle : Reader :=
        { reader.ahead (mark' :: (token' :: tail' ++ (more ++ rest))) with
          goal := .blockValue, stack := reader.stack }
      have readsValue := reads_node anchors value valueKinds
        (rfl : ((middle.ahead (token' :: tail' ++ (more ++ rest))).thenGo .blockKey).tokens = _) rfl
        (fun _ => further)
      obtain ⟨events', gives', same'⟩ :=
        readsValue.gives (@next_value middle _ _ _ rfl rfl valueMark starts')
      obtain ⟨events'', gives'', same''⟩ := @gives_entries anchors more rest others
        { middle.ahead (more ++ rest) with goal := .blockKey, stack := reader.stack } later rfl rfl
        follows
      rw [Outline.entryEvents]
      refine ⟨events ++ (events' ++ events''), gives.trans (gives'.trans ?_), ?_⟩
      · have last : ({ middle.ahead (more ++ rest) with
            goal := .blockKey, stack := reader.stack } : Reader).ahead rest = reader.ahead rest := by
          rw [← goal]
        rwa [last] at gives''
      · rw [List.map_append, List.map_append, same, same', same'']

end

/-! ### Documents -/

section
variable {reader : Reader} {token : Token} {rest : List Token}

theorem next_document (goal : reader.goal = .document ∨ reader.goal = .firstDocument)
    (tokens : reader.tokens = token :: rest) (marker : token.kind = .documentStart)
    (outside : reader.stack = []) :
    ∃ mark handles, next? reader = .ok (some (⟨.documentStart, mark⟩,
      { reader with
        tokens := rest, goal := .documentContent, stack := [.documentEnd], handles := handles })) := by
  obtain ⟨tokens', failure, goal', stack, starts, handles⟩ := reader
  obtain ⟨kind, start, stop⟩ := token
  cases tokens
  cases marker
  cases outside
  rcases goal with rfl | rfl
  · exact ⟨_, _, rfl⟩
  · exact ⟨_, _, rfl⟩

theorem next_bare (goal : reader.goal = .firstDocument) (tokens : reader.tokens = token :: rest)
    (starts : StartsNode token.kind) (outside : reader.stack = []) :
    ∃ mark handles, next? reader = .ok (some (⟨.documentStart, mark⟩,
      { reader with goal := .blockNode, stack := [.documentEnd], handles := handles })) := by
  obtain ⟨tokens', failure, goal', stack, starts', handles⟩ := reader
  obtain ⟨kind, start, stop⟩ := token
  cases tokens
  cases goal
  cases outside
  cases starts <;> exact ⟨_, _, rfl⟩

theorem next_content (goal : reader.goal = .documentContent ∨ reader.goal = .blockNode)
    (tokens : reader.tokens = token :: rest) (starts : StartsNode token.kind) :
    next? reader = (node true false reader).map some := by
  obtain ⟨tokens', failure, goal', stack, starts', handles⟩ := reader
  obtain ⟨kind, start, stop⟩ := token
  cases tokens
  rcases goal with rfl | rfl
  · cases starts <;> rfl
  · rfl

theorem next_documentEnd (goal : reader.goal = .documentEnd) (tokens : reader.tokens = token :: rest) :
    ∃ mark, next? reader = .ok (some (⟨.documentEnd, mark⟩,
      { reader with
        tokens := if token.kind = .documentEnd then rest else token :: rest, goal := .document })) := by
  obtain ⟨tokens', failure, goal', stack, starts, handles⟩ := reader
  obtain ⟨kind, start, stop⟩ := token
  cases tokens
  cases goal
  cases kind with
  | documentEnd => exact ⟨_, rfl⟩
  | _ => exact ⟨_, rfl⟩

theorem next_streamEnd (goal : reader.goal = .document) (tokens : reader.tokens = [token])
    (ended : token.kind = .streamEnd) :
    ∃ mark last, next? reader = .ok (some (⟨.streamEnd, mark⟩, last)) ∧ last.goal = .nothing := by
  obtain ⟨tokens', failure, goal', stack, starts, handles⟩ := reader
  obtain ⟨kind, start, stop⟩ := token
  cases tokens
  cases goal
  cases ended
  exact ⟨_, _, rfl, rfl⟩

end

end Event

def Outline.documentEvents (outline : Outline) : List Event.Kind :=
  .documentStart :: outline.events outline.anchors ++ [.documentEnd]

def streamEvents (outlines : List Outline) : List Event.Kind :=
  .streamStart :: outlines.flatMap Outline.documentEvents ++ [.streamEnd]

namespace Event

def behindKinds (outlines : List Outline) (ends : List Token.Kind) : List Token.Kind :=
  outlines.flatMap (Outline.documentKinds true) ++ (ends ++ [.streamEnd])

theorem gives_content {outline : Outline} {content after : List Token}
    (kinds : content.map Token.kind = outline.kinds outline.anchors false true) {reader : Reader}
    (goal : reader.goal = .documentContent ∨ reader.goal = .blockNode)
    (tokens : reader.tokens = content ++ after) (inside : reader.stack = [.documentEnd]) :
    ∃ events, reader.Gives events { reader.ahead after with goal := .documentEnd, stack := [] } ∧
      events.map Event.kind = outline.events outline.anchors := by
  have reads := reads_node outline.anchors outline kinds tokens inside
    fun impossible => Bool.noConfusion impossible
  obtain ⟨token, later, rfl, starts⟩ := head_of_start rfl kinds
  exact reads.gives (next_content goal tokens starts)

theorem gives_marked {outline : Outline} {reader : Reader} {kinds : List Token.Kind}
    (goal : reader.goal = .document ∨ reader.goal = .firstDocument) (outside : reader.stack = [])
    (tokens : reader.tokens.map Token.kind = outline.documentKinds true ++ kinds) :
    ∃ events after handles,
      reader.Gives events { reader with
        tokens := after, goal := .documentEnd, stack := [], handles := handles } ∧
      after.map Token.kind = kinds ∧
      events.map Event.kind = .documentStart :: outline.events outline.anchors := by
  rw [Outline.documentKinds, if_pos rfl, List.append_assoc, List.cons_append, List.nil_append] at tokens
  obtain ⟨marker, tail, ahead, start, kinds⟩ := List.map_eq_cons_iff.mp tokens
  obtain ⟨content, after, rfl, contentKinds, afterKinds⟩ := List.map_eq_append_iff.mp kinds
  obtain ⟨mark, handles, first⟩ := next_document goal ahead start outside
  obtain ⟨events, gives, same⟩ := @gives_content outline content after contentKinds
    { reader with
      tokens := content ++ after, goal := .documentContent, stack := [.documentEnd],
      handles := handles } (.inl rfl) rfl rfl
  refine ⟨_, after, handles, .next first gives, afterKinds, ?_⟩
  rw [List.map_cons, same]

theorem gives_behind (outlines : List Outline) {ends : List Token.Kind} (known : EndKinds ends)
    {reader : Reader} (goal : reader.goal = .documentEnd) (outside : reader.stack = [])
    (kinds : reader.tokens.map Token.kind = behindKinds outlines ends) :
    ∃ events last, reader.Gives events last ∧ last.goal = .nothing ∧
      events.map Event.kind =
        .documentEnd :: outlines.flatMap Outline.documentEvents ++ [.streamEnd] := by
  induction outlines generalizing reader with
  | nil =>
      rw [behindKinds, List.flatMap_nil, List.nil_append] at kinds
      -- The stream ends at once, or behind a marker that ends its last document.
      rcases known with rfl | rfl
      · obtain ⟨token, later, tokens, ended, none⟩ := List.map_eq_cons_iff.mp kinds
        cases List.map_eq_nil_iff.mp none
        obtain ⟨mark, first⟩ := next_documentEnd goal tokens
        rw [ended, if_neg Token.Kind.noConfusion] at first
        obtain ⟨mark', last, second, nothing⟩ := @next_streamEnd
          { reader with tokens := [token], goal := .document } token rfl rfl ended
        exact ⟨_, last, .next first (.next second (.refl last)), nothing, rfl⟩
      · obtain ⟨marker, later, tokens, ended, more⟩ := List.map_eq_cons_iff.mp kinds
        obtain ⟨token, later, rfl, stop, none⟩ := List.map_eq_cons_iff.mp more
        cases List.map_eq_nil_iff.mp none
        obtain ⟨mark, first⟩ := next_documentEnd goal tokens
        rw [ended, if_pos rfl] at first
        obtain ⟨mark', last, second, nothing⟩ := @next_streamEnd
          { reader with tokens := [token], goal := .document } token rfl rfl stop
        exact ⟨_, last, .next first (.next second (.refl last)), nothing, rfl⟩
  | cons outline others ih =>
      rw [behindKinds, List.flatMap_cons, List.append_assoc] at kinds
      obtain ⟨marker, tail, tokens, start⟩ : ∃ marker tail, reader.tokens = marker :: tail ∧
          marker.kind = .documentStart := by
        rw [Outline.documentKinds, if_pos rfl, List.append_assoc] at kinds
        obtain ⟨marker, tail, tokens, start, -⟩ := List.map_eq_cons_iff.mp kinds
        exact ⟨marker, tail, tokens, start⟩
      obtain ⟨mark, first⟩ := next_documentEnd goal tokens
      rw [start, if_neg Token.Kind.noConfusion, ← tokens] at first
      obtain ⟨events, after, handles, gives, afterKinds, same⟩ := @gives_marked outline
        { reader with goal := .document } _ (.inl rfl) outside kinds
      obtain ⟨events', last, gives', nothing, same'⟩ :=
        @ih { reader with tokens := after, goal := .documentEnd, stack := [], handles := handles }
          rfl rfl
          afterKinds
      refine ⟨_, last, .next first (gives.trans gives'), nothing, ?_⟩
      simp [same, same', Outline.documentEvents]

theorem gives_stream {outlines : List Outline} (filled : outlines ≠ []) {ends : List Token.Kind}
    (known : EndKinds ends) {tokens : List Token}
    (kinds : tokens.map Token.kind = streamKinds outlines ends) :
    ∃ events last, Reader.Gives ⟨tokens, none, .streamStart, [], [], []⟩ events last ∧
      last.goal = .nothing ∧ events.map Event.kind = streamEvents outlines := by
  obtain ⟨outline, others, rfl⟩ := List.exists_cons_of_ne_nil filled
  rw [streamKinds, List.flatMap_cons, List.cons_append, List.append_assoc, List.append_assoc] at kinds
  obtain ⟨start, tail, rfl, -, kinds⟩ := List.map_eq_cons_iff.mp kinds
  have first : next? ⟨start :: tail, none, .streamStart, [], [], []⟩ =
      .ok (some (⟨.streamStart, start.start⟩, ⟨tail, none, .firstDocument, [], [], []⟩)) := rfl
  -- A document alone has no marker, and the first of several has one like the others.
  cases others with
  | nil =>
      obtain ⟨content, after, rfl, contentKinds, afterKinds⟩ := List.map_eq_append_iff.mp kinds
      obtain ⟨token, later, split, starts⟩ := head_of_start rfl contentKinds
      obtain ⟨mark, handles, second⟩ := @next_bare
        ⟨content ++ after, none, .firstDocument, [], [], []⟩ token (later ++ after) rfl
        (by rw [split]; rfl) starts rfl
      obtain ⟨events, gives, same⟩ := @gives_content outline content after contentKinds
        ⟨content ++ after, none, .blockNode, [.documentEnd], [], handles⟩ (.inr rfl) rfl rfl
      obtain ⟨events', last, gives', nothing, same'⟩ := @gives_behind [] ends known
        ⟨after, none, .documentEnd, [], [], handles⟩ rfl rfl afterKinds
      refine ⟨_, last, .next first (.next second (gives.trans gives')), nothing, ?_⟩
      simp [same, same', streamEvents, Outline.documentEvents]
  | cons other others =>
      obtain ⟨events, after, handles, gives, afterKinds, same⟩ := @gives_marked outline
        ⟨tail, none, .firstDocument, [], [], []⟩ _ (.inr rfl) rfl kinds
      obtain ⟨events', last, gives', nothing, same'⟩ := @gives_behind (other :: others) ends known
        ⟨after, none, .documentEnd, [], [], handles⟩ rfl rfl afterKinds
      refine ⟨_, last, .next first (gives.trans gives'), nothing, ?_⟩
      simp [same, same', streamEvents, Outline.documentEvents]

/-! ### Numbers of events -/

mutual

theorem length_events_le (anchors : List Nat) ( inMapping fresh : Bool) : (outline : Outline) →
    (outline.events anchors).length ≤ 2 * (outline.kinds anchors inMapping fresh).length
  | .alias cell => by
      simp only [Outline.events, Outline.kinds, List.length_singleton]
      omega
  | .scalar cell written => by
      simp only [Outline.events, Outline.kinds, List.length_append, List.length_singleton]
      omega
  | .sequence cell [] => by
      simp only [Outline.events, Outline.itemEvents, Outline.kinds, List.length_append,
        List.length_cons, List.length_nil]
      omega
  | .sequence cell (item :: rest) => by
      have inside := length_itemEvents_le anchors (item :: rest)
      simp only [Outline.events, Outline.kinds, List.length_append, List.length_cons,
        List.length_nil] at inside ⊢
      split
      · omega
      · simp only [List.length_append, List.length_cons, List.length_nil]
        omega
  | .mapping cell tag [] => by
      simp only [Outline.events, Outline.entryEvents, Outline.kinds, List.length_append,
        List.length_cons, List.length_nil]
      omega
  | .mapping cell tag (entry :: rest) => by
      have inside := length_entryEvents_le anchors (entry :: rest)
      simp only [Outline.events, Outline.kinds, List.length_append, List.length_cons, List.length_nil]
      omega

theorem length_itemEvents_le (anchors : List Nat) : (items : List Outline) →
    (Outline.itemEvents anchors items).length + 2 * items.length ≤
      2 * (Outline.itemKinds anchors items).length
  | [] => by
      simp only [Outline.itemEvents, Outline.itemKinds, List.length_nil]
      omega
  | item :: rest => by
      have here := length_events_le anchors false true item
      have later := length_itemEvents_le anchors rest
      simp only [Outline.itemEvents, Outline.itemKinds, List.length_append, List.length_cons]
      omega

theorem length_entryEvents_le (anchors : List Nat) : (entries : List (Outline × Outline)) →
    (Outline.entryEvents anchors entries).length ≤ 2 * (Outline.entryKinds anchors entries).length
  | [] => by
      simp only [Outline.entryEvents, List.length_nil]
      omega
  | (key, value) :: rest => by
      have one := length_events_le anchors true true key
      have two := length_events_le anchors true (!isSimpleKey anchors key) value
      have later := length_entryEvents_le anchors rest
      simp only [Outline.entryEvents, Outline.entryKinds, List.length_append, List.length_cons]
      omega

end

theorem length_documentEvents_le (marked : Bool) (outlines : List Outline) :
    (outlines.flatMap Outline.documentEvents).length ≤
      4 * (outlines.flatMap (Outline.documentKinds marked)).length := by
  induction outlines with
  | nil => exact Nat.le_refl _
  | cons outline rest ih =>
      have here := length_events_le outline.anchors false true outline
      obtain ⟨first, others, kinds, -⟩ := kinds_starts outline.anchors false true outline
      have filled : 0 < (outline.kinds outline.anchors false true).length := by
        rw [kinds]
        exact Nat.succ_pos _
      simp only [List.flatMap_cons, Outline.documentEvents, Outline.documentKinds, List.length_append,
        List.length_cons, List.length_nil]
      omega

/-- A text that is read as the tokens of some outlines is read as their events. -/
theorem ofText_of_scanned {outlines : List Outline} (filled : outlines ≠ [])
    {ends : List Token.Kind} (known : EndKinds ends) {text : List Code}
    (scanned : Scanned text (streamKinds outlines ends)) :
    ∃ events, ofText text = (events, none) ∧ events.map Event.kind = streamEvents outlines := by
  obtain ⟨tokens, read, kinds⟩ := scanned.tokens
  obtain ⟨events, last, gives, nothing, same⟩ := gives_stream filled known kinds
  have enough : events.length ≤ 4 * tokens.length + 4 := by
    have size := congrArg List.length same
    have size' := congrArg List.length kinds
    have bound := length_documentEvents_le (outlines.length != 1) outlines
    simp only [streamEvents, streamKinds, List.length_map, List.length_append, List.length_cons,
      List.length_nil] at size size'
    omega
  obtain ⟨left, fuel⟩ := Nat.exists_eq_add_of_le enough
  have ended : readAll left last = ([], none) := by
    cases left with
    | zero => rfl
    | succ left => simp only [readAll, next?, nothing]
  refine ⟨events, ?_, same⟩
  simp only [ofText, read, ofTokens, fuel, gives.readAll, ended, List.append_nil]

end Event

end SecretFill.Yaml
