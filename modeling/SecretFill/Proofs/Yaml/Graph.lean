import SecretFill.Proofs.Yaml.Assembly
import SecretFill.Proofs.Yaml.Drawing
import SecretFill.Proofs.Yaml.Event
/-!
The nodes of an outline. An assembly that takes the events of an outline makes a node that stands
for the tree of the value that was drawn, as it is read again. A cell that was met before has its
node already; it cannot be open, since no plain tree holds itself.
-/

namespace SecretFill.Data

def Value.tree : Value → Tree
  | .atom simple => .atom simple
  | .cell index => .whole index

theorem Value.tree_reread (key : Value) : key.tree.reread = key.reread.tree := by
  cases key <;> simp only [Value.tree, Tree.reread, Value.reread]

end SecretFill.Data

namespace SecretFill.Yaml

open Data Writing

/-! ### Nodes that stand for trees -/

/-- A node stands for a tree, if all nodes that it needs are there. -/
inductive Stands (node : Nat → Option Node) : Nat → Tree → Prop
  | atom {number : Nat} {tag text : Text} {mark : Mark} {atom : Atom}
      (found : node number = some ⟨tag, .scalar text, mark⟩) (means : ScalarMeans tag text atom) :
      Stands node number (.atom atom)
  | list {number : Nat} {numbers : List Nat} {mark : Mark} {trees : List Tree}
      (found : node number = some ⟨Tag.sequence, .sequence numbers, mark⟩)
      (sizes : numbers.length = trees.length)
      (below : ∀ place (inNumbers : place < numbers.length) (inTrees : place < trees.length),
        Stands node numbers[place] trees[place]) :
      Stands node number (.list trees)
  | mapping {number : Nat} {pairs : List (Nat × Nat)} {mark : Mark} {entries : List (Value × Tree)}
      (found : node number = some ⟨Tag.mapping, .mapping pairs, mark⟩)
      (sizes : pairs.length = entries.length)
      (texts : ∀ entry ∈ entries, entry.1.isText = true)
      (keys : ∀ place (inPairs : place < pairs.length) (inEntries : place < entries.length),
        Stands node pairs[place].1 entries[place].1.tree)
      (below : ∀ place (inPairs : place < pairs.length) (inEntries : place < entries.length),
        Stands node pairs[place].2 entries[place].2) :
      Stands node number (.mapping (collect entries))

def PairStands (node : Nat → Option Node) (pair : Nat × Nat) (entry : Value × Tree) : Prop :=
  Stands node pair.1 entry.1.tree ∧ Stands node pair.2 entry.2

theorem Stands.keep {node later : Nat → Option Node}
    (keeps : ∀ (number : Nat) (found : Node), node number = some found → later number = some found)
    {number : Nat} {tree : Tree} (stands : Stands node number tree) : Stands later number tree := by
  induction stands with
  | atom found means => exact .atom (keeps _ _ found) means
  | list found sizes below ih => exact .list (keeps _ _ found) sizes ih
  | mapping found sizes texts keys below keysIh ih =>
      exact .mapping (keeps _ _ found) sizes texts keysIh ih

theorem stands_list {node : Nat → Option Node} {number : Nat} {numbers : List Nat} {mark : Mark}
    {trees : List Tree} (found : node number = some ⟨Tag.sequence, .sequence numbers, mark⟩)
    (below : List.Forall₂ (Stands node) numbers trees) : Stands node number (.list trees) := by
  obtain ⟨sizes, each⟩ := List.forall₂_iff_get.mp below
  exact .list found sizes each

theorem stands_mapping {node : Nat → Option Node} {number : Nat} {pairs : List (Nat × Nat)}
    {mark : Mark} {entries : List (Value × Tree)}
    (found : node number = some ⟨Tag.mapping, .mapping pairs, mark⟩)
    (texts : ∀ entry ∈ entries, entry.1.isText = true)
    (below : List.Forall₂ (PairStands node) pairs entries) :
    Stands node number (.mapping (collect entries)) := by
  obtain ⟨sizes, each⟩ := List.forall₂_iff_get.mp below
  apply Stands.mapping found sizes texts
  · intro place inPairs inEntries
    exact (each place inPairs inEntries).1
  · intro place inPairs inEntries
    exact (each place inPairs inEntries).2

namespace Assembly

/-! ### What is known of the cells met -/

theorem anchorName_injective {anchors : List Nat} {first second : Nat} {name : Text}
    (one : anchorName anchors first = some name) (other : anchorName anchors second = some name) :
    first = second := by
  obtain ⟨characters, here, rfl⟩ := Option.map_eq_some_iff.mp one
  obtain ⟨others, there, same⟩ := Option.map_eq_some_iff.mp other
  rw [Text.ofList.injEq] at same
  rw [same] at there
  exact anchorOf_injective here there

/-- Every name in an assembly is that of a cell met, and every cell met that is not open has a node
that stands for it, if it has a name. -/
structure Known (cells : Array Cell) (anchors met open' : List Nat) (assembly : Assembly) : Prop where
  sound : assembly.Sound
  names : ∀ name number, assembly.anchors.lookup name = some number →
    ∃ cell ∈ met, anchorName anchors cell = some name
  nodes : ∀ cell ∈ met, cell ∉ open' → ∀ name, anchorName anchors cell = some name →
    ∃ number tree, assembly.anchors.lookup name = some number ∧
      Unfolds cells (.cell cell) tree ∧ Stands assembly.finished number tree.reread

variable {cells : Array Cell} {anchors met open' : List Nat} {assembly after : Assembly}
  {index : Nat}

theorem known_empty : Known cells anchors [] [] .empty := by
  constructor
  · exact sound_empty
  · intro name number found
    cases found
  · intro cell member
    cases member

theorem Known.keep (known : Known cells anchors met open' assembly) (sound : after.Sound)
    (keeps : Keeps assembly after) (same : after.anchors = assembly.anchors) :
    Known cells anchors met open' after := by
  constructor
  · exact sound
  · rw [same]
    exact known.names
  · intro cell member closed name named
    obtain ⟨number, tree, found, unfolds, stands⟩ := known.nodes cell member closed name named
    rw [same]
    exact ⟨number, tree, found, unfolds, stands.keep keeps.nodes⟩

theorem Known.fresh (known : Known cells anchors met open' assembly) (unmet : index ∉ met)
    (name : Text) (named : anchorName anchors index = some name) :
    assembly.anchors.lookup name = none := by
  cases found : assembly.anchors.lookup name with
  | none => rfl
  | some number =>
      obtain ⟨cell, member, other⟩ := known.names name number found
      rw [anchorName_injective named other] at unmet
      exact absurd member unmet

def entered (assembly : Assembly) (anchor : Option Text) (tag : Text) (content : Node.Content)
    (mark : Mark) : Assembly :=
  (assembly.add ⟨tag, content, mark⟩ anchor).1.opened
    ⟨assembly.nodes.size, content.kind = .mapping, []⟩

theorem enter_fresh {anchor : Option Text} {tag : Text} {content : Node.Content} {mark : Mark}
    (fresh : ∀ name, anchor = some name → assembly.anchors.lookup name = none)
    (room : assembly.frames.length < deepestNesting) :
    assembly.enter ⟨anchor, none⟩ tag content mark =
      .ok (assembly.entered anchor tag content mark) := by
  have checked : assembly.checkAnchor anchor mark = .ok () := by
    cases anchor with
    | none => rfl
    | some name => simp only [checkAnchor, fresh name rfl]
  simp only [enter, checked, bind, Except.bind, if_neg (Nat.not_le.mpr room)]
  rfl

theorem Known.enter (known : Known cells anchors met open' assembly) (unmet : index ∉ met)
    {tag : Text} {content : Node.Content} {mark : Mark}
    (room : assembly.frames.length < deepestNesting) :
    Known cells anchors (index :: met) (index :: open')
      (assembly.entered (anchorName anchors index) tag content mark) := by
  have fresh := known.fresh unmet
  obtain ⟨sound, keeps⟩ := enter_keeps known.sound
    (@enter_fresh assembly (anchorName anchors index) tag content mark fresh room)
  constructor
  · exact sound
  · intro name number found
    -- Only the anchor of the collection itself is new.
    cases here : anchorName anchors index with
    | none =>
        rw [here] at found
        obtain ⟨cell, member, named⟩ := known.names name number found
        exact ⟨cell, List.mem_cons_of_mem _ member, named⟩
    | some own =>
        by_cases same : name = own
        · exact ⟨index, List.mem_cons_self, by rw [here, same]⟩
        · rw [here] at found
          have other : (name == own) = false := beq_eq_false_iff_ne.mpr same
          change List.lookup name ((own, _) :: assembly.anchors) = some number at found
          rw [List.lookup_cons, other] at found
          obtain ⟨cell, member, named⟩ := known.names name number found
          exact ⟨cell, List.mem_cons_of_mem _ member, named⟩
  · intro cell member closed name named
    rw [List.mem_cons, not_or] at closed
    rcases List.mem_cons.mp member with same | inside
    · exact absurd same closed.1
    · obtain ⟨number, tree, found, unfolds, stands⟩ := known.nodes cell inside closed.2 name named
      exact ⟨number, tree, keeps.anchors name number found, unfolds, stands.keep keeps.nodes⟩

theorem Known.close (known : Known cells anchors met (index :: open') assembly) {number : Nat}
    {tree : Tree} (unfolds : Unfolds cells (.cell index) tree)
    (named : ∀ name, anchorName anchors index = some name →
      assembly.anchors.lookup name = some number)
    (stands : Stands assembly.close.finished number tree.reread) :
    Known cells anchors met open' assembly.close := by
  obtain ⟨sound, keeps⟩ := close_keeps known.sound
  have same : assembly.close.anchors = assembly.anchors := by
    cases opened : assembly.frames with
    | nil => rw [Assembly.close, opened]
    | cons frame frames =>
        rw [close_cons opened, place_anchors]
        rfl
  constructor
  · exact sound
  · rw [same]
    exact known.names
  · intro cell member closed name has
    -- What is known of the collection itself is known only now that it is finished.
    by_cases here : cell = index
    · rw [here] at has ⊢
      exact ⟨number, tree, keeps.anchors name number (named name has), unfolds, stands⟩
    · have other : cell ∉ index :: open' := by
        rw [List.mem_cons, not_or]
        exact ⟨here, closed⟩
      obtain ⟨number, tree, found, unfolds, stands⟩ := known.nodes cell member other name has
      exact ⟨number, tree, keeps.anchors name number found, unfolds, stands.keep keeps.nodes⟩

/-! ### Building nodes -/

structure Built (cells : Array Cell) (anchors met open' : List Nat) (before after : Assembly)
    (number : Nat) (tree : Tree) : Prop where
  frames : after.frames = (before.place number).frames
  root : after.root = (before.place number).root
  stands : Stands after.finished number tree.reread
  known : Known cells anchors met open' after

/-- The events of every drawing of a value with some tree build a node for the tree. -/
def Builds (draw : Outline.Draw) (cells : Array Cell) (anchors : List Nat) (room : Nat)
    (tree : Tree) : Prop :=
  ∀ value met outline later, Unfolds cells value tree → draw value met = .ok (outline, later) →
    (∀ cell ∈ outline.aliases, cell ∈ anchors) →
    ∀ (open' : List Nat) (assembly : Assembly) (events : List Event),
      (∀ cell ∈ open', Holds cells tree cell) → Known cells anchors met open' assembly →
      assembly.frames.length + room ≤ deepestNesting →
      events.map Event.kind = outline.events anchors →
      ∃ number after, assembly.Takes events after ∧
        Built cells anchors later open' assembly after number tree

theorem place_congr {first second : Assembly} (number : Nat) (frames : first.frames = second.frames)
    (root : first.root = second.root) :
    (first.place number).frames = (second.place number).frames ∧
      (first.place number).root = (second.place number).root := by
  unfold place
  rw [frames]
  cases second.frames with
  | nil => exact ⟨rfl, rfl⟩
  | cons frame frames => exact ⟨rfl, root⟩

theorem place_cons {frame : Frame} {frames : List Frame} (number : Nat)
    (opened : assembly.frames = frame :: frames) :
    (assembly.place number).frames = { frame with children := number :: frame.children } :: frames ∧
      (assembly.place number).root = assembly.root := by
  unfold place
  rw [opened]
  exact ⟨rfl, rfl⟩

theorem take_scalar (assembly : Assembly) (text : Text) (isPlain : Bool) (mark : Mark) :
    assembly.take ⟨.scalar ⟨none, none⟩ text isPlain, mark⟩ =
      .ok ((assembly.add ⟨if isPlain then Resolution.tagOf text else Tag.text, .scalar text, mark⟩
        none).1.place assembly.nodes.size) := rfl

theorem builds_scalar {atom : Atom} {scalar : Layout.Scalar} (simple : atom.isSimple = true)
    (written : atomScalar atom = .ok scalar) (known : Known cells anchors met open' assembly)
    {events : List Event}
    (kinds : events.map Event.kind = (Outline.scalar none scalar).events anchors) :
    ∃ number after, assembly.Takes events after ∧
      Built cells anchors met open' assembly after number (.atom atom) := by
  simp only [Outline.events] at kinds
  obtain ⟨⟨kind, mark⟩, rest, rfl, here, ends⟩ := List.map_eq_cons_iff.mp kinds
  cases List.map_eq_nil_iff.mp ends
  cases here
  have taken := take_scalar assembly (Text.ofList (rereadText scalar.text))
    (scalar.style false = .plain) mark
  -- The tag that is resolved from the text is the one with which the atom was written.
  have tag := (clear_atomScalar simple written).tag_read
  simp only [decide_eq_true_eq] at taken
  rw [tag] at taken
  refine ⟨assembly.nodes.size, _, .next (fun impossible => by cases impossible) taken (.refl _), ?_⟩
  obtain ⟨sound, keeps⟩ := take_keeps known.sound taken
  obtain ⟨frames, root⟩ := @place_congr (assembly.add ⟨scalar.tag, _, mark⟩ none).1 assembly
    assembly.nodes.size rfl rfl
  constructor
  · exact frames
  · exact root
  · rw [place_finished, Tree.reread]
    exact .atom (add_finished known.sound) (means_atomScalar simple written)
  · apply known.keep sound keeps
    rw [place_anchors]
    rfl

structure Filled (cells : Array Cell) (anchors met open' : List Nat) (before after : Assembly)
    (numbers : List Nat) : Prop where
  frames : ∀ frame frames, before.frames = frame :: frames →
    after.frames = { frame with children := numbers.reverse ++ frame.children } :: frames
  root : after.root = before.root
  known : Known cells anchors met open' after

theorem filled_nil (known : Known cells anchors met open' assembly) :
    Filled cells anchors met open' assembly assembly [] := by
  constructor
  · intro frame frames same
    rw [same]
    rfl
  · rfl
  · exact known

theorem Filled.trans {middle : Assembly} {numbers others between later : List Nat}
    (one : Filled cells anchors between open' assembly middle numbers)
    (two : Filled cells anchors later open' middle after others) :
    Filled cells anchors later open' assembly after (numbers ++ others) := by
  constructor
  · intro frame frames same
    rw [two.frames _ _ (one.frames frame frames same), List.reverse_append, List.append_assoc]
  · rw [two.root, one.root]
  · exact two.known

theorem Built.filled {later : List Nat} {number : Nat} {tree : Tree}
    (built : Built cells anchors later open' assembly after number tree)
    (opened : assembly.frames ≠ []) : Filled cells anchors later open' assembly after [number] := by
  constructor
  · intro frame frames same
    rw [built.frames, (place_cons number same).1]
    rfl
  · obtain ⟨frame, frames, same⟩ := List.exists_cons_of_ne_nil opened
    rw [built.root, (place_cons number same).2]
  · exact built.known

theorem Filled.length_frames {later numbers : List Nat}
    (filled : Filled cells anchors later open' assembly after numbers)
    (opened : assembly.frames ≠ []) :
    after.frames ≠ [] ∧ after.frames.length = assembly.frames.length := by
  obtain ⟨frame, frames, same⟩ := List.exists_cons_of_ne_nil opened
  rw [filled.frames frame frames same, same]
  exact ⟨List.cons_ne_nil _ _, rfl⟩

abbrev StandsReread (node : Nat → Option Node) (number : Nat) (tree : Tree) : Prop :=
  Stands node number tree.reread

theorem builds_items {draw : Outline.Draw} {room : Nat} {values : List Value} {trees : List Tree}
    (unfolds : List.Forall₂ (Unfolds cells) values trees)
    (builds : ∀ tree ∈ trees, Builds draw cells anchors room tree) {met later : List Nat}
    {outlines : List Outline} (drawn : Outline.drawAll draw values met = .ok (outlines, later))
    (named : ∀ cell ∈ Outline.itemAliases outlines, cell ∈ anchors)
    (holds : ∀ tree ∈ trees, ∀ cell ∈ open', Holds cells tree cell) {assembly : Assembly}
    (opened : assembly.frames ≠ []) (known : Known cells anchors met open' assembly)
    (enough : assembly.frames.length + room ≤ deepestNesting) {events : List Event}
    (kinds : events.map Event.kind = Outline.itemEvents anchors outlines) :
    ∃ numbers after, assembly.Takes events after ∧
      Filled cells anchors later open' assembly after numbers ∧
      List.Forall₂ (StandsReread after.finished) numbers trees := by
  induction unfolds generalizing met outlines assembly events with
  | nil =>
      cases drawn
      rw [Outline.itemEvents, List.map_eq_nil_iff] at kinds
      subst kinds
      exact ⟨[], assembly, .refl _, filled_nil known, .nil⟩
  | @cons value tree values trees one more ih =>
      obtain ⟨buildsHere, buildsLater⟩ := List.forall_mem_cons.mp builds
      obtain ⟨holdsHere, holdsLater⟩ := List.forall_mem_cons.mp holds
      simp only [Outline.drawAll] at drawn
      obtain ⟨⟨outline, middle⟩, first, drawn⟩ := bind_eq_ok drawn
      obtain ⟨⟨others, last⟩, second, drawn⟩ := bind_eq_ok drawn
      cases drawn
      rw [Outline.itemAliases] at named
      rw [Outline.itemEvents] at kinds
      obtain ⟨here, rest, rfl, kindsHere, kindsLater⟩ := List.map_eq_append_iff.mp kinds
      obtain ⟨number, between, takes, built⟩ := buildsHere value met outline middle one first
        (fun cell inside => named cell (List.mem_append_left _ inside)) open' assembly here holdsHere
        known enough kindsHere
      have filledHere := built.filled opened
      obtain ⟨opened', depth⟩ := filledHere.length_frames opened
      obtain ⟨numbers, after, takes', filled, below⟩ := ih buildsLater second
        (fun cell inside => named cell (List.mem_append_right _ inside)) holdsLater opened'
        built.known (by rwa [depth]) kindsLater
      -- The node of the first item stays as it is while the others are built.
      have keeps := (takes'.keeps built.known.sound).2
      exact ⟨number :: numbers, after, takes.trans takes', filledHere.trans filled,
        .cons (built.stands.keep keeps.nodes) below⟩

def alternate (pairs : List (Nat × Nat)) : List Nat := pairs.flatMap fun pair => [pair.1, pair.2]

theorem pairUp_alternate (pairs : List (Nat × Nat)) : pairUp (alternate pairs) = pairs := by
  induction pairs with
  | nil => rfl
  | cons pair rest ih => exact congrArg (pair :: ·) ih

def rereadEntry (entry : Value × Tree) : Value × Tree := (entry.1.reread, entry.2.reread)

theorem builds_entries {draw : Outline.Draw} {room : Nat} {entries : List (Value × Value)}
    {trees : List (Value × Tree)}
    (unfolds : List.Forall₂ (EntriesMatch (Unfolds cells)) entries trees)
    (keys : ∀ entry ∈ trees, ∃ text, entry.1 = .atom (.text text) ∧
      ∀ met, draw entry.1 met = .ok (.scalar none (Outline.textScalar text), met))
    (builds : ∀ entry ∈ trees, Builds draw cells anchors room entry.2) {met later : List Nat}
    {outlines : List (Outline × Outline)}
    (drawn : Outline.drawEntries draw entries met = .ok (outlines, later))
    (named : ∀ cell ∈ Outline.entryAliases outlines, cell ∈ anchors)
    (holds : ∀ entry ∈ trees, ∀ cell ∈ open', Holds cells entry.2 cell) {assembly : Assembly}
    (opened : assembly.frames ≠ []) (known : Known cells anchors met open' assembly)
    (enough : assembly.frames.length + room ≤ deepestNesting) {events : List Event}
    (kinds : events.map Event.kind = Outline.entryEvents anchors outlines) :
    ∃ pairs after, assembly.Takes events after ∧
      Filled cells anchors later open' assembly after (alternate pairs) ∧
      List.Forall₂ (PairStands after.finished) pairs (trees.map rereadEntry) := by
  induction unfolds generalizing met outlines assembly events with
  | nil =>
      cases drawn
      rw [Outline.entryEvents, List.map_eq_nil_iff] at kinds
      subst kinds
      exact ⟨[], assembly, .refl _, filled_nil known, .nil⟩
  | @cons entry tree entries trees one more ih =>
      obtain ⟨⟨text, textKey, keyDrawn⟩, keysLater⟩ := List.forall_mem_cons.mp keys
      obtain ⟨buildsHere, buildsLater⟩ := List.forall_mem_cons.mp builds
      obtain ⟨holdsHere, holdsLater⟩ := List.forall_mem_cons.mp holds
      obtain ⟨key, value⟩ := entry
      obtain ⟨rfl, one⟩ : key = tree.1 ∧ Unfolds cells value tree.2 := one
      simp only [Outline.drawEntries, keyDrawn] at drawn
      obtain ⟨_, same, drawn⟩ := bind_eq_ok drawn
      cases same
      obtain ⟨⟨outline, middle⟩, first, drawn⟩ := bind_eq_ok drawn
      obtain ⟨⟨others, last⟩, second, drawn⟩ := bind_eq_ok drawn
      cases drawn
      rw [Outline.entryAliases] at named
      rw [Outline.entryEvents] at kinds
      obtain ⟨keyEvents, events, rfl, kindsKey, kinds⟩ := List.map_eq_append_iff.mp kinds
      obtain ⟨here, rest, rfl, kindsHere, kindsLater⟩ := List.map_eq_append_iff.mp kinds
      -- A key is a scalar, which is built at once, before its value.
      obtain ⟨keyNumber, keyed, keyTakes, keyBuilt⟩ :=
        @builds_scalar _ _ _ _ _ (.text text) _ rfl rfl known _ kindsKey
      have keyFilled := keyBuilt.filled opened
      obtain ⟨opened', depth⟩ := keyFilled.length_frames opened
      obtain ⟨number, between, takes, built⟩ := buildsHere value met outline middle one first
        (fun cell inside => named cell (List.mem_append_left _ (List.mem_append_right _ inside)))
        open' keyed here holdsHere keyBuilt.known (by rwa [depth]) kindsHere
      have filledHere := keyFilled.trans (built.filled opened')
      obtain ⟨opened', depth⟩ := filledHere.length_frames opened
      obtain ⟨pairs, after, takes', filled, below⟩ := ih keysLater buildsLater second
        (fun cell inside => named cell (List.mem_append_right _ inside)) holdsLater opened'
        built.known (by rwa [depth]) kindsLater
      have keepsKey := (takes.keeps keyBuilt.known.sound).2
      have keeps := (takes'.keeps built.known.sound).2
      have keyStands : Stands between.finished keyNumber tree.1.reread.tree := by
        rw [textKey, ← Value.tree_reread]
        exact keyBuilt.stands.keep keepsKey.nodes
      refine ⟨(keyNumber, number) :: pairs, after, keyTakes.trans (takes.trans takes'),
        filledHere.trans filled, .cons ⟨?_, ?_⟩ below⟩
      · exact keyStands.keep keeps.nodes
      · exact built.stands.keep keeps.nodes

/-! ### Collections -/

theorem close_finished {filled : Assembly} {anchor : Option Text} {tag : Text}
    {content : Node.Content} {mark : Mark} {numbers later : List Nat} (sound : assembly.Sound)
    (inside : Filled cells anchors later open' (assembly.entered anchor tag content mark) filled
      numbers)
    (keeps : Keeps (assembly.entered anchor tag content mark) filled) :
    filled.close.finished assembly.nodes.size = some
        ⟨tag, if content.kind = .mapping then .mapping (pairUp numbers) else .sequence numbers,
          mark⟩ ∧
      filled.close.frames = (assembly.place assembly.nodes.size).frames ∧
      filled.close.root = (assembly.place assembly.nodes.size).root := by
  have framed := inside.frames ⟨assembly.nodes.size, content.kind = .mapping, []⟩ assembly.frames rfl
  rw [List.append_nil] at framed
  obtain ⟨content', shell⟩ := keeps.shells assembly.nodes.size ⟨tag, content, mark⟩
    Array.getElem?_push_size
  have outside : assembly.nodes.size ∉ assembly.openNumbers := fun member =>
    Nat.lt_irrefl _ (sound.within _ member)
  rw [close_cons framed]
  refine ⟨?_, place_congr _ rfl inside.root⟩
  rw [place_finished]
  refine (if_neg outside).trans ?_
  rw [closed, Array.getElem?_modify, if_pos rfl, shell]
  simp [Frame.content]

theorem builds_alias {tree : Tree} (unfolds : Unfolds cells (.cell index) tree) (known' : index ∈ met)
    (named : index ∈ anchors) (holds : ∀ cell ∈ open', Holds cells tree cell)
    (known : Known cells anchors met open' assembly) {events : List Event}
    (kinds : events.map Event.kind = (Outline.alias index).events anchors) :
    ∃ number after, assembly.Takes events after ∧
      Built cells anchors met open' assembly after number tree := by
  obtain ⟨name, has⟩ := anchorOf_isSome named
  have own : anchorName anchors index = some (Text.ofList name) := by rw [anchorName, has]; rfl
  obtain ⟨number, other, found, unfolds', stands⟩ :=
    known.nodes index known' (not_held unfolds holds) _ own
  cases unfolds_unique unfolds unfolds'
  simp only [Outline.events, has, Option.getD_some] at kinds
  obtain ⟨⟨kind, mark⟩, rest, rfl, here, ends⟩ := List.map_eq_cons_iff.mp kinds
  cases List.map_eq_nil_iff.mp ends
  cases here
  have taken : assembly.take ⟨.alias (Text.ofList name), mark⟩ = .ok (assembly.place number) := by
    simp only [take, found]
  refine ⟨number, _, .next (fun impossible => by cases impossible) taken (.refl _), rfl, rfl, ?_, ?_⟩
  · rw [place_finished]
    exact stands
  · exact known.keep (place_sound known.sound) place_keeps place_anchors

/-- The events that open and end a collection, and what its node is before it is filled. -/
inductive Encloses (anchor : Option Text) :
    Event.Kind → Text → Node.Content → Event.Kind → Prop
  | list : Encloses anchor (.sequenceStart ⟨anchor, none⟩) Tag.sequence (.sequence []) .sequenceEnd
  | mapping : Encloses anchor (.mappingStart ⟨anchor, none⟩) Tag.mapping (.mapping []) .mappingEnd

section Encloses

variable {anchor : Option Text} {start ended : Event.Kind} {tag : Text} {content : Node.Content}

theorem Encloses.opens (encloses : Encloses anchor start tag content ended) (assembly : Assembly)
    (mark : Mark) : start ≠ .documentEnd ∧
      assembly.take ⟨start, mark⟩ = assembly.enter ⟨anchor, none⟩ tag content mark := by
  cases encloses with
  | list => exact ⟨nofun, rfl⟩
  | mapping => exact ⟨nofun, rfl⟩

theorem Encloses.ends (encloses : Encloses anchor start tag content ended) (assembly : Assembly)
    (mark : Mark) : ended ≠ .documentEnd ∧ assembly.take ⟨ended, mark⟩ = .ok assembly.close := by
  cases encloses with
  | list => exact ⟨nofun, rfl⟩
  | mapping => exact ⟨nofun, rfl⟩

theorem bracketed {events : List Event} {kinds : List Event.Kind}
    (same : events.map Event.kind = start :: kinds ++ [ended]) :
    ∃ mark inner stop, events = ⟨start, mark⟩ :: (inner ++ [⟨ended, stop⟩]) ∧
      inner.map Event.kind = kinds := by
  obtain ⟨⟨_, mark⟩, rest, rfl, opens, same⟩ := List.map_eq_cons_iff.mp same
  obtain ⟨inner, ends, rfl, inside, same⟩ := List.map_eq_append_iff.mp same
  obtain ⟨⟨_, stop⟩, none, rfl, closes, nothing⟩ := List.map_eq_cons_iff.mp same
  cases List.map_eq_nil_iff.mp nothing
  cases opens
  cases closes
  exact ⟨mark, inner, stop, rfl, inside⟩

end Encloses

def Fills (tag : Text) (content : Node.Content) (mark : Mark) (numbers : List Nat)
    (filled : Assembly) (tree : Tree) : Prop :=
  ∀ node : Nat → Option Node,
    (∀ number found, filled.finished number = some found → node number = some found) →
    ∀ number, node number = some ⟨tag, if content.kind = .mapping then .mapping (pairUp numbers)
        else .sequence numbers, mark⟩ → Stands node number tree

theorem builds_collection {tree : Tree} (unfolds : Unfolds cells (.cell index) tree)
    (unmet : index ∉ met) (known : Known cells anchors met open' assembly)
    (room : assembly.frames.length < deepestNesting) {start ended : Event.Kind} {tag : Text}
    {content : Node.Content}
    (encloses : Encloses (anchorName anchors index) start tag content ended)
    {events : List Event} {kinds : List Event.Kind}
    (same : events.map Event.kind = start :: kinds ++ [ended]) {later : List Nat}
    (inside : ∀ mark inner, inner.map Event.kind = kinds → ∃ numbers filled,
      (assembly.entered (anchorName anchors index) tag content mark).Takes inner filled ∧
      Filled cells anchors later (index :: open')
        (assembly.entered (anchorName anchors index) tag content mark) filled numbers ∧
      Fills tag content mark numbers filled tree.reread) :
    ∃ number after, assembly.Takes events after ∧
      Built cells anchors later open' assembly after number tree := by
  obtain ⟨mark, inner, stop, rfl, innerKinds⟩ := bracketed same
  obtain ⟨numbers, filled, takes, fills, stands⟩ := inside mark inner innerKinds
  have enters := @enter_fresh assembly (anchorName anchors index) tag content mark
    (known.fresh unmet) room
  obtain ⟨sound, -⟩ := enter_keeps known.sound enters
  obtain ⟨filledSound, keeps⟩ := takes.keeps sound
  -- The collection is open while its parts are built; its node is finished only now.
  obtain ⟨found, frames, root⟩ := close_finished known.sound fills keeps
  obtain ⟨closedSound, closedKeeps⟩ := close_keeps filledSound
  obtain ⟨startInside, opens⟩ := encloses.opens assembly mark
  obtain ⟨endInside, closes⟩ := encloses.ends filled stop
  have standsClosed := stands _ closedKeeps.nodes _ found
  refine ⟨assembly.nodes.size, filled.close,
    .next startInside (opens.trans enters) (takes.trans (.next endInside closes (.refl _))),
    frames, root, standsClosed, ?_⟩
  apply fills.known.close unfolds ?_ standsClosed
  intro name named
  apply keeps.anchors
  show (assembly.add ⟨tag, content, mark⟩ (anchorName anchors index)).1.anchors.lookup name =
    some assembly.nodes.size
  rw [named]
  exact add_named

theorem length_entered {anchor : Option Text} {tag : Text} {content : Node.Content} {mark : Mark}
    {room : Nat} (enough : assembly.frames.length + (room + 1) ≤ deepestNesting) :
    (assembly.entered anchor tag content mark).frames.length + room ≤ deepestNesting := by
  show assembly.frames.length + 1 + room ≤ deepestNesting
  omega

/-! ### Drawings -/

section Drawings

variable {room depth : Nat}

theorem builds_atom {atom : Atom} (simple : atom.isSimple = true) :
    Builds (Outline.draw cells (depth + 1)) cells anchors room (.atom atom) := by
  intro value met outline later unfolds drawn named open' assembly events holds known enough kinds
  cases unfolds
  simp only [Outline.draw] at drawn
  obtain ⟨scalar, written, drawn⟩ := bind_eq_ok drawn
  cases drawn
  exact builds_scalar simple written known kinds

theorem builds_list {trees : List Tree}
    (builds : ∀ tree ∈ trees, Builds (Outline.draw cells depth) cells anchors room tree) :
    Builds (Outline.draw cells (depth + 1)) cells anchors (room + 1) (.list trees) := by
  intro value met outline later unfolds drawn named open' assembly events holds known enough kinds
  obtain ⟨index, rfl⟩ : ∃ index, value = .cell index := by cases unfolds; exact ⟨_, rfl⟩
  -- A cell that was drawn before is an alias of a node that is known.
  by_cases met' : index ∈ met
  · rw [Outline.draw_met met'] at drawn
    cases drawn
    exact builds_alias unfolds met' (named index List.mem_cons_self) holds known kinds
  · obtain ⟨items, found, inside⟩ := unfolds_list_iff.mp unfolds
    rw [Outline.draw_list found met'] at drawn
    obtain ⟨⟨outlines, last⟩, drawnItems, drawn⟩ := map_eq_ok drawn
    cases drawn
    simp only [Outline.events] at kinds
    have room' : assembly.frames.length < deepestNesting := by omega
    apply builds_collection unfolds met' known room' .list kinds
    intro mark inner innerKinds
    obtain ⟨numbers, filled, takes, fills, stands⟩ := builds_items inside builds drawnItems named
      (fun tree member => holds_inside unfolds (sizeOf_item member) holds)
      (List.cons_ne_nil _ _) (known.enter met' room') (length_entered enough) innerKinds
    refine ⟨numbers, filled, takes, fills, fun node keeps number found => ?_⟩
    rw [Tree.reread]
    apply stands_list found
    exact List.forall₂_map_right_iff.mpr (stands.imp fun _ _ here => here.keep keeps)

/-- Keys are drawn as scalars, for which a depth of one is enough. -/
theorem builds_mapping {trees : List (Value × Tree)}
    (keys : ∀ entry ∈ trees, entry.1.isText = true)
    (builds : ∀ entry ∈ trees,
      Builds (Outline.draw cells (depth + 1)) cells anchors room entry.2) :
    Builds (Outline.draw cells (depth + 2)) cells anchors (room + 1) (.mapping trees) := by
  intro value met outline later unfolds drawn named open' assembly events holds known enough kinds
  obtain ⟨index, rfl⟩ : ∃ index, value = .cell index := by cases unfolds; exact ⟨_, rfl⟩
  by_cases met' : index ∈ met
  · rw [Outline.draw_met met'] at drawn
    cases drawn
    exact builds_alias unfolds met' (named index List.mem_cons_self) holds known kinds
  · obtain ⟨entries, found, inside⟩ := unfolds_mapping_iff.mp unfolds
    rw [Outline.draw_mapping found met'] at drawn
    obtain ⟨⟨outlines, last⟩, drawnEntries, drawn⟩ := map_eq_ok drawn
    cases drawn
    simp only [Outline.events] at kinds
    have room' : assembly.frames.length < deepestNesting := by omega
    have texts : ∀ entry ∈ trees, ∃ text, entry.1 = .atom (.text text) ∧ ∀ met,
        Outline.draw cells (depth + 1) entry.1 met =
          .ok (.scalar none (Outline.textScalar text), met) := by
      intro entry member
      obtain ⟨text, same⟩ := isText_cases (keys entry member)
      rw [same]
      exact ⟨text, rfl, fun met => Outline.draw_atom rfl⟩
    apply builds_collection unfolds met' known room' .mapping kinds
    intro mark inner innerKinds
    obtain ⟨pairs, filled, takes, fills, stands⟩ := builds_entries inside texts builds drawnEntries
      named (fun entry member => holds_inside unfolds (sizeOf_entry member) holds)
      (List.cons_ne_nil _ _) (known.enter met' room') (length_entered enough) innerKinds
    refine ⟨alternate pairs, filled, takes, fills, fun node keeps number found => ?_⟩
    simp only [Node.Content.kind, if_true, pairUp_alternate] at found
    rw [Tree.reread]
    apply stands_mapping found
    · intro entry member
      obtain ⟨original, inside, rfl⟩ := List.mem_map.mp member
      rw [isText_reread]
      exact keys original inside
    · exact stands.imp fun _ _ here => ⟨here.1.keep keeps, here.2.keep keeps⟩

theorem builds_draw {tree : Tree} (plain : tree.Plain room) (deep : room < depth) :
    Builds (Outline.draw cells depth) cells anchors room tree := by
  induction plain generalizing depth with
  | atom simple =>
      obtain ⟨depth, rfl⟩ := Nat.exists_eq_succ_of_ne_zero (Nat.ne_zero_of_lt deep)
      exact builds_atom simple
  | list below ih =>
      obtain ⟨depth, rfl⟩ := Nat.exists_eq_succ_of_ne_zero (Nat.ne_zero_of_lt deep)
      exact builds_list fun tree member => ih tree member (Nat.lt_of_succ_lt_succ deep)
  | @mapping room _ keys below ih =>
      obtain ⟨depth, rfl⟩ : ∃ inner, depth = inner + 2 := ⟨depth - 2, by omega⟩
      exact builds_mapping keys fun entry member => ih entry member (Nat.lt_of_succ_lt_succ deep)

end Drawings

end Assembly

/-- The graph of a document that was drawn from a value with a plain tree. -/
theorem ofEvents_outline {cells : Array Cell} {value : Value} {tree : Tree} {room : Nat}
    (unfolds : Unfolds cells value tree) (plain : tree.Plain room) (shallow : room ≤ deepestWritten)
    {outline : Outline} (drawn : Outline.ofDocument ⟨cells, value⟩ = .ok outline)
    {failure : Option Failure} {events rest : List Event} {ended : Event}
    (kinds : events.map Event.kind = outline.events outline.anchors)
    (ends : ended.kind = .documentEnd) :
    ∃ graph, NodeGraph.ofEvents failure Assembly.empty (events ++ ended :: rest) = .ok (graph, rest) ∧
      Stands (fun number => graph.nodes[number]?) graph.root tree.reread := by
  obtain ⟨⟨drawing, met⟩, first, rfl⟩ := map_eq_ok drawn
  have named : ∀ cell ∈ drawing.aliases, cell ∈ drawing.anchors := fun cell member =>
    List.mem_eraseDups.mpr member
  -- Nothing is open or known at the start, so all that the drawing needs holds there.
  obtain ⟨number, after, takes, built⟩ := Assembly.builds_draw plain (Nat.lt_succ_of_le shallow) value
    [] drawing met unfolds first named [] Assembly.empty events
    (fun cell member => absurd member List.not_mem_nil) Assembly.known_empty
    (by simp only [Assembly.empty, List.length_nil, deepestNesting, deepestWritten] at shallow ⊢; omega)
    kinds
  refine ⟨⟨after.nodes, after.root.getD 0⟩, Assembly.ofEvents_takes takes ends, ?_⟩
  have root : after.root = some number := built.root
  have frames : after.frames = [] := built.frames
  rw [root, Option.getD_some]
  apply built.stands.keep
  intro number node found
  exact (Assembly.finished_cases found).2

end SecretFill.Yaml
