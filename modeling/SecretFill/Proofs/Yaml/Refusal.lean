import SecretFill.Proofs.Yaml.Fault
import SecretFill.Proofs.Yaml.InRange
import SecretFill.Yaml.Reading
/-!
Scalars without a value. A fault of a scalar that the syntax does not explain comes from a node of a
document whose tag asks for a value that its text does not spell. Merging moves entries about, but
no node gets a tag that asks for a value by it, and no scalar another text.
-/

namespace SecretFill.Yaml

open SecretFill.Data

inductive Refused (text : List Code) (fault : ScalarFault) : Text → Prop
  | bool (refused : Scalar.bool text = .error fault) : Refused text fault Tag.bool
  | integer (refused : Scalar.integer text = .error fault) : Refused text fault Tag.int
  | real (refused : Scalar.real text = .error fault) : Refused text fault Tag.real
  | timestamp (refused : Scalar.timestamp text = .error fault) : Refused text fault Tag.timestamp

/-- The text that stands for a node: its own, or that of another node, the default value of a
mapping. -/
inductive Spells (nodes : Array Node) (node : Node) (text : Text) : Prop
  | scalar (spelled : node.content = .scalar text)
  | default {other : Node} (gathers : node.content.kind = .mapping) (there : other ∈ nodes)
      (spelled : other.content = .scalar text)

inductive Refuses (nodes : Array Node) (fault : ScalarFault) : Prop
  | text {node : Node} {text : Text} (there : node ∈ nodes) (spells : Spells nodes node text)
      (refused : Refused text.toList fault node.tag)
  | collection {node : Node} (there : node ∈ nodes) (gathers : node.content.kind ≠ .scalar)
      (tagged : node.tag = Tag.timestamp) (unfit : fault = .timestampNotText)

/-! ### Merging -/

structure Renamed (source node : Node) : Prop where
  tag : node.tag = source.tag ∨ node.tag = Tag.text
  kind : node.content.kind = source.content.kind
  text : ∀ text, node.content = .scalar text → source.content = .scalar text

theorem Renamed.refl (node : Node) : Renamed node node := ⟨.inl rfl, rfl, fun _ same => same⟩

theorem Renamed.trans {source node other : Node} (early : Renamed source node)
    (late : Renamed node other) : Renamed source other := by
  refine ⟨?_, late.kind.trans early.kind, fun text same => early.text text (late.text text same)⟩
  rcases late.tag with same | isText
  · rw [same]
    exact early.tag
  · exact .inr isText

structure Derived (nodes later : Array Node) : Prop where
  size : later.size = nodes.size
  origin : ∀ (number : Nat) (node : Node), later[number]? = some node →
    ∃ source, nodes[number]? = some source ∧ Renamed source node
  inRange : InRange later

theorem InRange.derived {nodes : Array Node} (inRange : InRange nodes) : Derived nodes nodes :=
  ⟨rfl, fun _ node found => ⟨node, found, .refl node⟩, inRange⟩

def IsMapping (nodes : Array Node) (number : Nat) : Prop :=
  ∀ node, nodes[number]? = some node → node.content.kind = .mapping

section Merging

variable {nodes later : Array Node} {number : Nat}

theorem Derived.modify (derived : Derived nodes later) {change : Node → Node}
    (renames : ∀ node, later[number]? = some node →
      Renamed node (change node) ∧ ∀ child ∈ (change node).content.children, child < nodes.size) :
    Derived nodes (later.modify number change) := by
  have place : ∀ other node, (later.modify number change)[other]? = some node →
      later[other]? = some node ∨
        ∃ before, other = number ∧ later[number]? = some before ∧ node = change before := by
    intro other node found
    rw [Array.getElem?_modify] at found
    split at found
    · next same =>
        obtain ⟨before, there, rfl⟩ := Option.map_eq_some_iff.mp found
        subst same
        exact .inr ⟨before, rfl, there, rfl⟩
    · exact .inl found
  constructor
  · exact Array.size_modify.trans derived.size
  · intro other node found
    rcases place other node found with before | ⟨before, rfl, there, rfl⟩
    · exact derived.origin other node before
    · obtain ⟨source, original, renamed⟩ := derived.origin other before there
      exact ⟨source, original, renamed.trans (renames before there).1⟩
  · intro node member child held
    obtain ⟨other, found⟩ := Array.mem_iff_getElem?.mp member
    rw [Array.size_modify]
    rcases place other node found with before | ⟨before, rfl, there, rfl⟩
    · exact derived.inRange node (Array.mem_of_getElem? before) child held
    · rw [derived.size]
      exact (renames before there).2 child held

theorem Derived.retag (derived : Derived nodes later) (entry : Nat × Nat) :
    Derived nodes (Builder.retag later entry) := by
  refine derived.modify fun node found => ?_
  have held := derived.inRange node (Array.mem_of_getElem? found)
  rw [derived.size] at held
  by_cases value : node.tag = Tag.value
  · rw [if_pos value]
    exact ⟨⟨.inr rfl, rfl, fun _ same => same⟩, held⟩
  · rw [if_neg value]
    exact ⟨.refl node, held⟩

theorem Derived.retagAll (derived : Derived nodes later) (entries : List (Nat × Nat)) :
    Derived nodes (entries.foldl Builder.retag later) := by
  induction entries generalizing later with
  | nil => exact derived
  | cons entry rest ih => exact ih (derived.retag entry)

end Merging

namespace Builder

variable {nodes : Array Node} {builder : Builder} {number : Nat}

def Holds (nodes : Array Node) (entries : List (Nat × Nat)) : Prop :=
  ∀ child ∈ (Node.Content.mapping entries).children, child < nodes.size

theorem holds_nil : Holds nodes [] := fun _ held => nomatch held

theorem Holds.append {first second : List (Nat × Nat)} (one : Holds nodes first)
    (two : Holds nodes second) : Holds nodes (first ++ second) := by
  intro child held
  obtain ⟨entry, member, same⟩ := mem_children.mp held
  rcases List.mem_append.mp member with before | behind
  · exact one child (mem_children.mpr ⟨entry, before, same⟩)
  · exact two child (mem_children.mpr ⟨entry, behind, same⟩)

theorem Holds.flatten {groups : List (List (Nat × Nat))}
    (each : ∀ entries ∈ groups, Holds nodes entries) : Holds nodes groups.flatten := by
  intro child held
  obtain ⟨entry, member, same⟩ := mem_children.mp held
  obtain ⟨entries, group, inside⟩ := List.mem_flatten.mp member
  exact each entries group child (mem_children.mpr ⟨entry, inside, same⟩)

theorem node_found (found : number < builder.nodes.size) :
    builder.nodes[number]? = some (builder.node number) := by
  rw [Builder.node, Array.getElem?_eq_getElem found]
  rfl

theorem node_beyond (beyond : ¬ number < builder.nodes.size) :
    builder.node number = ⟨Tag.null, .scalar "", ⟨0, 0, 0⟩⟩ := by
  rw [Builder.node, Array.getElem?_eq_none (Nat.le_of_not_lt beyond)]
  rfl

theorem holds_entriesOf (derived : Derived nodes builder.nodes) :
    Holds nodes (builder.entriesOf number) := by
  unfold entriesOf
  split
  · next entries content =>
      by_cases inside : number < builder.nodes.size
      · have held := derived.inRange _ (Array.mem_of_getElem? (node_found inside))
        rw [content, derived.size] at held
        exact held
      · rw [node_beyond inside] at content
        cases content
  · exact holds_nil

theorem isMapping_of_content (derived : Derived nodes builder.nodes) {entries : List (Nat × Nat)}
    (content : (builder.node number).content = .mapping entries) : IsMapping nodes number := by
  intro node found
  have inside : number < builder.nodes.size := by
    rw [derived.size]
    exact (Array.getElem?_eq_some_iff.mp found).1
  obtain ⟨source, original, renamed⟩ := derived.origin number _ (node_found inside)
  cases original.symm.trans found
  rw [← renamed.kind, content]
  rfl

theorem setEntries_derived (derived : Derived nodes builder.nodes) (mapping : IsMapping nodes number)
    {entries : List (Nat × Nat)} (holds : Holds nodes entries) :
    Derived nodes (builder.setEntries number entries).nodes := by
  show Derived nodes (builder.nodes.modify number fun node =>
    { node with content := .mapping entries })
  refine derived.modify fun node found => ?_
  obtain ⟨source, original, renamed⟩ := derived.origin number node found
  have kind : node.content.kind = .mapping := renamed.kind.trans (mapping source original)
  exact ⟨⟨.inl rfl, kind.symm, fun text same => nomatch same⟩, holds⟩

theorem takeMerge_mem {entries others : List (Nat × Nat)} {value : Nat} {array : Array Node}
    (taken : takeMerge array entries = some (value, others)) :
    (∃ key, (key, value) ∈ entries) ∧ ∀ entry ∈ others, entry ∈ entries := by
  induction entries generalizing others with
  | nil => cases taken
  | cons entry rest ih =>
      rw [takeMerge] at taken
      split at taken
      · cases taken
        exact ⟨⟨entry.1, List.mem_cons_self⟩, fun _ member => List.mem_cons_of_mem _ member⟩
      · obtain ⟨⟨_, later⟩, found, same⟩ := Option.map_eq_some_iff.mp taken
        cases same
        obtain ⟨⟨key, member⟩, inside⟩ := ih found
        refine ⟨⟨key, List.mem_cons_of_mem _ member⟩, fun other there => ?_⟩
        rcases List.mem_cons.mp there with rfl | behind
        · exact List.mem_cons_self
        · exact List.mem_cons_of_mem _ (inside other behind)

/-- A failure that is no fault of a scalar, or else is explained by one of the nodes. -/
def Explained (nodes : Array Node) (failure : Failure) : Prop :=
  ∀ fault, failure = .scalar fault → Refuses nodes fault

theorem explained_found {context : Option (Activity × Option Mark)} {problem : Problem}
    {mark : Mark} : Explained nodes (.found context problem mark) := fun _ same => nomatch same

abbrev Merges (nodes : Array Node) (outcome : Except Failure Builder) : Prop :=
  EndsWith (fun after => Derived nodes after.nodes) (Explained nodes) outcome

theorem flattenEach_merges {flatten : Builder → Nat → Except Failure Builder}
    (each : ∀ builder number, Derived nodes builder.nodes → IsMapping nodes number →
      Merges nodes (flatten builder number))
    (start : Mark) (numbers : List Nat) (derived : Derived nodes builder.nodes) :
    EndsWith (fun result => Derived nodes result.1.nodes ∧ ∀ entries ∈ result.2, Holds nodes entries)
      (Explained nodes) (flattenEach flatten start builder numbers) := by
  induction numbers generalizing builder with
  | nil => exact ⟨derived, List.forall_mem_nil _⟩
  | cons number rest ih =>
      unfold flattenEach
      dsimp only
      split
      · next content =>
          refine (each _ _ derived (isMapping_of_content derived content)).bind fun middle flat => ?_
          refine (ih flat).bind fun result ⟨later, groups⟩ => ?_
          exact ⟨later, List.forall_mem_cons.mpr ⟨holds_entriesOf flat, groups⟩⟩
      · exact explained_found

theorem flatten_merges (fuel : Nat) {merged : List (Nat × Nat)} (derived : Derived nodes builder.nodes)
    (mapping : IsMapping nodes number) (holds : Holds nodes merged) :
    Merges nodes (flatten fuel merged builder number) := by
  -- On the bound, since the nodes that are merged into a mapping are flattened first.
  induction fuel generalizing merged builder number with
  | zero => exact derived
  | succ fuel ih =>
      unfold flatten
      split
      · have tagged := derived.retagAll (builder.entriesOf number)
        show Derived nodes (if merged.isEmpty then _ else _ : Builder).nodes
        by_cases bare : merged.isEmpty
        · rw [if_pos bare]
          exact tagged
        · rw [if_neg bare]
          exact setEntries_derived tagged mapping (holds.append (holds_entriesOf derived))
      · next value others taken =>
          obtain ⟨-, inside⟩ := takeMerge_mem taken
          have held : Holds nodes (builder.entriesOf number) := holds_entriesOf derived
          have left : Holds nodes others := by
            intro child member
            obtain ⟨entry, there, same⟩ := mem_children.mp member
            exact held child (mem_children.mpr ⟨entry, inside entry there, same⟩)
          have derived := setEntries_derived derived mapping left
          dsimp only
          split
          · next content =>
              refine (ih derived (isMapping_of_content derived content) holds_nil).bind
                fun middle flat => ?_
              exact ih flat mapping (holds.append (holds_entriesOf flat))
          · refine (flattenEach_merges (fun _ _ derived mapping => ih derived mapping holds_nil) _ _
              derived).bind fun result ⟨flat, groups⟩ => ?_
            refine ih flat mapping (holds.append (Holds.flatten fun entries member => ?_))
            exact groups entries (List.mem_reverse.mp member)
          · exact explained_found

/-! ### Values of nodes -/

theorem scalarText_spells (fuel : Nat) (derived : Derived nodes builder.nodes) {source : Node}
    (original : nodes[number]? = some source) :
    EndsWith (Spells nodes source) (Explained nodes) (builder.scalarText fuel number) := by
  induction fuel generalizing number source with
  | zero => exact fun _ same => nomatch same
  | succ fuel ih =>
      have inside : number < builder.nodes.size := by
        rw [derived.size]
        exact (Array.getElem?_eq_some_iff.mp original).1
      obtain ⟨_, again, renamed⟩ := derived.origin number _ (node_found inside)
      cases original.symm.trans again
      unfold scalarText
      dsimp only
      split
      · next text content => exact .scalar (renamed.text text content)
      · exact explained_found
      · next entries content =>
          have gathers : source.content.kind = .mapping := by
            rw [← renamed.kind, content]
            rfl
          split
          · next key value chosen =>
              have member := List.mem_of_find?_eq_some chosen
              have held := derived.inRange _ (Array.mem_of_getElem? (node_found inside))
              rw [content, derived.size] at held
              have there := Array.getElem?_eq_getElem (held value (mem_children_entry member).2)
              refine (ih there).imp (fun text spells => ?_) fun _ bad => bad
              cases spells with
              | scalar spelled => exact .default gathers (Array.mem_of_getElem? there) spelled
              | default _ other spelled => exact .default gathers other spelled
          · exact explained_found

theorem faulted_explained {α : Type} {outcome : Except ScalarFault α}
    (explains : ∀ fault, outcome = .error fault → Refuses nodes fault) :
    EndsWith (fun _ => True) (Explained nodes) (faulted outcome) := by
  cases outcome with
  | ok value => trivial
  | error fault =>
      rintro other ⟨⟩
      exact explains fault rfl

theorem build_explained (derived : Derived nodes builder.nodes) :
    EndsWith (fun result => result.1.nodes = builder.nodes) (Explained nodes)
      (builder.build number) := by
  by_cases inside : number < builder.nodes.size
  · obtain ⟨source, original, renamed⟩ := derived.origin number _ (node_found inside)
    have there : source ∈ nodes := Array.mem_of_getElem? original
    have spells := scalarText_spells (builder.nodes.size + 1) derived original
    have text : EndsWith (fun chars => ∃ text, Spells nodes source text ∧ chars = text.toList)
        (Explained nodes)
        ((builder.scalarText (builder.nodes.size + 1) number).map Text.toList) :=
      spells.map fun text spells => ⟨text, spells, rfl⟩
    have tagged {tag : Text} (same : (builder.node number).tag = tag) (other : tag ≠ Tag.text) :
        source.tag = tag := by
      rcases renamed.tag with kept | isText
      · exact kept.symm.trans same
      · exact absurd (same.symm.trans isText) other
    unfold build
    -- One case for each tag, in the order in which the tags are tried.
    refine .ite (fun _ => text.bind fun _ _ => rfl) fun _ => ?_
    refine .ite (fun same => text.bind fun chars ⟨text, spells, spelled⟩ => ?_) fun _ => ?_
    · refine (faulted_explained fun fault refused => ?_).bind fun _ _ => rfl
      have isBool := tagged same (by decide)
      exact .text there spells (isBool ▸ .bool (spelled ▸ refused))
    refine .ite (fun same => text.bind fun chars ⟨text, spells, spelled⟩ => ?_) fun _ => ?_
    · refine (faulted_explained fun fault refused => ?_).bind fun _ _ => rfl
      have isInteger := tagged same (by decide)
      exact .text there spells (isInteger ▸ .integer (spelled ▸ refused))
    refine .ite (fun same => text.bind fun chars ⟨text, spells, spelled⟩ => ?_) fun _ => ?_
    · refine (faulted_explained fun fault refused => ?_).bind fun number _ => ?_
      · have isReal := tagged same (by decide)
        exact .text there spells (isReal ▸ .real (spelled ▸ refused))
      · cases number <;> rfl
    refine .ite (fun _ => text.bind fun chars _ => ?_) fun _ => ?_
    · dsimp only
      split
      · rfl
      · exact explained_found
    refine .ite (fun same => text.bind fun chars ⟨text, spells, spelled⟩ => ?_) fun _ => ?_
    · have isTimestamp := tagged same (by decide)
      dsimp only
      split
      · refine (faulted_explained fun fault refused => ?_).bind fun _ _ => rfl
        exact .text there spells (isTimestamp ▸ .timestamp (spelled ▸ refused))
      · next other =>
          rintro fault ⟨⟩
          refine .collection there (fun scalar => ?_) isTimestamp rfl
          rw [← renamed.kind] at scalar
          cases content : (builder.node number).content with
          | scalar text => exact other text content
          | sequence items => simp [content, Node.Content.kind] at scalar
          | mapping entries => simp [content, Node.Content.kind] at scalar
    refine .ite (fun _ => text.bind fun _ _ => rfl) fun _ => .ite (fun _ => rfl) fun _ => ?_
    refine .ite (fun _ => rfl) fun _ => .ite (fun _ => rfl) fun _ => .ite (fun _ => rfl) fun _ => ?_
    exact .ite (fun _ => rfl) fun _ => explained_found
  · have bare : builder.scalarText (builder.nodes.size + 1) number = .ok "" := by
      rw [scalarText, node_beyond inside]
    unfold build
    rw [node_beyond inside, bare]
    exact .ite (fun _ => rfl) fun other => absurd rfl other

abbrev Makes {α : Type} (nodes : Array Node) (outcome : Except Failure (Builder × α)) : Prop :=
  EndsWith (fun result => Derived nodes result.1.nodes) (Explained nodes) outcome

theorem valueOf_makes (derived : Derived nodes builder.nodes) (number : Nat) :
    Makes nodes (builder.valueOf number) := by
  unfold valueOf
  split
  · exact derived
  · refine (build_explained derived).bind fun result same => ?_
    show Derived nodes result.1.nodes
    rw [same]
    exact derived

/-! ### Filling -/

theorem newCell_derived (derived : Derived nodes builder.nodes) (cell : Cell) :
    Derived nodes (builder.newCell cell).1.nodes := derived

theorem valuesOf_makes (numbers : List Nat) (derived : Derived nodes builder.nodes) :
    Makes nodes (builder.valuesOf numbers) := by
  induction numbers generalizing builder with
  | nil => exact derived
  | cons number rest ih =>
      exact (valueOf_makes derived number).bind fun _ derived => (ih derived).bind fun _ derived =>
        derived

theorem entryValues_makes {start : Mark} {entries : List (Value × Value)} (pairs : List (Nat × Nat))
    (derived : Derived nodes builder.nodes) :
    Makes nodes (entryValues start builder entries pairs) := by
  induction pairs generalizing builder entries with
  | nil => exact derived
  | cons pair rest ih =>
      refine (valueOf_makes derived _).bind fun _ derived => .ite (fun _ => explained_found) fun _ => ?_
      exact (valueOf_makes derived _).bind fun _ derived => (ih derived).bind fun _ derived => derived

theorem mappingEntries_makes (number : Nat) (derived : Derived nodes builder.nodes) :
    Makes nodes (builder.mappingEntries number) := by
  unfold mappingEntries
  split
  · next content =>
      have mapping := isMapping_of_content derived content
      exact (flatten_merges _ derived mapping holds_nil).bind fun _ derived =>
        entryValues_makes _ derived
  · exact explained_found

theorem pairCells_makes {activity : Activity} {start : Mark} (numbers : List Nat)
    (derived : Derived nodes builder.nodes) :
    Makes nodes (pairCells activity start builder numbers) := by
  induction numbers generalizing builder with
  | nil => exact derived
  | cons number rest ih =>
      unfold pairCells
      dsimp only
      split
      · refine (valueOf_makes derived _).bind fun _ derived => ?_
        refine (valueOf_makes derived _).bind fun result derived => ?_
        exact (ih (newCell_derived derived _)).bind fun _ derived => derived
      · exact explained_found
      · exact explained_found

theorem pairList_makes {activity : Activity} (number : Nat) (derived : Derived nodes builder.nodes) :
    Makes nodes (pairList activity builder number) := by
  unfold pairList
  dsimp only
  split
  · exact pairCells_makes _ derived
  · exact explained_found

theorem fill_makes (task : Task) (derived : Derived nodes builder.nodes) :
    Makes nodes (builder.fill task) := by
  unfold fill
  split
  · split
    · exact (valuesOf_makes _ derived).bind fun _ derived => derived
    · exact explained_found
  · exact (mappingEntries_makes _ derived).bind fun _ derived => derived
  · exact (mappingEntries_makes _ derived).bind fun _ derived => derived
  · exact (pairList_makes _ derived).bind fun _ derived => derived
  · exact (pairList_makes _ derived).bind fun _ derived => derived

theorem fillAll_merges (fuel : Nat) (tasks : List Task) (derived : Derived nodes builder.nodes) :
    Merges nodes (fillAll fuel builder tasks) := by
  induction fuel generalizing builder tasks with
  | zero => cases tasks <;> exact derived
  | succ fuel ih =>
      cases tasks with
      | nil => exact derived
      | cons task rest => exact (fill_makes task derived).bind fun _ derived => ih _ derived

end Builder

/-! ### Documents -/

theorem addDocument_explained {stream : Stream} {graph : NodeGraph} (inRange : InRange graph.nodes) :
    EndsWith (fun _ => True) (Builder.Explained graph.nodes) (addDocument stream graph) := by
  have start : Derived graph.nodes (Builder.ofNodes graph.nodes stream.cells).nodes :=
    inRange.derived
  refine (Builder.valueOf_makes start graph.root).bind fun result derived => ?_
  exact (Builder.fillAll_merges _ _ derived).bind fun _ _ => trivial

def IsDocument (text : List Code) (graph : NodeGraph) : Prop :=
  ∃ start after rest, start :: after <:+ (Event.ofText text).1 ∧ start.kind = .documentStart ∧
    NodeGraph.ofEvents (Event.ofText text).2 Assembly.empty after = .ok (graph, rest)

/-- A failure that comes from the syntax of a text, if it is a fault of a scalar, or from one of its
documents. -/
def Blamed (text : List Code) (failure : Failure) : Prop :=
  ∀ fault, failure = .scalar fault →
    Syntactic failure ∨ ∃ graph, IsDocument text graph ∧ Refuses graph.nodes fault

theorem ofEvents_blamed {text : List Code} {start : Event} {events : List Event}
    (last : start :: events <:+ (Event.ofText text).1) (starts : start.kind = .documentStart) :
    EndsWith (fun result => InRange result.1.nodes ∧ IsDocument text result.1 ∧ result.2 <:+ events)
      (Blamed text) (NodeGraph.ofEvents (Event.ofText text).2 Assembly.empty events) := by
  cases opened : NodeGraph.ofEvents (Event.ofText text).2 Assembly.empty events with
  | error failure =>
      have syntactic : ∀ other, (Event.ofText text).2 = some other → Syntactic other :=
        fun _ ended => Event.ofText_syntactic ended
      exact fun _ _ => .inl ((scans_ofEvents syntactic _ _).of_eq_error opened)
  | ok result =>
      obtain ⟨inRange, left⟩ := ofEvents_inRange Assembly.inRange_empty opened
      exact ⟨inRange, ⟨start, events, result.2, last, starts, opened⟩, left⟩

theorem documentsOf_blamed {text : List Code} (fuel : Nat) {stream : Stream} {events : List Event}
    (last : events <:+ (Event.ofText text).1) :
    EndsWith (fun _ => True) (Blamed text)
      (documentsOf (Event.ofText text).2 fuel stream events) := by
  induction fuel generalizing stream events with
  | zero => trivial
  | succ fuel ih =>
      unfold documentsOf
      split
      · trivial
      · split
        · next ended => exact fun _ _ => .inl (Event.ofText_syntactic ended)
        · trivial
      · next event rest same =>
          cases same
          have behind : rest <:+ (Event.ofText text).1 := (List.suffix_cons _ _).trans last
          split
          · next starts =>
              -- The graph of a document is all right, or the failure is one of its own.
              refine (ofEvents_blamed last starts).bind fun result ⟨inRange, document, left⟩ => ?_
              have added (stream : Stream) :
                  EndsWith (fun _ => True) (Blamed text) (addDocument stream result.1) :=
                (addDocument_explained inRange).imp (fun _ _ => trivial) fun _ explained fault same =>
                  .inr ⟨result.1, document, explained fault same⟩
              exact (added _).bind fun _ _ => ih (left.trans behind)
          · trivial
          · exact ih behind

/-- A scalar without a value, as reading reports it, is a matter of the syntax or one of a document.
-/
theorem read_scalar {text : List Code} {fault : ScalarFault}
    (failed : read text = .error (.scalar fault)) :
    Syntactic (.scalar fault) ∨ ∃ graph, IsDocument text graph ∧ Refuses graph.nodes fault := by
  unfold read at failed
  split at failed
  · cases failed
  · exact (documentsOf_blamed _ (List.suffix_refl _)).of_eq_error failed fault rfl

end SecretFill.Yaml
