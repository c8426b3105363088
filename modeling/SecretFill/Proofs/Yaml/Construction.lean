import SecretFill.Proofs.Yaml.Graph
import SecretFill.Yaml.Construction
/-!
The data of nodes that stand for a tree. While collections wait to be filled, every node that has a
value has the right one: an atom at once, and a cell that either waits or is filled with the values
of the nodes below. When none waits any more, the value of the root unfolds to the tree.
-/

namespace SecretFill.Yaml

open Data

namespace Builder

variable {nodes : Array Node} {old : Array Cell} {tasks : List Task} {builder after : Builder}
  {number index : Nat} {value : Value}

def Has (builder : Builder) (number : Nat) (value : Value) : Prop :=
  builder.values[number]?.join = some value

inductive Filled (builder : Builder) (number index : Nat) : Prop
  | list {numbers : List Nat} {mark : Mark} {values : List Value}
      (found : builder.nodes[number]? = some ⟨Tag.sequence, .sequence numbers, mark⟩)
      (cell : builder.cells[index]? = some (.list values))
      (inside : List.Forall₂ builder.Has numbers values)
  | mapping {pairs : List (Nat × Nat)} {mark : Mark} {entries : List (Value × Value)}
      (found : builder.nodes[number]? = some ⟨Tag.mapping, .mapping pairs, mark⟩)
      (cell : builder.cells[index]? = some (.mapping (collect entries)))
      (inside : List.Forall₂ (fun pair entry => builder.Has pair.1 entry.1 ∧ builder.Has pair.2 entry.2)
        pairs entries)

/-- The value of a node is right, or will be when some collections have been filled. -/
inductive Settled (builder : Builder) (tasks : List Task) (number : Nat) : Value → Prop
  | atom {tag text : Text} {mark : Mark} {atom : Atom}
      (found : builder.nodes[number]? = some ⟨tag, .scalar text, mark⟩)
      (means : ScalarMeans tag text atom) : Settled builder tasks number (.atom atom)
  | waiting {task : Task} (member : task ∈ tasks) (same : task.number = number) :
      Settled builder tasks number (.cell task.index)
  | filled {index : Nat} (filled : builder.Filled number index) :
      Settled builder tasks number (.cell index)

inductive Task.Fits (nodes : Array Node) (task : Task) : Prop
  | sequence {trees : List Tree} (filling : task.filling = .sequence)
      (stands : Stands (fun number => nodes[number]?) task.number (.list trees))
  | mapping {entries : List (Value × Tree)} (filling : task.filling = .mapping)
      (stands : Stands (fun number => nodes[number]?) task.number (.mapping entries))

structure Sound (nodes : Array Node) (old : Array Cell) (tasks : List Task) (builder : Builder) :
    Prop where
  same : builder.nodes = nodes
  sizes : builder.values.size = nodes.size
  kept : ∀ (index : Nat) (cell : Cell), old[index]? = some cell → builder.cells[index]? = some cell
  inside : ∀ number index, builder.Has number (.cell index) →
    old.size ≤ index ∧ index < builder.cells.size
  owners : ∀ first second index, builder.Has first (.cell index) →
    builder.Has second (.cell index) → first = second
  waiting : ∀ task ∈ tasks, task.Fits nodes ∧ builder.Has task.number (.cell task.index)
  settled : ∀ number value, builder.Has number value → builder.Settled tasks number value

structure Grows (before after : Builder) : Prop where
  nodes : after.nodes = before.nodes
  cells : ∀ (index : Nat) (cell : Cell), before.cells[index]? = some cell →
    after.cells[index]? = some cell
  values : ∀ number value, before.Has number value → after.Has number value

theorem Grows.refl (builder : Builder) : Grows builder builder :=
  ⟨rfl, fun _ _ found => found, fun _ _ has => has⟩

theorem Grows.trans {middle : Builder} (early : Grows builder middle) (late : Grows middle after) :
    Grows builder after := by
  constructor
  · exact late.nodes.trans early.nodes
  · intro index cell found
    exact late.cells index cell (early.cells index cell found)
  · intro number value has
    exact late.values number value (early.values number value has)

theorem Filled.grow (filled : builder.Filled number index) (grows : Grows builder after) :
    after.Filled number index := by
  cases filled with
  | list found cell inside =>
      apply Filled.list (grows.nodes ▸ found) (grows.cells _ _ cell)
      exact inside.imp fun _ _ has => grows.values _ _ has
  | mapping found cell inside =>
      apply Filled.mapping (grows.nodes ▸ found) (grows.cells _ _ cell)
      exact inside.imp fun _ _ has => ⟨grows.values _ _ has.1, grows.values _ _ has.2⟩

theorem Settled.grow {more : List Task} (settled : builder.Settled tasks number value)
    (grows : Grows builder after) (includes : ∀ task ∈ tasks, task ∈ more) :
    after.Settled more number value := by
  cases settled with
  | atom found means => exact .atom (grows.nodes ▸ found) means
  | waiting member same => exact .waiting (includes _ member) same
  | filled filled => exact .filled (filled.grow grows)

def unset (builder : Builder) : Nat := builder.values.count none

/-- A value that a node gets, with the collections that wait from then on. -/
structure Valued (nodes : Array Node) (old : Array Cell) (tasks : List Task) (builder after : Builder)
    (number : Nat) (value : Value) (more : List Task) : Prop where
  sound : after.Sound nodes old (tasks ++ more)
  grows : Grows builder after
  has : after.Has number value
  bound : more.length + after.unset ≤ builder.unset

/-! ### New values -/

theorem has_keep (within : number < builder.values.size) {other : Nat} {found : Value} :
    (builder.keep number value).Has other found ↔
      if other = number then found = value else builder.Has other found := by
  rw [Has, keep, Array.getElem?_setIfInBounds]
  by_cases same : number = other
  · rw [if_pos same, if_pos within, if_pos same.symm]
    simp [eq_comm]
  · rw [if_neg same, if_neg (Ne.symm same)]
    rfl

theorem unset_keep (within : number < builder.values.size)
    (unvalued : ¬ ∃ value, builder.Has number value)
    (value : Value) : (builder.keep number value).unset + 1 = builder.unset := by
  have there : builder.values[number] = none := by
    cases held : builder.values[number] with
    | none => rfl
    | some value =>
        apply absurd _ unvalued
        refine ⟨value, ?_⟩
        rw [Has, Array.getElem?_eq_getElem within, held]
        rfl
  have counted : 0 < builder.values.count none :=
    Array.count_pos_iff.mpr (there ▸ Array.getElem_mem within)
  rw [unset, unset, keep, Array.setIfInBounds_def, dif_pos within, Array.count_set within, there]
  simp
  omega

theorem grows_keep (within : number < builder.values.size)
    (unvalued : ¬ ∃ value, builder.Has number value) {cells : Array Cell} (value : Value)
    (wider : ∀ (index : Nat) (cell : Cell), builder.cells[index]? = some cell →
      cells[index]? = some cell) :
    Grows builder ({ builder with cells := cells }.keep number value) := by
  constructor
  · rfl
  · exact wider
  · intro other found there
    have apart : other ≠ number := fun same => unvalued ⟨found, same ▸ there⟩
    rw [@has_keep { builder with cells := cells } _ _ within, if_neg apart]
    exact there

theorem size_le_of_found {α : Type} {small large : Array α}
    (wider : ∀ (index : Nat) element, small[index]? = some element → large[index]? = some element) :
    small.size ≤ large.size := by
  apply Nat.le_of_not_lt
  intro smaller
  have gone := wider large.size _ (Array.getElem?_eq_getElem smaller)
  rw [Array.getElem?_eq_none (Nat.le_refl _)] at gone
  cases gone

theorem keep_valued (sound : builder.Sound nodes old tasks) (cells : Array Cell) (value : Value)
    (wider : ∀ (index : Nat) (cell : Cell), builder.cells[index]? = some cell →
      cells[index]? = some cell)
    (within : number < nodes.size) (unvalued : ¬ ∃ value, builder.Has number value)
    (fresh : ∀ index, value = .cell index → old.size ≤ index ∧ index < cells.size ∧
      ∀ other, ¬ builder.Has other (.cell index))
    {more : List Task} (short : more.length ≤ 1)
    (fits : ∀ task ∈ more, task.Fits nodes ∧ task.number = number ∧ value = .cell task.index)
    (settled : ({ builder with cells := cells }.keep number value).Settled (tasks ++ more) number
      value) :
    Valued nodes old tasks builder ({ builder with cells := cells }.keep number value) number value
      more := by
  have within' : number < builder.values.size := by
    rw [sound.sizes]
    exact within
  have hasNew : ({ builder with cells := cells }.keep number value).Has number value := by
    rw [@has_keep { builder with cells := cells } _ _ within', if_pos rfl]
  have has {other : Nat} {found : Value}
      (there : ({ builder with cells := cells }.keep number value).Has other found) :
      other = number ∧ found = value ∨ builder.Has other found := by
    rw [@has_keep { builder with cells := cells } _ _ within'] at there
    split at there
    · next same => exact .inl ⟨same, there⟩
    · exact .inr there
  have grows := grows_keep within' unvalued value wider
  refine ⟨⟨sound.same, ?_, ?_, ?_, ?_, ?_, ?_⟩, grows, hasNew, ?_⟩
  · rw [keep, Array.size_setIfInBounds]
    exact sound.sizes
  · exact fun index cell found => wider index cell (sound.kept index cell found)
  · intro other index there
    rcases has there with ⟨-, same⟩ | before
    · exact ⟨(fresh index same.symm).1, (fresh index same.symm).2.1⟩
    · obtain ⟨above, below⟩ := sound.inside other index before
      exact ⟨above, Nat.lt_of_lt_of_le below (size_le_of_found wider)⟩
  · -- Only this node has the new cell, so no cell gets a second owner.
    intro first second index one two
    rcases has one with ⟨here, same⟩ | before
    · rcases has two with ⟨there, -⟩ | before'
      · rw [here, there]
      · exact absurd before' ((fresh index same.symm).2.2 second)
    · rcases has two with ⟨-, same⟩ | before'
      · exact absurd before ((fresh index same.symm).2.2 first)
      · exact sound.owners first second index before before'
  · intro task member
    rcases List.mem_append.mp member with before | new
    · obtain ⟨taskFits, waits⟩ := sound.waiting task before
      exact ⟨taskFits, grows.values _ _ waits⟩
    · obtain ⟨taskFits, rfl, same⟩ := fits task new
      exact ⟨taskFits, same ▸ hasNew⟩
  · intro other found there
    rcases has there with ⟨rfl, rfl⟩ | before
    · exact settled
    · exact (sound.settled other found before).grow grows fun _ member =>
        List.mem_append_left _ member
  · have fewer := @unset_keep { builder with cells := cells } _ within' unvalued value
    have same : ({ builder with cells := cells } : Builder).unset = builder.unset := rfl
    omega

/-! ### Building nodes -/

theorem node_eq {found : Node} (there : builder.nodes[number]? = some found) :
    builder.node number = found := by
  rw [node, there]
  rfl

theorem build_scalar {tag text : Text} {mark : Mark} {atom : Atom}
    (found : builder.nodes[number]? = some ⟨tag, .scalar text, mark⟩)
    (means : ScalarMeans tag text atom) :
    builder.build number = .ok (builder, .atom atom, none) := by
  have written : builder.scalarText (builder.nodes.size + 1) number = .ok text := by
    rw [scalarText, node_eq found]
  cases means with
  | null text => simp [build, node_eq found, written, Except.map, bind, Except.bind]
  | bool read =>
      have others : Tag.bool ≠ Tag.null := by decide
      simp [build, node_eq found, written, Except.map, bind, Except.bind, others, read, faulted]
  | int read =>
      have others : Tag.int ≠ Tag.null ∧ Tag.int ≠ Tag.bool := by decide
      simp [build, node_eq found, written, Except.map, bind, Except.bind, others, read, faulted]
  | text text =>
      have others : Tag.text ≠ Tag.null ∧ Tag.text ≠ Tag.bool ∧ Tag.text ≠ Tag.int ∧
          Tag.text ≠ Tag.real ∧ Tag.text ≠ Tag.binary ∧ Tag.text ≠ Tag.timestamp := by decide
      simp [build, node_eq found, written, Except.map, bind, Except.bind, others]

theorem build_sequence {numbers : List Nat} {mark : Mark}
    (found : builder.nodes[number]? = some ⟨Tag.sequence, .sequence numbers, mark⟩) :
    builder.build number = .ok ((builder.newCell (.list [])).1, .cell builder.cells.size,
      some (builder.cells.size, .sequence)) := by
  have others : Tag.sequence ≠ Tag.null ∧ Tag.sequence ≠ Tag.bool ∧ Tag.sequence ≠ Tag.int ∧
      Tag.sequence ≠ Tag.real ∧ Tag.sequence ≠ Tag.binary ∧ Tag.sequence ≠ Tag.timestamp ∧
      Tag.sequence ≠ Tag.text := by decide
  simp [build, node_eq found, newCell, others]

theorem build_mapping {pairs : List (Nat × Nat)} {mark : Mark}
    (found : builder.nodes[number]? = some ⟨Tag.mapping, .mapping pairs, mark⟩) :
    builder.build number = .ok ((builder.newCell (.mapping [])).1, .cell builder.cells.size,
      some (builder.cells.size, .mapping)) := by
  have others : Tag.mapping ≠ Tag.null ∧ Tag.mapping ≠ Tag.bool ∧ Tag.mapping ≠ Tag.int ∧
      Tag.mapping ≠ Tag.real ∧ Tag.mapping ≠ Tag.binary ∧ Tag.mapping ≠ Tag.timestamp ∧
      Tag.mapping ≠ Tag.text ∧ Tag.mapping ≠ Tag.sequence := by decide
  simp [build, node_eq found, newCell, others]

theorem push_cell {cell : Cell} {found : Cell} (there : builder.cells[index]? = some found) :
    (builder.cells.push cell)[index]? = some found := by
  grind

theorem valueOf_collection (sound : builder.Sound nodes old tasks) {cell : Cell} {filling : Filling}
    (within : number < nodes.size) (unvalued : builder.values[number]?.join = none)
    (fits : Task.Fits nodes ⟨number, builder.cells.size, filling⟩)
    (built : builder.build number = .ok ((builder.newCell cell).1, .cell builder.cells.size,
      some (builder.cells.size, filling))) :
    ∃ after value more, builder.valueOf number = .ok (after, value, more) ∧
      Valued nodes old tasks builder after number value more := by
  refine ⟨_, _, [⟨number, builder.cells.size, filling⟩], ?_, keep_valued sound
    (builder.cells.push cell) (.cell builder.cells.size) ?_ within ?_ ?_ ?_ ?_ ?_⟩
  · rw [valueOf, unvalued]
    simp only [built, bind, Except.bind]
    rfl
  · exact fun index found there => push_cell there
  · rintro ⟨value, has⟩
    rw [Has, unvalued] at has
    cases has
  · rintro index same
    cases same
    refine ⟨size_le_of_found sound.kept, ?_, ?_⟩
    · rw [Array.size_push]
      exact Nat.lt_succ_self _
    · intro other has
      exact Nat.lt_irrefl _ (sound.inside other _ has).2
  · exact Nat.le_refl _
  · intro task member
    cases List.mem_singleton.mp member
    exact ⟨fits, rfl, rfl⟩
  · have waits : (⟨number, builder.cells.size, filling⟩ : Task) ∈
        tasks ++ [⟨number, builder.cells.size, filling⟩] :=
      List.mem_append_right _ List.mem_cons_self
    exact .waiting waits rfl

theorem valueOf_ok (sound : builder.Sound nodes old tasks) {tree : Tree}
    (stands : Stands (fun number => nodes[number]?) number tree) :
    ∃ after value more, builder.valueOf number = .ok (after, value, more) ∧
      Valued nodes old tasks builder after number value more := by
  -- A node that has a value keeps it; an atom is built at once, and a collection waits.
  cases held : builder.values[number]?.join with
  | some value =>
      refine ⟨builder, value, [], ?_, ?_, .refl _, held, Nat.le_of_eq (Nat.zero_add _)⟩
      · rw [valueOf, held]
      · rw [List.append_nil]
        exact sound
  | none =>
      cases stands with
      | @atom _ tag text mark atom found means =>
          have within := (Array.getElem?_eq_some_iff.mp found).1
          have there : builder.nodes[number]? = some ⟨tag, .scalar text, mark⟩ := sound.same ▸ found
          refine ⟨_, _, [], ?_, keep_valued sound builder.cells (.atom atom)
            (fun _ _ found => found) within ?_ ?_ ?_ ?_ ?_⟩
          · rw [valueOf, held]
            simp only [build_scalar there means, bind, Except.bind]
            rfl
          · rintro ⟨value, has⟩
            rw [Has, held] at has
            cases has
          · rintro index impossible
            cases impossible
          · exact Nat.zero_le _
          · exact fun task member => absurd member List.not_mem_nil
          · exact .atom there means
      | @list _ numbers mark trees found sizes below =>
          have within := (Array.getElem?_eq_some_iff.mp found).1
          exact valueOf_collection sound within held (.sequence rfl (.list found sizes below))
            (build_sequence (sound.same ▸ found))
      | @mapping _ pairs mark entries found sizes texts keys below =>
          have within := (Array.getElem?_eq_some_iff.mp found).1
          exact valueOf_collection sound within held
              (.mapping rfl (.mapping found sizes texts keys below))
            (build_mapping (sound.same ▸ found))

/-! ### Filling collections -/

/-- Several nodes have got values, with the collections that wait from then on. -/
structure Gathered (nodes : Array Node) (old : Array Cell) (tasks : List Task)
    (builder after : Builder) (more : List Task) : Prop where
  sound : after.Sound nodes old (tasks ++ more)
  grows : Grows builder after
  bound : more.length + after.unset ≤ builder.unset

theorem Valued.gathered {more : List Task}
    (valued : Valued nodes old tasks builder after number value more) :
    Gathered nodes old tasks builder after more :=
  ⟨valued.sound, valued.grows, valued.bound⟩

theorem gathered_nil (sound : builder.Sound nodes old tasks) :
    Gathered nodes old tasks builder builder [] := by
  constructor
  · rw [List.append_nil]
    exact sound
  · exact .refl builder
  · exact Nat.le_of_eq (Nat.zero_add _)

theorem Gathered.trans {middle : Builder} {first second : List Task}
    (one : Gathered nodes old tasks builder middle first)
    (two : Gathered nodes old (tasks ++ first) middle after second) :
    Gathered nodes old tasks builder after (first ++ second) := by
  constructor
  · rw [← List.append_assoc]
    exact two.sound
  · exact one.grows.trans two.grows
  · have early := one.bound
    have late := two.bound
    rw [List.length_append]
    omega

theorem valuesOf_ok {numbers : List Nat} {trees : List Tree}
    (stands : List.Forall₂ (Stands fun number => nodes[number]?) numbers trees) {tasks : List Task}
    {builder : Builder} (sound : builder.Sound nodes old tasks) :
    ∃ after values more, builder.valuesOf numbers = .ok (after, values, more) ∧
      Gathered nodes old tasks builder after more ∧ List.Forall₂ after.Has numbers values := by
  induction stands generalizing tasks builder with
  | nil => exact ⟨builder, [], [], rfl, gathered_nil sound, .nil⟩
  | @cons number tree numbers trees here later ih =>
      obtain ⟨middle, value, first, valued, one⟩ := valueOf_ok sound here
      obtain ⟨after, values, second, others, two, has⟩ := ih one.sound
      refine ⟨after, value :: values, first ++ second, ?_, one.gathered.trans two,
        .cons (two.grows.values _ _ one.has) has⟩
      rw [valuesOf, valued]
      simp only [bind, Except.bind, others]

theorem Sound.atom_value (sound : builder.Sound nodes old tasks) {atom : Atom}
    (stands : Stands (fun number => nodes[number]?) number (.atom atom))
    (has : builder.Has number value) : value = .atom atom := by
  obtain ⟨found, means⟩ := stands
  have there := sound.same ▸ found
  -- A cell is settled only for a collection, and this node is a scalar.
  cases sound.settled number value has with
  | atom found' means' =>
      rw [there] at found'
      cases found'
      rw [scalarMeans_unique means means']
  | waiting member same =>
      rw [← same] at found
      cases (sound.waiting _ member).1 with
      | sequence filling stands =>
          obtain - | ⟨found', -, -⟩ | - := stands
          rw [found] at found'
          cases found'
      | mapping filling stands =>
          obtain - | - | ⟨found', -, -, -, -⟩ := stands
          rw [found] at found'
          cases found'
  | filled filled =>
      cases filled with
      | list found' cell inside =>
          rw [there] at found'
          cases found'
      | mapping found' cell inside =>
          rw [there] at found'
          cases found'

theorem entryValues_ok {pairs : List (Nat × Nat)} {entries : List (Value × Tree)}
    (stands : List.Forall₂ (PairStands fun number => nodes[number]?) pairs entries)
    (texts : ∀ entry ∈ entries, entry.1.isText = true) (start : Mark) {tasks : List Task}
    {builder : Builder} (sound : builder.Sound nodes old tasks) (collected : List (Value × Value)) :
    ∃ after values more,
      entryValues start builder collected pairs = .ok (after, collectAfter collected values, more) ∧
      Gathered nodes old tasks builder after more ∧
      List.Forall₂ (fun pair entry => after.Has pair.1 entry.1 ∧ after.Has pair.2 entry.2)
        pairs values := by
  -- The values of the first entry are built before those of the others, which keep them.
  induction stands generalizing tasks builder collected with
  | nil => exact ⟨builder, [], [], rfl, gathered_nil sound, .nil⟩
  | @cons pair entry pairs entries here later ih =>
      obtain ⟨textHere, textsLater⟩ := List.forall_mem_cons.mp texts
      obtain ⟨keyStands, valueStands⟩ := here
      obtain ⟨keyNumber, valueNumber⟩ := pair
      obtain ⟨text, same⟩ := isText_cases textHere
      rw [same] at keyStands
      obtain ⟨keyed, key, first, keyValued, one⟩ := valueOf_ok sound keyStands
      cases one.sound.atom_value keyStands one.has
      obtain ⟨middle, value, second, valued, two⟩ := valueOf_ok one.sound valueStands
      obtain ⟨after, values, third, others, three, has⟩ := ih textsLater two.sound
        (put (.atom (.text text)) value collected)
      refine ⟨after, (.atom (.text text), value) :: values, first ++ second ++ third, ?_,
        (one.gathered.trans two.gathered).trans ?_, .cons ⟨?_, ?_⟩ has⟩
      · rw [entryValues, keyValued]
        simp only [bind, Except.bind, isHashable, Bool.not_true, Bool.false_eq_true, if_false, valued,
          insertKey_text, others]
        rfl
      · rw [← List.append_assoc]
        exact three
      · exact three.grows.values _ _ (two.grows.values _ _ one.has)
      · exact three.grows.values _ _ two.has

/-! ### Mappings without anything to merge -/

def TextKeys (nodes : Array Node) (pairs : List (Nat × Nat)) : Prop :=
  ∀ pair ∈ pairs, ∃ text mark, nodes[pair.1]? = some ⟨Tag.text, .scalar text, mark⟩

theorem takeMerge_textKeys {pairs : List (Nat × Nat)} (texts : TextKeys nodes pairs) :
    takeMerge nodes pairs = none := by
  induction pairs with
  | nil => rfl
  | cons pair rest ih =>
      obtain ⟨⟨text, mark, found⟩, later⟩ := List.forall_mem_cons.mp texts
      have other : (Tag.text == Tag.merge) = false := by decide
      have unmerged : isMerge nodes pair = false := by
        rw [isMerge, found]
        exact other
      rw [takeMerge, unmerged, if_neg Bool.false_ne_true, ih later]
      rfl

theorem retag_textKeys {pairs : List (Nat × Nat)} (texts : TextKeys nodes pairs) :
    pairs.foldl retag nodes = nodes := by
  induction pairs with
  | nil => rfl
  | cons pair rest ih =>
      obtain ⟨⟨text, mark, found⟩, later⟩ := List.forall_mem_cons.mp texts
      have other : Tag.text ≠ Tag.value := by decide
      have same : retag nodes pair = nodes := by
        apply Array.ext_getElem?
        intro number
        rw [retag, Array.getElem?_modify]
        split
        · next here =>
            rw [← here, found]
            simp only [Option.map_some, if_neg other]
        · rfl
      rw [List.foldl_cons, same]
      exact ih later

theorem flatten_textKeys {pairs : List (Nat × Nat)} {tag : Text} {mark : Mark} (fuel : Nat)
    (found : builder.nodes[number]? = some ⟨tag, .mapping pairs, mark⟩)
    (texts : TextKeys builder.nodes pairs) :
    flatten (fuel + 1) [] builder number = .ok builder := by
  have entries : builder.entriesOf number = pairs := by
    rw [entriesOf, node_eq found]
  rw [flatten, entries, takeMerge_textKeys texts]
  simp only [retag_textKeys texts, List.isEmpty_nil, if_true]

/-! ### Filling all collections -/

theorem Sound.setCell {task : Task} (sound : builder.Sound nodes old (task :: tasks)) {cell : Cell}
    (filled : (builder.setCell task.index cell).Filled task.number task.index) :
    (builder.setCell task.index cell).Sound nodes old tasks := by
  obtain ⟨-, own⟩ := sound.waiting task List.mem_cons_self
  obtain ⟨above, -⟩ := sound.inside _ _ own
  have others {other : Nat} (different : task.index ≠ other) :
      (builder.setCell task.index cell).cells[other]? = builder.cells[other]? :=
    Array.getElem?_setIfInBounds_ne different
  constructor
  · exact sound.same
  · exact sound.sizes
  · intro index found there
    have inside := (Array.getElem?_eq_some_iff.mp there).1
    rw [others (by omega)]
    exact sound.kept index found there
  · intro number index has
    rw [Builder.setCell, Array.size_setIfInBounds]
    exact sound.inside number index has
  · exact sound.owners
  · intro other member
    exact sound.waiting other (List.mem_cons_of_mem _ member)
  · intro number value has
    have before := sound.settled number value has
    cases before with
    | atom found means => exact .atom found means
    | @waiting other member same =>
        rcases List.mem_cons.mp member with rfl | later
        · exact .filled (same ▸ filled)
        · exact .waiting later same
    | @filled index holds =>
        -- The cell belongs to one node only, so no other collection is overwritten.
        by_cases here : task.index = index
        · rw [← here] at has ⊢
          rw [sound.owners number task.number task.index has own]
          exact .filled filled
        · apply Settled.filled
          cases holds with
          | list found there inside => exact .list found ((others here).trans there) inside
          | mapping found there inside => exact .mapping found ((others here).trans there) inside

theorem setCell_getElem? {cell : Cell} (within : index < builder.cells.size) :
    (builder.setCell index cell).cells[index]? = some cell := by
  rw [setCell, Array.getElem?_setIfInBounds_self_of_lt within]

/-- One collection is filled, and others may wait behind those that waited. -/
theorem fill_ok {task : Task} (sound : builder.Sound nodes old (task :: tasks)) :
    ∃ after more, builder.fill task = .ok (after, more) ∧ after.Sound nodes old (tasks ++ more) ∧
      more.length + after.unset ≤ builder.unset ∧
      ∀ number value, builder.Has number value → after.Has number value := by
  obtain ⟨fits, own⟩ := sound.waiting task List.mem_cons_self
  cases fits with
  | sequence filling stands =>
      obtain - | ⟨found, sizes, below⟩ | - := stands
      obtain ⟨after, values, more, gathered, gathers, has⟩ :=
        valuesOf_ok (List.forall₂_iff_get.mpr ⟨sizes, below⟩) sound
      have there := sound.same ▸ found
      have inside := (gathers.sound.inside _ _ (gathers.grows.values _ _ own)).2
      refine ⟨after.setCell task.index (.list values), more, ?_, ?_, gathers.bound,
        gathers.grows.values⟩
      · simp only [fill, filling, node_eq there, gathered, bind, Except.bind]
      · have waits : after.Sound nodes old (task :: (tasks ++ more)) := gathers.sound
        exact waits.setCell (.list (gathers.grows.nodes ▸ there) (setCell_getElem? inside) has)
  | mapping filling stands =>
      obtain - | - | ⟨found, sizes, isText, keys, below⟩ := stands
      rename_i pairs mark entries
      have there := sound.same ▸ found
      have both : List.Forall₂ (PairStands fun number => nodes[number]?) pairs entries := by
        apply List.forall₂_iff_get.mpr
        exact ⟨sizes, fun place inPairs inEntries =>
          ⟨keys place inPairs inEntries, below place inPairs inEntries⟩⟩
      -- All keys are texts, so no entry is merged into the mapping.
      have texts : TextKeys builder.nodes pairs := by
        intro pair member
        obtain ⟨place, inPairs, rfl⟩ := List.mem_iff_getElem.mp member
        obtain ⟨text, same⟩ := isText_cases (isText entries[place] (List.getElem_mem (sizes ▸ inPairs)))
        have key := keys place inPairs (sizes ▸ inPairs)
        rw [same] at key
        obtain ⟨keyFound, means⟩ := key
        cases means
        exact ⟨text, _, sound.same ▸ keyFound⟩
      obtain ⟨after, values, more, gathered, gathers, has⟩ := entryValues_ok both isText mark sound []
      have inside := (gathers.sound.inside _ _ (gathers.grows.values _ _ own)).2
      refine ⟨after.setCell task.index (.mapping (collect values)), more, ?_, ?_, gathers.bound,
        gathers.grows.values⟩
      · simp only [fill, filling, mappingEntries, node_eq there, flatten_textKeys _ there texts,
          entriesOf, gathered, bind, Except.bind]
        rfl
      · have waits : after.Sound nodes old (task :: (tasks ++ more)) := gathers.sound
        exact waits.setCell (.mapping (gathers.grows.nodes ▸ there) (setCell_getElem? inside) has)

theorem fillAll_ok (fuel : Nat) {tasks : List Task} {builder : Builder}
    (sound : builder.Sound nodes old tasks) (enough : tasks.length + builder.unset ≤ fuel) :
    ∃ after, fillAll fuel builder tasks = .ok after ∧ after.Sound nodes old [] ∧
      ∀ number value, builder.Has number value → after.Has number value := by
  induction fuel generalizing tasks builder with
  | zero =>
      cases tasks with
      | nil => exact ⟨builder, rfl, sound, fun _ _ has => has⟩
      | cons task tasks =>
          rw [List.length_cons] at enough
          omega
  | succ fuel ih =>
      cases tasks with
      | nil => exact ⟨builder, rfl, sound, fun _ _ has => has⟩
      | cons task tasks =>
          obtain ⟨middle, more, filled, sound', bound, early⟩ := fill_ok sound
          rw [List.length_cons] at enough
          obtain ⟨after, all, done, late⟩ := ih sound' (by rw [List.length_append]; omega)
          refine ⟨after, ?_, done, fun number value has => late number value (early number value has)⟩
          rw [fillAll, filled]
          exact all

theorem Sound.unfolds (sound : builder.Sound nodes old []) {tree : Tree}
    (stands : Stands (fun number => nodes[number]?) number tree) (has : builder.Has number value) :
    Unfolds builder.cells value tree := by
  induction stands generalizing value with
  | atom found means =>
      rw [sound.atom_value (.atom found means) has]
      exact .atom _
  | @list number numbers mark trees found sizes below ih =>
      have there := sound.same ▸ found
      -- No atom has this node and nothing waits, so its value is a list that was filled.
      cases sound.settled number value has with
      | atom found' means =>
          rw [there] at found'
          cases found'
      | waiting member same => cases member
      | filled filled =>
          cases filled with
          | mapping found' cell inside =>
              rw [there] at found'
              cases found'
          | list found' cell inside =>
              rw [there] at found'
              cases found'
              obtain ⟨sizes', each⟩ := List.forall₂_iff_get.mp inside
              apply unfolds_list_iff.mpr ⟨_, cell, List.forall₂_iff_get.mpr ⟨by omega, ?_⟩⟩
              intro place inValues inTrees
              exact ih place (by omega) inTrees (each place (by omega) inValues)
  | @mapping number pairs mark entries found sizes texts keys below keysIh ih =>
      have there := sound.same ▸ found
      cases sound.settled number value has with
      | atom found' means =>
          rw [there] at found'
          cases found'
      | waiting member same => cases member
      | filled filled =>
          cases filled with
          | list found' cell inside =>
              rw [there] at found'
              cases found'
          | mapping found' cell inside =>
              rw [there] at found'
              cases found'
              obtain ⟨sizes', each⟩ := List.forall₂_iff_get.mp inside
              apply unfolds_mapping_iff.mpr ⟨_, cell, matches_collect ?_⟩
              apply List.forall₂_iff_get.mpr ⟨by omega, ?_⟩
              intro place inValues inEntries
              obtain ⟨keyHas, valueHas⟩ := each place (by omega) inValues
              have key := keys place (by omega) inEntries
              obtain ⟨text, same⟩ := isText_cases (texts entries[place] (List.getElem_mem inEntries))
              rw [same] at key
              constructor
              · exact (sound.atom_value key keyHas).trans same.symm
              · exact ih place (by omega) inEntries valueHas

theorem sound_ofNodes (nodes : Array Node) (old : Array Cell) :
    (ofNodes nodes old).Sound nodes old [] := by
  have unvalued (number : Nat) (value : Value) : ¬ (ofNodes nodes old).Has number value := by
    intro has
    rw [Has, ofNodes, Array.getElem?_replicate] at has
    split at has <;> cases has
  constructor
  · rfl
  · exact Array.size_replicate
  · exact fun index cell found => found
  · exact fun number index has => absurd has (unvalued number _)
  · exact fun first second index has => absurd has (unvalued first _)
  · exact fun task member => absurd member List.not_mem_nil
  · exact fun number value has => absurd has (unvalued number value)

end Builder

/-- The document of nodes that stand for a tree is added to a stream as a value that unfolds to the
tree. -/
theorem addDocument_stands (stream : Stream) {graph : NodeGraph} {tree : Tree}
    (stands : Stands (fun number => graph.nodes[number]?) graph.root tree) :
    ∃ cells root, addDocument stream graph = .ok ⟨cells, stream.roots ++ [root]⟩ ∧
      Unfolds cells root tree ∧
      ∀ (index : Nat) (cell : Cell), stream.cells[index]? = some cell → cells[index]? = some cell := by
  obtain ⟨started, root, tasks, valued, starts⟩ :=
    Builder.valueOf_ok (Builder.sound_ofNodes graph.nodes stream.cells) stands
  have none : (Builder.ofNodes graph.nodes stream.cells).unset = graph.nodes.size := by
    rw [Builder.unset, Builder.ofNodes, Array.count_replicate_self]
  have bound := starts.bound
  obtain ⟨filled, all, sound, values⟩ := Builder.fillAll_ok (graph.nodes.size + 1) starts.sound
    (by rw [List.nil_append]; omega)
  refine ⟨filled.cells, root, ?_, sound.unfolds stands (values _ _ starts.has), sound.kept⟩
  simp only [addDocument, valued, bind, Except.bind]
  rw [List.nil_append] at all
  simp only [all]

end SecretFill.Yaml
