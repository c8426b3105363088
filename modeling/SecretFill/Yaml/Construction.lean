import SecretFill.Data.Stream
import SecretFill.Yaml.Node
import SecretFill.Yaml.Scalar
/-!
The data of a document from its nodes. Scalars get their value at once; a collection becomes an
empty cell that is filled later, in the order in which the cells were made, so a collection may
hold itself. Before a mapping is filled the mappings that it merges are put in front of its own
entries.
-/

namespace SecretFill.Yaml

open SecretFill.Data

inductive Filling
  | sequence
  | mapping
  | set
  | orderedMap
  | pairs
  deriving DecidableEq, Repr

structure Builder where
  nodes : Array Node
  cells : Array Cell
  /-- The value of each node that has one already. -/
  values : Array (Option Value)
  /-- How many entries merge at most. -/
  merges : Nat

namespace Builder

def isMerge (nodes : Array Node) (entry : Nat × Nat) : Bool :=
  (nodes[entry.1]?.map fun node => node.tag == Tag.merge).getD false

def mergeCount (nodes : Array Node) : Nat :=
  nodes.foldl (fun count node =>
    match node.content with
    | .mapping entries => count + (entries.filter (isMerge nodes)).length
    | _ => count) 0

def ofNodes (nodes : Array Node) (cells : Array Cell) : Builder :=
  ⟨nodes, cells, Array.replicate nodes.size none, mergeCount nodes⟩

def node (builder : Builder) (number : Nat) : Node :=
  builder.nodes[number]?.getD ⟨Tag.null, .scalar "", ⟨0, 0, 0⟩⟩

def setCell (builder : Builder) (index : Nat) (cell : Cell) : Builder :=
  { builder with cells := builder.cells.setIfInBounds index cell }

def keep (builder : Builder) (number : Nat) (value : Value) : Builder :=
  { builder with values := builder.values.setIfInBounds number (some value) }

def newCell (builder : Builder) (cell : Cell) : Builder × Value :=
  ({ builder with cells := builder.cells.push cell }, .cell builder.cells.size)

/-! ### Merging -/

def takeMerge (nodes : Array Node) : List (Nat × Nat) → Option (Nat × List (Nat × Nat))
  | [] => none
  | entry :: rest =>
      if isMerge nodes entry then some (entry.2, rest)
      else (takeMerge nodes rest).map fun (value, others) => (value, entry :: others)

def entriesOf (builder : Builder) (number : Nat) : List (Nat × Nat) :=
  match (builder.node number).content with
  | .mapping entries => entries
  | _ => []

def setEntries (builder : Builder) (number : Nat) (entries : List (Nat × Nat)) : Builder :=
  let nodes := builder.nodes.modify number fun node => { node with content := .mapping entries }
  { builder with nodes := nodes }

/-- A key that marks a default value is an ordinary text in a mapping. -/
def retag (nodes : Array Node) (entry : Nat × Nat) : Array Node :=
  nodes.modify entry.1 fun node =>
    if node.tag = Tag.value then { node with tag := Tag.text } else node

def flattenEach (flatten : Builder → Nat → Except Failure Builder) (start : Mark) :
    Builder → List Nat → Except Failure (Builder × List (List (Nat × Nat)))
  | builder, [] => .ok (builder, [])
  | builder, number :: rest =>
      let source := builder.node number
      match source.content with
      | .mapping _ => do
          let builder ← flatten builder number
          let entries := builder.entriesOf number
          let (builder, others) ← flattenEach flatten start builder rest
          .ok (builder, entries :: others)
      | content =>
          .error (.within .mapping start (.expectedMappingToMerge content.kind) source.mark)

/-- Takes the merging entries of a mapping one by one. `merged` are the entries merged so far.
Each step takes one such entry from the nodes, which bounds the steps. -/
def flatten : Nat → List (Nat × Nat) → Builder → Nat → Except Failure Builder
  | 0, _, builder, _ => .ok builder
  | fuel + 1, merged, builder, number =>
      match takeMerge builder.nodes (builder.entriesOf number) with
      | none =>
          let entries := builder.entriesOf number
          let builder := { builder with nodes := entries.foldl retag builder.nodes }
          .ok (if merged.isEmpty then builder else builder.setEntries number (merged ++ entries))
      | some (value, others) => do
          -- Taken out first: a mapping that merges itself is met without this entry.
          let builder := builder.setEntries number others
          let start := (builder.node number).mark
          let source := builder.node value
          match source.content with
          | .mapping _ => do
              let builder ← flatten fuel [] builder value
              flatten fuel (merged ++ builder.entriesOf value) builder number
          | .sequence items => do
              let (builder, groups) ← flattenEach (flatten fuel []) start builder items
              -- A later entry of one key wins, so the first mapping of the list comes last.
              flatten fuel (merged ++ groups.reverse.flatten) builder number
          | .scalar _ =>
              .error (.within .mapping start (.expectedMappingsToMerge .scalar) source.mark)

/-! ### Values of nodes -/

def scalarText (builder : Builder) : Nat → Nat → Except Failure Text
  | 0, _ => .error .tooDeep
  | fuel + 1, number =>
      let source := builder.node number
      let refused : Except Failure Text :=
        .error (.found none (.expectedNode .scalar source.content.kind) source.mark)
      match source.content with
      | .scalar text => .ok text
      | .sequence _ => refused
      | .mapping entries =>
          match entries.find? fun entry => (builder.node entry.1).tag == Tag.value with
          | some (_, value) => scalarText builder fuel value
          | none => refused

def faulted {α : Type} : Except ScalarFault α → Except Failure α
  | .ok value => .ok value
  | .error fault => .error (.scalar fault)

def build (builder : Builder) (number : Nat) :
    Except Failure (Builder × Value × Option (Nat × Filling)) := do
  let source := builder.node number
  let text : Except Failure (List Code) :=
    (builder.scalarText (builder.nodes.size + 1) number).map Text.toList
  let atom (atom : Atom) : Except Failure (Builder × Value × Option (Nat × Filling)) :=
    .ok (builder, .atom atom, none)
  let single (cell : Cell) : Except Failure (Builder × Value × Option (Nat × Filling)) :=
    let (builder, value) := builder.newCell cell
    .ok (builder, value, none)
  let collection (cell : Cell) (filling : Filling) :
      Except Failure (Builder × Value × Option (Nat × Filling)) :=
    let (builder, value) := builder.newCell cell
    .ok (builder, value, some (builder.cells.size - 1, filling))
  if source.tag = Tag.null then do
    -- A collection has no text and is refused; every scalar is null.
    let _ ← text
    atom .null
  else if source.tag = Tag.bool then do atom (.bool (← faulted (Scalar.bool (← text))))
  else if source.tag = Tag.int then do atom (.int (← faulted (Scalar.integer (← text))))
  else if source.tag = Tag.real then do
    match ← faulted (Scalar.real (← text)) with
    | some number => atom (.real number)
    | none => single .notANumber
  else if source.tag = Tag.binary then do
    match Scalar.bytes (← text) with
    | .ok bytes => atom (.bytes bytes)
    | .error problem => .error (.found none problem source.mark)
  else if source.tag = Tag.timestamp then do
    let text ← text
    match source.content with
    | .scalar _ => single (← faulted (Scalar.timestamp text))
    | _ => .error (.scalar .timestampNotText)
  else if source.tag = Tag.text then do atom (.text (Text.ofList (← text)))
  else if source.tag = Tag.sequence then collection (.list []) .sequence
  else if source.tag = Tag.mapping then collection (.mapping []) .mapping
  else if source.tag = Tag.set then collection (.set []) .set
  else if source.tag = Tag.orderedMap then collection (.list []) .orderedMap
  else if source.tag = Tag.pairs then collection (.list []) .pairs
  else .error (.found none (.unknownTag source.tag) source.mark)

structure Task where
  number : Nat
  index : Nat
  filling : Filling

/-- The value of a node, made once for all places of the node. -/
def valueOf (builder : Builder) (number : Nat) :
    Except Failure (Builder × Value × List Task) :=
  match builder.values[number]?.join with
  | some value => .ok (builder, value, [])
  | none => do
      let (builder, value, task) ← builder.build number
      let tasks := task.toList.map fun (index, filling) => ⟨number, index, filling⟩
      .ok (builder.keep number value, value, tasks)

/-! ### Filling collections -/

def valuesOf : Builder → List Nat → Except Failure (Builder × List Value × List Task)
  | builder, [] => .ok (builder, [], [])
  | builder, number :: rest => do
      let (builder, value, tasks) ← builder.valueOf number
      let (builder, values, others) ← valuesOf builder rest
      .ok (builder, value :: values, tasks ++ others)

def isHashable (builder : Builder) : Value → Bool
  | .atom _ => true
  | .cell index => (builder.cells[index]?.map Cell.isHashable).getD true

def entryValues (start : Mark) : Builder → List (Value × Value) → List (Nat × Nat) →
    Except Failure (Builder × List (Value × Value) × List Task)
  | builder, entries, [] => .ok (builder, entries, [])
  | builder, entries, (keyNumber, valueNumber) :: rest => do
      let (builder, key, keyTasks) ← builder.valueOf keyNumber
      if !builder.isHashable key then
        .error (.within .mapping start .unhashableKey (builder.node keyNumber).mark)
      else
        let (builder, value, valueTasks) ← builder.valueOf valueNumber
        let entries := insertKey builder.cells key value entries
        let (builder, entries, others) ← entryValues start builder entries rest
        .ok (builder, entries, keyTasks ++ valueTasks ++ others)

def refusedNode (builder : Builder) (number : Nat) (expected : NodeKind) : Failure :=
  let source := builder.node number
  .found none (.expectedNode expected source.content.kind) source.mark

def mappingEntries (builder : Builder) (number : Nat) :
    Except Failure (Builder × List (Value × Value) × List Task) := do
  match (builder.node number).content with
  | .mapping _ => do
      let builder ← flatten (builder.merges + 1) [] builder number
      entryValues (builder.node number).mark builder [] (builder.entriesOf number)
  | _ => .error (builder.refusedNode number .mapping)

def pairCells (activity : Activity) (start : Mark) : Builder → List Nat →
    Except Failure (Builder × List Value × List Task)
  | builder, [] => .ok (builder, [], [])
  | builder, number :: rest => do
      let source := builder.node number
      let problem (problem : Problem) : Failure := .within activity start problem source.mark
      match source.content with
      | .mapping [(keyNumber, valueNumber)] => do
          let (builder, key, keyTasks) ← builder.valueOf keyNumber
          let (builder, value, valueTasks) ← builder.valueOf valueNumber
          let (builder, pair) := builder.newCell (.tuple [key, value])
          let (builder, pairs, others) ← pairCells activity start builder rest
          .ok (builder, pair :: pairs, keyTasks ++ valueTasks ++ others)
      | .mapping entries => .error (problem (.expectedSingleItem entries.length))
      | content => .error (problem (.expectedSingleMapping content.kind))

def pairList (activity : Activity) (builder : Builder) (number : Nat) :
    Except Failure (Builder × List Value × List Task) :=
  let source := builder.node number
  match source.content with
  | .sequence items => pairCells activity source.mark builder items
  | content =>
      .error (.within activity source.mark (.expectedSequence content.kind) source.mark)

def fill (builder : Builder) (task : Task) : Except Failure (Builder × List Task) := do
  match task.filling with
  | .sequence =>
      match (builder.node task.number).content with
      | .sequence items => do
          let (builder, values, tasks) ← builder.valuesOf items
          .ok (builder.setCell task.index (.list values), tasks)
      | _ => .error (builder.refusedNode task.number .sequence)
  | .mapping => do
      let (builder, entries, tasks) ← builder.mappingEntries task.number
      .ok (builder.setCell task.index (.mapping entries), tasks)
  | .set => do
      let (builder, entries, tasks) ← builder.mappingEntries task.number
      .ok (builder.setCell task.index (.set (entries.map Prod.fst)), tasks)
  | .orderedMap => do
      let (builder, pairs, tasks) ← pairList .orderedMap builder task.number
      .ok (builder.setCell task.index (.list pairs), tasks)
  | .pairs => do
      let (builder, pairs, tasks) ← pairList .pairs builder task.number
      .ok (builder.setCell task.index (.list pairs), tasks)

/-- Fills collections in the order in which they were made. Each node is made at most once, which
bounds the steps. -/
def fillAll : Nat → Builder → List Task → Except Failure Builder
  | _, builder, [] => .ok builder
  | 0, builder, _ => .ok builder
  | fuel + 1, builder, task :: rest => do
      let (builder, tasks) ← builder.fill task
      fillAll fuel builder (rest ++ tasks)

end Builder

def addDocument (stream : Stream) (graph : NodeGraph) : Except Failure Stream := do
  let (builder, root, tasks) ← (Builder.ofNodes graph.nodes stream.cells).valueOf graph.root
  let builder ← Builder.fillAll (graph.nodes.size + 1) builder tasks
  .ok ⟨builder.cells, stream.roots ++ [root]⟩

end SecretFill.Yaml
