import SecretFill.Yaml.Event
import SecretFill.Yaml.Resolution
/-!
The nodes of one document. An alias is the node that its anchor names, so several places may hold
one node, and a node may hold itself. An `Assembly` takes the events in order; a collection is put
where it belongs when it ends.
-/

namespace SecretFill.Yaml

inductive Node.Content
  | scalar (text : Text)
  | sequence (items : List Nat)
  | mapping (entries : List (Nat × Nat))
  deriving DecidableEq, Repr

def Node.Content.kind : Node.Content → NodeKind
  | .scalar _ => .scalar
  | .sequence _ => .sequence
  | .mapping _ => .mapping

structure Node where
  tag : Text
  content : Node.Content
  mark : Mark
  deriving DecidableEq, Repr

structure NodeGraph where
  nodes : Array Node
  root : Nat
  deriving DecidableEq, Repr

/-- The deepest nesting of collections that is read. A reader that calls itself for each collection
gives up when its stack is full; the number stands in for that, and is not exact. -/
def deepestNesting : Nat := 480

/-- A collection whose end has not come yet; its children are in reverse order, keys and values of
a mapping one after the other. -/
structure Frame where
  number : Nat
  isMapping : Bool
  children : List Nat
  deriving DecidableEq, Repr

structure Assembly where
  nodes : Array Node
  /-- The number of the node that each anchor names. -/
  anchors : List (Text × Nat)
  frames : List Frame
  root : Option Nat

namespace Assembly

def empty : Assembly := ⟨#[], [], [], none⟩

def place (assembly : Assembly) (number : Nat) : Assembly :=
  match assembly.frames with
  | [] => { assembly with root := some number }
  | frame :: frames =>
      { assembly with
        frames := { frame with children := number :: frame.children } :: frames }

def pairUp : List Nat → List (Nat × Nat)
  | key :: value :: rest => (key, value) :: pairUp rest
  | _ => []

def checkAnchor (assembly : Assembly) (anchor : Option Text) (mark : Mark) :
    Except Failure Unit :=
  match anchor with
  | none => .ok ()
  | some name =>
      match assembly.anchors.lookup name with
      | none => .ok ()
      | some first =>
          let start := (assembly.nodes[first]?.map Node.mark).getD mark
          .error (.within (.duplicateAnchor name) start .secondOccurrence mark)

def add (assembly : Assembly) (node : Node) (anchor : Option Text) : Assembly × Nat :=
  let number := assembly.nodes.size
  let anchors :=
    match anchor with
    | some name => (name, number) :: assembly.anchors
    | none => assembly.anchors
  ({ assembly with nodes := assembly.nodes.push node, anchors := anchors }, number)

def chosenTag (properties : Properties) (default : Text) : Text :=
  match properties.tag with
  | none => default
  | some tag => if tag = "!" then default else tag

def enter (assembly : Assembly) (properties : Properties) (default : Text)
    (content : Node.Content) (mark : Mark) : Except Failure Assembly := do
  assembly.checkAnchor properties.anchor mark
  if deepestNesting ≤ assembly.frames.length then .error .tooDeep
  else
    let node : Node := ⟨chosenTag properties default, content, mark⟩
    -- Named before its children are read, so that they may refer to it.
    let (assembly, number) := assembly.add node properties.anchor
    let frame : Frame := ⟨number, content.kind = .mapping, []⟩
    .ok { assembly with frames := frame :: assembly.frames }

def close (assembly : Assembly) : Assembly :=
  match assembly.frames with
  | [] => assembly
  | frame :: frames =>
      let children := frame.children.reverse
      let content : Node.Content :=
        if frame.isMapping then .mapping (pairUp children) else .sequence children
      let nodes := assembly.nodes.modify frame.number fun node => { node with content := content }
      { assembly with nodes := nodes, frames := frames }.place frame.number

def take (assembly : Assembly) (event : Event) : Except Failure Assembly :=
  match event.kind with
  | .alias name =>
      match assembly.anchors.lookup name with
      | some number => .ok (assembly.place number)
      | none => .error (.found none (.undefinedAlias name) event.mark)
  | .scalar properties text isOpen => do
      assembly.checkAnchor properties.anchor event.mark
      let default := if isOpen then Resolution.tagOf text else Tag.text
      let node : Node := ⟨chosenTag properties default, .scalar text, event.mark⟩
      let (assembly, number) := assembly.add node properties.anchor
      .ok (assembly.place number)
  | .sequenceStart properties =>
      assembly.enter properties Tag.sequence (.sequence []) event.mark
  | .mappingStart properties => assembly.enter properties Tag.mapping (.mapping []) event.mark
  | .sequenceEnd | .mappingEnd => .ok assembly.close
  | _ => .ok assembly

end Assembly

/-- The nodes of the document at the head of some events, and the events after it. `failure` is
why the events end. -/
def NodeGraph.ofEvents (failure : Option Failure) : Assembly → List Event →
    Except Failure (NodeGraph × List Event)
  | _, [] => .error (failure.getD (.found none .endOfStream ⟨0, 0, 0⟩))
  | assembly, event :: rest =>
      if event.kind = .documentEnd then .ok (⟨assembly.nodes, assembly.root.getD 0⟩, rest)
      else
        match assembly.take event with
        | .ok assembly => NodeGraph.ofEvents failure assembly rest
        | .error failure => .error failure

end SecretFill.Yaml
