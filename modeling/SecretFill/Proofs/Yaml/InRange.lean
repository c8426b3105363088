import SecretFill.Proofs.Yaml.Assembly
/-!
What a node holds. The numbers that anchors, open collections and finished nodes hold are those of
nodes that are there; so the nodes of a document refer to one another only.
-/

namespace SecretFill.Yaml

def Node.Content.children : Node.Content → List Nat
  | .scalar _ => []
  | .sequence items => items
  | .mapping entries => entries.flatMap fun entry => [entry.1, entry.2]

/-- No node holds a number that is not one of these nodes. -/
def InRange (nodes : Array Node) : Prop :=
  ∀ node ∈ nodes, ∀ child ∈ node.content.children, child < nodes.size

theorem mem_children {entries : List (Nat × Nat)} {child : Nat} :
    child ∈ (Node.Content.mapping entries).children ↔
      ∃ entry ∈ entries, child = entry.1 ∨ child = entry.2 := by
  simp [Node.Content.children]

theorem mem_children_entry {entries : List (Nat × Nat)} {entry : Nat × Nat}
    (member : entry ∈ entries) :
    entry.1 ∈ (Node.Content.mapping entries).children ∧
      entry.2 ∈ (Node.Content.mapping entries).children :=
  ⟨mem_children.mpr ⟨entry, member, .inl rfl⟩, mem_children.mpr ⟨entry, member, .inr rfl⟩⟩

theorem InRange.push {nodes : Array Node} {node : Node} (inRange : InRange nodes)
    (here : ∀ child ∈ node.content.children, child < nodes.size) : InRange (nodes.push node) := by
  intro other member child held
  rw [Array.size_push]
  rcases Array.mem_push.mp member with before | rfl
  · exact Nat.lt_succ_of_lt (inRange other before child held)
  · exact Nat.lt_succ_of_lt (here child held)

theorem mem_modify {nodes : Array Node} {number : Nat} {node : Node} (change : Node → Node)
    (member : node ∈ nodes.modify number change) :
    node ∈ nodes ∨ ∃ before ∈ nodes, node = change before := by
  obtain ⟨place, found⟩ := Array.mem_iff_getElem?.mp member
  rw [Array.getElem?_modify] at found
  split at found
  · obtain ⟨before, there, rfl⟩ := Option.map_eq_some_iff.mp found
    exact .inr ⟨before, Array.mem_of_getElem? there, rfl⟩
  · exact .inl (Array.mem_of_getElem? found)

namespace Assembly

theorem mem_children_pairUp {numbers : List Nat} {child : Nat}
    (held : child ∈ (Node.Content.mapping (pairUp numbers)).children) : child ∈ numbers := by
  induction numbers using pairUp.induct with
  | case1 key value rest ih =>
      obtain ⟨entry, member, same⟩ := mem_children.mp held
      rcases List.mem_cons.mp member with rfl | later
      · rcases same with rfl | rfl <;> simp
      · have behind := ih (mem_children.mpr ⟨entry, later, same⟩)
        exact List.mem_cons_of_mem _ (List.mem_cons_of_mem _ behind)
  | case2 numbers short =>
      rw [pairUp.eq_2 _ short] at held
      cases held

structure InRange (assembly : Assembly) : Prop where
  nodes : Yaml.InRange assembly.nodes
  anchors : ∀ entry ∈ assembly.anchors, entry.2 < assembly.nodes.size
  frames : ∀ frame ∈ assembly.frames, frame.number < assembly.nodes.size
  children : ∀ frame ∈ assembly.frames, ∀ child ∈ frame.children, child < assembly.nodes.size

variable {assembly after : Assembly} {number : Nat}

theorem inRange_empty : Assembly.empty.InRange := by
  constructor
  · exact fun _ member => absurd member (Array.not_mem_empty _)
  iterate 3 exact List.forall_mem_nil _

theorem InRange.place (inRange : assembly.InRange) (within : number < assembly.nodes.size) :
    (assembly.place number).InRange := by
  obtain ⟨nodes, anchors, frames, root⟩ := assembly
  cases frames with
  | nil => exact ⟨inRange.nodes, inRange.anchors, inRange.frames, inRange.children⟩
  | cons frame frames =>
      obtain ⟨here, later⟩ := List.forall_mem_cons.mp inRange.frames
      obtain ⟨hereChildren, laterChildren⟩ := List.forall_mem_cons.mp inRange.children
      refine ⟨inRange.nodes, inRange.anchors, List.forall_mem_cons.mpr ⟨here, later⟩, ?_⟩
      exact List.forall_mem_cons.mpr ⟨List.forall_mem_cons.mpr ⟨within, hereChildren⟩, laterChildren⟩

theorem InRange.add (inRange : assembly.InRange) (node : Node) (bare : node.content.children = [])
    (anchor : Option Text) :
    (assembly.add node anchor).1.InRange ∧
      (assembly.add node anchor).1.nodes.size = assembly.nodes.size + 1 := by
  have more : (assembly.add node anchor).1.nodes.size = assembly.nodes.size + 1 :=
    Array.size_push _
  refine ⟨⟨inRange.nodes.push (by simp [bare]), fun entry member => ?_, fun frame member => ?_,
    fun frame member child held => ?_⟩, more⟩
  · rw [more]
    cases anchor with
    | none => exact Nat.lt_succ_of_lt (inRange.anchors entry member)
    | some name =>
        rcases List.mem_cons.mp member with rfl | before
        · exact Nat.lt_succ_self _
        · exact Nat.lt_succ_of_lt (inRange.anchors entry before)
  · rw [more]
    exact Nat.lt_succ_of_lt (inRange.frames frame member)
  · rw [more]
    exact Nat.lt_succ_of_lt (inRange.children frame member child held)

theorem InRange.enter (inRange : assembly.InRange) {properties : Properties} {default : Text}
    {content : Node.Content} {mark : Mark} (bare : content.children = [])
    (entered : assembly.enter properties default content mark = .ok after) : after.InRange := by
  obtain ⟨-, rfl⟩ := enter_cases entered
  have ⟨added, more⟩ :=
    inRange.add ⟨chosenTag properties default, content, mark⟩ bare properties.anchor
  refine ⟨added.nodes, added.anchors, List.forall_mem_cons.mpr ⟨?_, added.frames⟩,
    List.forall_mem_cons.mpr ⟨List.forall_mem_nil _, added.children⟩⟩
  exact Nat.lt_of_lt_of_eq (Nat.lt_succ_self _) more.symm

theorem children_content (frame : Frame) {child : Nat}
    (held : child ∈ (Frame.content frame).children) : child ∈ frame.children := by
  unfold Frame.content at held
  split at held
  · exact List.mem_reverse.mp (mem_children_pairUp held)
  · exact List.mem_reverse.mp held

theorem InRange.close (inRange : assembly.InRange) : assembly.close.InRange := by
  cases open' : assembly.frames with
  | nil =>
      rw [Assembly.close, open']
      exact inRange
  | cons frame frames =>
      rw [close_cons open']
      have inFrames := inRange.frames
      have inChildren := inRange.children
      rw [open'] at inFrames inChildren
      obtain ⟨here, later⟩ := List.forall_mem_cons.mp inFrames
      obtain ⟨hereChildren, laterChildren⟩ := List.forall_mem_cons.mp inChildren
      -- A node changes its content and none is added, so what was in range still is.
      have same : (assembly.closed frame frames).nodes.size = assembly.nodes.size :=
        Array.size_modify
      refine InRange.place ⟨fun node member child held => ?_, ?_, ?_, ?_⟩ (same.symm ▸ here)
      · rw [same]
        rcases mem_modify (fun node => { node with content := Frame.content frame }) member
          with before | ⟨_, _, rfl⟩
        · exact inRange.nodes node before child held
        · exact hereChildren child (children_content frame held)
      · rw [same]
        exact inRange.anchors
      · rw [same]
        exact later
      · rw [same]
        exact laterChildren

theorem InRange.take (inRange : assembly.InRange) {event : Event}
    (taken : assembly.take event = .ok after) : after.InRange := by
  rw [Assembly.take] at taken
  split at taken
  · next name _ =>
      split at taken
      · next number named =>
          cases taken
          obtain ⟨before, behind, split, -⟩ := List.lookup_eq_some_iff.mp named
          have member : (name, number) ∈ assembly.anchors := by simp [split]
          exact inRange.place (inRange.anchors _ member)
      · cases taken
  · next properties text isOpen _ =>
      obtain ⟨_, -, taken⟩ := bind_eq_ok taken
      cases taken
      obtain ⟨added, more⟩ := inRange.add
        ⟨chosenTag properties (if isOpen then Resolution.tagOf text else Tag.text), .scalar text,
          event.mark⟩ rfl properties.anchor
      exact added.place (Nat.lt_of_lt_of_eq (Nat.lt_succ_self _) more.symm)
  · exact inRange.enter rfl taken
  · exact inRange.enter rfl taken
  · cases taken
    exact inRange.close
  · cases taken
    exact inRange.close
  · cases taken
    exact inRange

end Assembly

/-- The nodes of a document that is read refer to one another only. The events that are left come
last among those there were. -/
theorem ofEvents_inRange {failure : Option Failure} {assembly : Assembly} {events rest : List Event}
    {graph : NodeGraph} (inRange : assembly.InRange)
    (done : NodeGraph.ofEvents failure assembly events = .ok (graph, rest)) :
    InRange graph.nodes ∧ rest <:+ events := by
  induction events generalizing assembly with
  | nil => cases done
  | cons event events ih =>
      rw [NodeGraph.ofEvents] at done
      split at done
      · cases done
        exact ⟨inRange.nodes, List.suffix_cons _ _⟩
      · split at done
        · next taken =>
            obtain ⟨held, last⟩ := ih (inRange.take taken) done
            exact ⟨held, last.trans (List.suffix_cons _ _)⟩
        · cases done

end SecretFill.Yaml
