import SecretFill.Proofs.Outcome
import SecretFill.Yaml.Node
/-!
Assembling nodes from events. A node is finished once it is not that of an open collection. Whatever
event an assembly takes, finished nodes stay as they are and anchors keep their nodes; so what has
been made of a document is still there at its end.
-/

namespace SecretFill.Yaml.Assembly

variable {assembly middle after : Assembly} {number : Nat}

def openNumbers (assembly : Assembly) : List Nat := assembly.frames.map Frame.number

def finished (assembly : Assembly) (number : Nat) : Option Node :=
  if number ∈ assembly.openNumbers then none else assembly.nodes[number]?

structure Sound (assembly : Assembly) : Prop where
  within : ∀ number ∈ assembly.openNumbers, number < assembly.nodes.size
  distinct : assembly.openNumbers.Nodup

/-- Finished nodes and anchors stay, and of an open node all but its content does. -/
structure Keeps (before after : Assembly) : Prop where
  nodes : ∀ (number : Nat) (node : Node), before.finished number = some node →
    after.finished number = some node
  shells : ∀ (number : Nat) (node : Node), before.nodes[number]? = some node →
    ∃ content, after.nodes[number]? = some { node with content := content }
  anchors : ∀ (name : Text) (number : Nat), before.anchors.lookup name = some number →
    after.anchors.lookup name = some number

theorem Keeps.refl (assembly : Assembly) : Keeps assembly assembly := by
  constructor
  · exact fun _ _ found => found
  · exact fun _ node found => ⟨node.content, found⟩
  · exact fun _ _ found => found

theorem Keeps.trans (early : Keeps assembly middle) (late : Keeps middle after) :
    Keeps assembly after := by
  constructor
  · intro number node found
    exact late.nodes number node (early.nodes number node found)
  · intro number node found
    obtain ⟨content, there⟩ := early.shells number node found
    obtain ⟨other, again⟩ := late.shells number _ there
    exact ⟨other, again⟩
  · intro name number found
    exact late.anchors name number (early.anchors name number found)

theorem sound_empty : Assembly.empty.Sound :=
  ⟨fun _ member => absurd member List.not_mem_nil, List.nodup_nil⟩

theorem finished_cases {node : Node} (found : assembly.finished number = some node) :
    number ∉ assembly.openNumbers ∧ assembly.nodes[number]? = some node := by
  rw [finished] at found
  split at found
  · cases found
  · next outside => exact ⟨outside, found⟩

/-! ### Placing -/

@[simp]
theorem place_nodes : (assembly.place number).nodes = assembly.nodes := by
  unfold place
  split <;> rfl

@[simp]
theorem place_anchors : (assembly.place number).anchors = assembly.anchors := by
  unfold place
  split <;> rfl

@[simp]
theorem place_openNumbers : (assembly.place number).openNumbers = assembly.openNumbers := by
  obtain ⟨nodes, anchors, frames, root⟩ := assembly
  cases frames <;> rfl

theorem place_finished : (assembly.place number).finished = assembly.finished := by
  funext other
  rw [finished, finished, place_openNumbers, place_nodes]

theorem place_sound (sound : assembly.Sound) : (assembly.place number).Sound := by
  constructor
  · rw [place_openNumbers, place_nodes]
    exact sound.within
  · rw [place_openNumbers]
    exact sound.distinct

theorem place_keeps : Keeps assembly (assembly.place number) := by
  constructor
  · rw [place_finished]
    exact fun _ _ found => found
  · rw [place_nodes]
    exact fun _ node found => ⟨node.content, found⟩
  · rw [place_anchors]
    exact fun _ _ found => found

/-! ### Adding -/

variable {node : Node} {anchor : Option Text} {mark : Mark}

theorem checkAnchor_ok (checked : assembly.checkAnchor anchor mark = .ok ()) (name : Text)
    (named : anchor = some name) : assembly.anchors.lookup name = none := by
  subst named
  rw [checkAnchor] at checked
  split at checked
  · assumption
  · cases checked

theorem push_getElem? {nodes : Array Node} {other : Node} (found : nodes[number]? = some other) :
    (nodes.push node)[number]? = some other := by
  grind

theorem add_lookup (fresh : ∀ name, anchor = some name → assembly.anchors.lookup name = none)
    {name : Text} (found : assembly.anchors.lookup name = some number) :
    (assembly.add node anchor).1.anchors.lookup name = some number := by
  cases anchor with
  | none => exact found
  | some other =>
      have different : (name == other) = false := by
        rw [beq_eq_false_iff_ne]
        rintro rfl
        rw [fresh name rfl] at found
        cases found
      show List.lookup name ((other, assembly.nodes.size) :: assembly.anchors) = some number
      rw [List.lookup_cons, different]
      exact found

theorem add_named {name : Text} :
    (assembly.add node (some name)).1.anchors.lookup name = some assembly.nodes.size := by
  show List.lookup name ((name, assembly.nodes.size) :: assembly.anchors) = _
  rw [List.lookup_cons, beq_self_eq_true]

theorem add_keeps (sound : assembly.Sound)
    (fresh : ∀ name, anchor = some name → assembly.anchors.lookup name = none) :
    (assembly.add node anchor).1.Sound ∧ Keeps assembly (assembly.add node anchor).1 := by
  have grows : (assembly.add node anchor).1.nodes = assembly.nodes.push node := rfl
  have same : (assembly.add node anchor).1.openNumbers = assembly.openNumbers := rfl
  constructor
  · constructor
    · intro number member
      rw [grows, Array.size_push]
      exact Nat.lt_succ_of_lt (sound.within number member)
    · exact sound.distinct
  · constructor
    · intro number other found
      obtain ⟨outside, there⟩ := finished_cases found
      rw [finished, same, if_neg outside, grows, push_getElem? there]
    · intro number other found
      exact ⟨other.content, push_getElem? found⟩
    · intro name number found
      exact add_lookup fresh found

/-- A node that is added is finished unless it becomes the node of an open collection. -/
theorem add_finished (sound : assembly.Sound) :
    (assembly.add node anchor).1.finished assembly.nodes.size = some node := by
  have outside : assembly.nodes.size ∉ assembly.openNumbers := fun member =>
    Nat.lt_irrefl _ (sound.within _ member)
  exact (if_neg outside).trans Array.getElem?_push_size

/-! ### Opening and closing -/

def opened (assembly : Assembly) (frame : Frame) : Assembly :=
  { assembly with frames := frame :: assembly.frames }

theorem opened_keeps (sound : assembly.Sound) {frame : Frame}
    (within : frame.number < assembly.nodes.size) (fresh : frame.number ∉ assembly.openNumbers) :
    (assembly.opened frame).Sound := by
  constructor
  · intro number member
    rcases List.mem_cons.mp member with rfl | inside
    · exact within
    · exact sound.within number inside
  · exact List.nodup_cons.mpr ⟨fresh, sound.distinct⟩

theorem enter_cases {properties : Properties} {default : Text} {content : Node.Content}
    (entered : assembly.enter properties default content mark = .ok after) :
    (∀ name, properties.anchor = some name → assembly.anchors.lookup name = none) ∧
      after = (assembly.add ⟨chosenTag properties default, content, mark⟩ properties.anchor).1.opened
        ⟨assembly.nodes.size, content.kind = .mapping, []⟩ := by
  obtain ⟨_, checked, entered⟩ := bind_eq_ok entered
  split at entered
  · cases entered
  · cases entered
    exact ⟨checkAnchor_ok checked, rfl⟩

theorem enter_keeps {properties : Properties} {default : Text} {content : Node.Content}
    (sound : assembly.Sound)
    (entered : assembly.enter properties default content mark = .ok after) :
    after.Sound ∧ Keeps assembly after := by
  obtain ⟨fresh, rfl⟩ := enter_cases entered
  obtain ⟨added, keeps⟩ :=
    @add_keeps _ ⟨chosenTag properties default, content, mark⟩ _ sound fresh
  have outside : assembly.nodes.size ∉ assembly.openNumbers := fun member =>
    Nat.lt_irrefl _ (sound.within _ member)
  constructor
  · exact opened_keeps added (by simp [add]) outside
  · constructor
    · intro number node found
      -- The node that is opened is a new one, so none that was finished is open now.
      obtain ⟨closed, there⟩ := finished_cases found
      have inside := (Array.getElem?_eq_some_iff.mp there).1
      obtain ⟨-, stays⟩ := finished_cases (keeps.nodes number node found)
      have other : number ∉ assembly.nodes.size :: assembly.openNumbers := by
        rw [List.mem_cons, not_or]
        exact ⟨Nat.ne_of_lt inside, closed⟩
      exact (if_neg other).trans stays
    · exact keeps.shells
    · exact keeps.anchors

def Frame.content (frame : Frame) : Node.Content :=
  if frame.isMapping then .mapping (pairUp frame.children.reverse)
  else .sequence frame.children.reverse

def closed (assembly : Assembly) (frame : Frame) (frames : List Frame) : Assembly :=
  { assembly with
    nodes := assembly.nodes.modify frame.number fun node => { node with content := Frame.content frame }
    frames := frames }

theorem close_cons {frame : Frame} {frames : List Frame} (open' : assembly.frames = frame :: frames) :
    assembly.close = (assembly.closed frame frames).place frame.number := by
  rw [close, open']
  rfl

theorem close_keeps (sound : assembly.Sound) : assembly.close.Sound ∧ Keeps assembly assembly.close := by
  cases open' : assembly.frames with
  | nil =>
      have same : assembly.close = assembly := by rw [close, open']
      rw [same]
      exact ⟨sound, .refl _⟩
  | cons frame frames =>
      have numbers : assembly.openNumbers = frame.number :: frames.map Frame.number := by
        rw [openNumbers, open']
        rfl
      have within := sound.within
      have distinct := sound.distinct
      rw [numbers] at within distinct
      rw [close_cons open']
      constructor
      · apply place_sound
        constructor
        · intro number member
          rw [closed, Array.size_modify]
          exact within number (List.mem_cons_of_mem _ member)
        · exact (List.nodup_cons.mp distinct).2
      · -- The frame is the only one to change, and its node is not finished yet.
        refine Keeps.trans ?_ place_keeps
        constructor
        · intro number node found
          obtain ⟨outside, there⟩ := finished_cases found
          rw [numbers, List.mem_cons, not_or] at outside
          have other : frame.number ≠ number := fun same => outside.1 same.symm
          refine (if_neg outside.2).trans ?_
          rw [closed, Array.getElem?_modify, if_neg other]
          exact there
        · intro number node found
          by_cases same : frame.number = number
          · refine ⟨Frame.content frame, ?_⟩
            rw [closed, Array.getElem?_modify, if_pos same, found]
            rfl
          · refine ⟨node.content, ?_⟩
            rw [closed, Array.getElem?_modify, if_neg same]
            exact found
        · exact fun _ _ found => found

/-! ### Events -/

theorem take_keeps {event : Event} (sound : assembly.Sound)
    (taken : assembly.take event = .ok after) : after.Sound ∧ Keeps assembly after := by
  rw [take] at taken
  split at taken
  · split at taken
    · cases taken
      exact ⟨place_sound sound, place_keeps⟩
    · cases taken
  · obtain ⟨_, checked, taken⟩ := bind_eq_ok taken
    cases taken
    obtain ⟨added, keeps⟩ := add_keeps sound (checkAnchor_ok checked)
    exact ⟨place_sound added, keeps.trans place_keeps⟩
  · exact enter_keeps sound taken
  · exact enter_keeps sound taken
  · cases taken
    exact close_keeps sound
  · cases taken
    exact close_keeps sound
  · cases taken
    exact ⟨sound, .refl _⟩

/-- An assembly takes the events of a document, one after the other. -/
inductive Takes : Assembly → List Event → Assembly → Prop
  | refl (assembly : Assembly) : Takes assembly [] assembly
  | next {first middle last : Assembly} {event : Event} {events : List Event}
      (inside : event.kind ≠ .documentEnd) (taken : first.take event = .ok middle)
      (more : Takes middle events last) : Takes first (event :: events) last

theorem Takes.trans {first middle last : Assembly} {before after : List Event}
    (one : first.Takes before middle) (two : middle.Takes after last) :
    first.Takes (before ++ after) last := by
  induction one with
  | refl assembly => exact two
  | next inside taken more ih => exact .next inside taken (ih two)

theorem Takes.keeps {events : List Event} (takes : assembly.Takes events after)
    (sound : assembly.Sound) : after.Sound ∧ Keeps assembly after := by
  induction takes with
  | refl assembly => exact ⟨sound, .refl _⟩
  | next inside taken more ih =>
      obtain ⟨sound', early⟩ := take_keeps sound taken
      obtain ⟨sound'', late⟩ := ih sound'
      exact ⟨sound'', early.trans late⟩

theorem ofEvents_takes {failure : Option Failure} {events rest : List Event} {ended : Event}
    (takes : assembly.Takes events after) (ends : ended.kind = .documentEnd) :
    NodeGraph.ofEvents failure assembly (events ++ ended :: rest) =
      .ok (⟨after.nodes, after.root.getD 0⟩, rest) := by
  induction takes with
  | refl assembly => rw [List.nil_append, NodeGraph.ofEvents, if_pos ends]
  | next inside taken more ih =>
      rw [List.cons_append, NodeGraph.ofEvents, if_neg inside, taken]
      exact ih

end SecretFill.Yaml.Assembly
