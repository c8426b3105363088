import SecretFill.Proofs.Data.Closed
import SecretFill.Proofs.Outcome
import SecretFill.Proofs.Yaml.Construction
import SecretFill.Yaml.Reading
/-!
What reading gives, whatever the text. A cell holds atoms and cells of the stream only, and no
mapping has a key twice: so it is of every cell that is made or filled, and a filled cell stays so
while more cells are made.
-/

namespace SecretFill.Data

/-- A cell among a number of cells that refers to them only. If it is a mapping, it has no key
twice. -/
structure Cell.Tidy (size : Nat) (cell : Cell) : Prop where
  within : ∀ value ∈ cell.values, value.Within size
  distinct : ∀ entries, cell = .mapping entries → DistinctKeys entries

def TidyCells (cells : Array Cell) : Prop :=
  ∀ (index : Nat) cell, cells[index]? = some cell → cell.Tidy cells.size

structure Stream.Tidy (stream : Stream) : Prop where
  roots : ∀ root ∈ stream.roots, root.Within stream.cells.size
  cells : TidyCells stream.cells

theorem Stream.Tidy.closed {stream : Stream} (tidy : stream.Tidy) : stream.Closed :=
  ⟨tidy.roots, fun index cell found => (tidy.cells index cell found).within⟩

variable {cells : Array Cell} {cell : Cell} {entries : List (Value × Value)} {key value : Value}
  {size larger : Nat}

theorem Value.Within.mono (within : value.Within size) (more : size ≤ larger) :
    value.Within larger := by
  cases value with
  | atom atom => trivial
  | cell index => exact Nat.lt_of_lt_of_le within more

theorem Cell.Tidy.mono (tidy : cell.Tidy size) (more : size ≤ larger) : cell.Tidy larger :=
  ⟨fun value member => (tidy.within value member).mono more, tidy.distinct⟩

theorem tidy_bare (bare : cell.values = []) : cell.Tidy size := by
  constructor
  · intro value member
    rw [bare] at member
    cases member
  · rintro entries rfl
    have none : entries = [] := by simpa [Cell.values] using bare
    rw [none]
    exact List.nodup_nil

theorem TidyCells.push (tidy : TidyCells cells) (here : cell.Tidy (cells.size + 1)) :
    TidyCells (cells.push cell) := by
  intro index other found
  rw [Array.getElem?_push] at found
  rw [Array.size_push]
  split at found
  · cases found
    exact here
  · exact (tidy index other found).mono (Nat.le_succ _)

theorem TidyCells.set (tidy : TidyCells cells) (here : cell.Tidy cells.size) (place : Nat) :
    TidyCells (cells.setIfInBounds place cell) := by
  intro index other found
  rw [Array.getElem?_setIfInBounds] at found
  rw [Array.size_setIfInBounds]
  split at found
  · split at found
    · cases found
      exact here
    · cases found
  · exact tidy index other found

theorem mem_items_insertKey {other : Value}
    (member : other ∈ (insertKey cells key value entries).map Prod.snd) :
    other = value ∨ other ∈ entries.map Prod.snd := by
  induction entries with
  | nil => exact .inl (by simpa [insertKey] using member)
  | cons entry rest ih =>
      rw [insertKey] at member
      split at member
      · rcases List.mem_cons.mp member with here | later
        · exact .inl here
        · exact .inr (List.mem_cons_of_mem _ later)
      · rcases List.mem_cons.mp member with here | later
        · exact .inr (List.mem_cons.mpr (.inl here))
        · exact (ih later).imp_right (List.mem_cons_of_mem _)

theorem tidy_insertKey (tidy : (Cell.mapping entries).Tidy size) (keyWithin : key.Within size)
    (valueWithin : value.Within size) :
    (Cell.mapping (insertKey cells key value entries)).Tidy size := by
  constructor
  · intro other member
    rcases List.mem_append.mp member with isKey | isItem
    · rcases mem_keys_insertKey isKey with rfl | old
      · exact keyWithin
      · exact tidy.within other (List.mem_append_left _ old)
    · rcases mem_items_insertKey isItem with rfl | old
      · exact valueWithin
      · exact tidy.within other (List.mem_append_right _ old)
  · rintro _ ⟨⟩
    exact distinctKeys_insertKey cells key value (tidy.distinct entries rfl)

end SecretFill.Data

namespace SecretFill.Yaml

open Data

namespace Builder

variable {builder middle after : Builder} {number : Nat} {numbers : List Nat} {value : Value}
  {values others : List Value} {tasks : List Task} {failure : Option Failure}

structure Tidy (builder : Builder) : Prop where
  cells : TidyCells builder.cells
  values : ∀ number value, builder.Has number value → value.Within builder.cells.size

/-- A builder that is tidy again, with some values in hand. -/
structure Tidies (before after : Builder) (values : List Value) : Prop where
  tidy : after.Tidy
  grows : before.cells.size ≤ after.cells.size
  within : ∀ value ∈ values, value.Within after.cells.size

theorem Tidies.append (early : Tidies builder middle values) (late : Tidies middle after others) :
    Tidies builder after (values ++ others) := by
  refine ⟨late.tidy, early.grows.trans late.grows, fun value member => ?_⟩
  rcases List.mem_append.mp member with before | behind
  · exact (early.within value before).mono late.grows
  · exact late.within value behind

theorem Tidy.refl (tidy : builder.Tidy) : Tidies builder builder [] :=
  ⟨tidy, Nat.le_refl _, List.forall_mem_nil _⟩

theorem Tidy.newCell (tidy : builder.Tidy) {cell : Cell} (here : cell.Tidy builder.cells.size) :
    Tidies builder (builder.newCell cell).1 [(builder.newCell cell).2] := by
  have more : builder.cells.size ≤ (builder.newCell cell).1.cells.size := by
    simp [Builder.newCell]
  refine ⟨⟨tidy.cells.push (here.mono (Nat.le_succ _)), ?_⟩, more, ?_⟩
  · exact fun number value has => (tidy.values number value has).mono more
  · refine List.forall_mem_singleton.mpr ?_
    simp [Builder.newCell, Value.Within]

theorem Tidy.setCell (tidy : builder.Tidy) {cell : Cell} (here : cell.Tidy builder.cells.size)
    (index : Nat) : Tidies builder (builder.setCell index cell) [] := by
  have same : (builder.setCell index cell).cells.size = builder.cells.size :=
    Array.size_setIfInBounds
  refine ⟨⟨tidy.cells.set here index, fun number value has => ?_⟩, same.ge, List.forall_mem_nil _⟩
  rw [same]
  exact tidy.values number value has

theorem Tidy.keep (tidy : builder.Tidy) (within : value.Within builder.cells.size) (number : Nat) :
    Tidies builder (builder.keep number value) [value] := by
  refine ⟨⟨tidy.cells, fun other found has => ?_⟩, Nat.le_refl _,
    List.forall_mem_singleton.mpr within⟩
  rw [Has, Builder.keep, Array.getElem?_setIfInBounds] at has
  split at has
  · split at has
    · cases has
      exact within
    · cases has
  · exact tidy.values other found has

/-! ### Values of nodes -/

theorem values_timestamp {text : List Code} {cell : Cell}
    (read : Scalar.timestamp text = .ok cell) : cell.values = [] := by
  unfold Scalar.timestamp at read
  split at read
  · cases read
  · split at read
    · obtain ⟨_, -, rfl⟩ := map_eq_ok read
      rfl
    · obtain ⟨_, -, rfl⟩ := map_eq_ok read
      rfl

theorem of_ite {α : Type} {condition : Prop} [Decidable condition] {first second result : α}
    (same : (if condition then first else second) = result) : first = result ∨ second = result := by
  by_cases holds : condition
  · exact .inl (by rwa [if_pos holds] at same)
  · exact .inr (by rwa [if_neg holds] at same)

theorem faulted_eq_ok {α : Type} {outcome : Except ScalarFault α} {result : α}
    (ended : faulted outcome = .ok result) : outcome = .ok result := by
  cases outcome with
  | error fault => cases ended
  | ok value => exact congrArg Except.ok (Except.ok.inj ended)

theorem build_cases {task : Option (Nat × Filling)}
    (built : builder.build number = .ok (after, value, task)) :
    (after = builder ∧ ∃ atom, value = .atom atom) ∨
      ∃ cell : Cell, cell.values = [] ∧ (after, value) = builder.newCell cell := by
  unfold build at built
  extract_lets source text atom single collection at built
  have ofAtom : ∀ simple, atom simple = .ok (after, value, task) →
      after = builder ∧ ∃ atom, value = .atom atom := by
    rintro simple ⟨⟩
    exact ⟨rfl, simple, rfl⟩
  have ofSingle : ∀ cell, single cell = .ok (after, value, task) →
      (after, value) = builder.newCell cell := by
    rintro cell ⟨⟩
    rfl
  have ofCollection : ∀ cell filling, collection cell filling = .ok (after, value, task) →
      (after, value) = builder.newCell cell := by
    rintro cell filling ⟨⟩
    rfl
  -- One case for each tag, in the order in which the tags are tried.
  rcases of_ite built with null | built
  · obtain ⟨_, -, ended⟩ := bind_eq_ok null
    exact .inl (ofAtom _ ended)
  rcases of_ite built with bool | built
  · obtain ⟨_, -, bool⟩ := bind_eq_ok bool
    obtain ⟨_, -, ended⟩ := bind_eq_ok bool
    exact .inl (ofAtom _ ended)
  rcases of_ite built with int | built
  · obtain ⟨_, -, int⟩ := bind_eq_ok int
    obtain ⟨_, -, ended⟩ := bind_eq_ok int
    exact .inl (ofAtom _ ended)
  rcases of_ite built with real | built
  · obtain ⟨_, -, real⟩ := bind_eq_ok real
    obtain ⟨read, -, ended⟩ := bind_eq_ok real
    cases read with
    | some number => exact .inl (ofAtom _ ended)
    | none => exact .inr ⟨_, rfl, ofSingle _ ended⟩
  rcases of_ite built with binary | built
  · obtain ⟨chars, -, ended⟩ := bind_eq_ok binary
    cases bytes : Scalar.bytes chars with
    | ok bytes =>
        rw [bytes] at ended
        exact .inl (ofAtom _ ended)
    | error problem =>
        rw [bytes] at ended
        cases ended
  rcases of_ite built with timestamp | built
  · obtain ⟨chars, -, ended⟩ := bind_eq_ok timestamp
    cases content : source.content with
    | scalar _ =>
        rw [content] at ended
        obtain ⟨cell, read, ended⟩ := bind_eq_ok ended
        exact .inr ⟨cell, values_timestamp (faulted_eq_ok read), ofSingle _ ended⟩
    | sequence _ =>
        rw [content] at ended
        cases ended
    | mapping _ =>
        rw [content] at ended
        cases ended
  rcases of_ite built with text | built
  · obtain ⟨_, -, ended⟩ := bind_eq_ok text
    exact .inl (ofAtom _ ended)
  rcases of_ite built with sequence | built
  · exact .inr ⟨_, rfl, ofCollection _ _ sequence⟩
  rcases of_ite built with mapping | built
  · exact .inr ⟨_, rfl, ofCollection _ _ mapping⟩
  rcases of_ite built with set | built
  · exact .inr ⟨_, rfl, ofCollection _ _ set⟩
  rcases of_ite built with orderedMap | built
  · exact .inr ⟨_, rfl, ofCollection _ _ orderedMap⟩
  rcases of_ite built with pairs | unknown
  · exact .inr ⟨_, rfl, ofCollection _ _ pairs⟩
  · cases unknown

theorem Tidy.valueOf (tidy : builder.Tidy)
    (done : builder.valueOf number = .ok (after, value, tasks)) :
    Tidies builder after [value] := by
  unfold Builder.valueOf at done
  split at done
  · next known =>
      cases done
      exact ⟨tidy, Nat.le_refl _, List.forall_mem_singleton.mpr (tidy.values number value known)⟩
  · obtain ⟨⟨middle, made, task⟩, built, done⟩ := bind_eq_ok done
    cases done
    have here : Tidies builder middle [value] := by
      rcases build_cases built with ⟨rfl, atom, rfl⟩ | ⟨cell, bare, same⟩
      · exact ⟨tidy, Nat.le_refl _, List.forall_mem_singleton.mpr trivial⟩
      · obtain ⟨rfl, rfl⟩ := Prod.mk.inj same
        exact tidy.newCell (tidy_bare bare)
    have kept := here.tidy.keep (here.within _ List.mem_cons_self) number
    exact ⟨kept.tidy, here.grows.trans kept.grows, kept.within⟩

/-! ### Filling -/

theorem Tidy.valuesOf (tidy : builder.Tidy)
    (done : builder.valuesOf numbers = .ok (after, values, tasks)) :
    Tidies builder after values := by
  induction numbers generalizing builder values tasks with
  | nil =>
      cases done
      exact tidy.refl
  | cons number rest ih =>
      obtain ⟨⟨middle, value, _⟩, first, done⟩ := bind_eq_ok done
      obtain ⟨⟨_, others, _⟩, second, done⟩ := bind_eq_ok done
      cases done
      have here := tidy.valueOf first
      exact here.append (ih here.tidy second)

theorem Tidy.entryValues {start : Mark} {pairs : List (Nat × Nat)}
    {entries entries' : List (Value × Value)} (tidy : builder.Tidy)
    (before : (Cell.mapping entries).Tidy builder.cells.size)
    (done : entryValues start builder entries pairs = .ok (after, entries', tasks)) :
    Tidies builder after [] ∧ (Cell.mapping entries').Tidy after.cells.size := by
  induction pairs generalizing builder entries tasks with
  | nil =>
      cases done
      exact ⟨tidy.refl, before⟩
  | cons pair rest ih =>
      obtain ⟨⟨withKey, key, _⟩, first, done⟩ := bind_eq_ok done
      dsimp only at done
      rcases of_ite done with refused | done
      · cases refused
      obtain ⟨⟨withValue, value, _⟩, second, done⟩ := bind_eq_ok done
      obtain ⟨⟨_, _, _⟩, more, done⟩ := bind_eq_ok done
      cases done
      have one := tidy.valueOf first
      have two := one.tidy.valueOf second
      have keyWithin := (one.within key List.mem_cons_self).mono two.grows
      have valueWithin := two.within value List.mem_cons_self
      -- Cells are only added, so what was in range before stays in range.
      obtain ⟨later, filled⟩ := ih two.tidy
        (tidy_insertKey (before.mono (one.grows.trans two.grows)) keyWithin valueWithin) more
      exact ⟨⟨later.tidy, (one.grows.trans two.grows).trans later.grows, List.forall_mem_nil _⟩,
        filled⟩

structure KeepsData (before after : Builder) : Prop where
  cells : after.cells = before.cells
  values : after.values = before.values

theorem KeepsData.trans (early : KeepsData builder middle) (late : KeepsData middle after) :
    KeepsData builder after :=
  ⟨late.cells.trans early.cells, late.values.trans early.values⟩

theorem flattenEach_keeps {flatten : Builder → Nat → Except Failure Builder}
    (each : ∀ builder number after, flatten builder number = .ok after → KeepsData builder after)
    {start : Mark} {groups : List (List (Nat × Nat))}
    (done : flattenEach flatten start builder numbers = .ok (after, groups)) :
    KeepsData builder after := by
  induction numbers generalizing builder groups with
  | nil =>
      cases done
      exact ⟨rfl, rfl⟩
  | cons number rest ih =>
      simp only [flattenEach] at done
      split at done
      · obtain ⟨middle, first, done⟩ := bind_eq_ok done
        obtain ⟨⟨_, _⟩, second, done⟩ := bind_eq_ok done
        cases done
        exact (each _ _ _ first).trans (ih second)
      · cases done

theorem flatten_keeps {fuel : Nat} {merged : List (Nat × Nat)}
    (done : flatten fuel merged builder number = .ok after) : KeepsData builder after := by
  -- On the bound, since the nodes that are merged into a mapping are flattened first.
  induction fuel generalizing merged builder number after with
  | zero =>
      cases done
      exact ⟨rfl, rfl⟩
  | succ fuel ih =>
      simp only [flatten] at done
      split at done
      · split at done
        · cases done
          exact ⟨rfl, rfl⟩
        · cases done
          exact ⟨rfl, rfl⟩
      · split at done
        · obtain ⟨middle, first, done⟩ := bind_eq_ok done
          have early := ih first
          have late := ih done
          exact ⟨late.cells.trans early.cells, late.values.trans early.values⟩
        · obtain ⟨⟨middle, groups⟩, first, done⟩ := bind_eq_ok done
          have early := flattenEach_keeps (fun _ _ _ done => ih done) first
          have late := ih done
          exact ⟨late.cells.trans early.cells, late.values.trans early.values⟩
        · cases done

theorem KeepsData.tidies (kept : KeepsData builder after) (tidy : builder.Tidy) :
    Tidies builder after [] := by
  refine ⟨⟨?_, fun number value has => ?_⟩, ?_, List.forall_mem_nil _⟩
  · rw [kept.cells]
    exact tidy.cells
  · rw [Has, kept.values] at has
    rw [kept.cells]
    exact tidy.values number value has
  · rw [kept.cells]

theorem Tidy.mappingEntries {entries : List (Value × Value)} (tidy : builder.Tidy)
    (done : builder.mappingEntries number = .ok (after, entries, tasks)) :
    Tidies builder after [] ∧ (Cell.mapping entries).Tidy after.cells.size := by
  unfold Builder.mappingEntries at done
  split at done
  · obtain ⟨middle, flat, done⟩ := bind_eq_ok done
    have here := (flatten_keeps flat).tidies tidy
    obtain ⟨later, filled⟩ := here.tidy.entryValues (tidy_bare rfl) done
    exact ⟨here.append later, filled⟩
  · cases done

theorem Tidy.pairCells {activity : Activity} {start : Mark} (tidy : builder.Tidy)
    (done : pairCells activity start builder numbers = .ok (after, values, tasks)) :
    Tidies builder after values := by
  induction numbers generalizing builder values tasks with
  | nil =>
      cases done
      exact tidy.refl
  | cons number rest ih =>
      simp only [Builder.pairCells] at done
      split at done
      · obtain ⟨⟨withKey, key, _⟩, first, done⟩ := bind_eq_ok done
        obtain ⟨⟨withValue, value, _⟩, second, done⟩ := bind_eq_ok done
        obtain ⟨⟨_, _, _⟩, more, done⟩ := bind_eq_ok done
        cases done
        have one := tidy.valueOf first
        have two := one.tidy.valueOf second
        have both := one.append two
        have pair : (Cell.tuple [key, value]).Tidy withValue.cells.size :=
          ⟨both.within, fun _ same => nomatch same⟩
        have here := both.tidy.newCell pair
        have later := here.append (ih here.tidy more)
        exact ⟨later.tidy, both.grows.trans later.grows, later.within⟩
      · cases done
      · cases done

theorem Tidy.pairList {activity : Activity} (tidy : builder.Tidy)
    (done : pairList activity builder number = .ok (after, values, tasks)) :
    Tidies builder after values := by
  unfold Builder.pairList at done
  dsimp only at done
  split at done
  · exact tidy.pairCells done
  · cases done

theorem Tidies.fill (made : Tidies builder middle values) {cell : Cell}
    (here : cell.Tidy middle.cells.size) (index : Nat) :
    (middle.setCell index cell).Tidy ∧ builder.cells.size ≤ (middle.setCell index cell).cells.size :=
  have filled := made.tidy.setCell here index
  ⟨filled.tidy, made.grows.trans filled.grows⟩

theorem Tidies.list (made : Tidies builder middle values) :
    (Cell.list values).Tidy middle.cells.size :=
  ⟨made.within, fun _ same => nomatch same⟩

theorem Tidy.fill {task : Task} (tidy : builder.Tidy)
    (done : builder.fill task = .ok (after, tasks)) :
    after.Tidy ∧ builder.cells.size ≤ after.cells.size := by
  unfold Builder.fill at done
  split at done
  · split at done
    · obtain ⟨⟨middle, values, _⟩, made, done⟩ := bind_eq_ok done
      cases done
      have made := tidy.valuesOf made
      exact made.fill made.list task.index
    · cases done
  · obtain ⟨⟨middle, entries, _⟩, made, done⟩ := bind_eq_ok done
    cases done
    obtain ⟨made, mapping⟩ := tidy.mappingEntries made
    exact made.fill mapping task.index
  · obtain ⟨⟨middle, entries, _⟩, made, done⟩ := bind_eq_ok done
    cases done
    obtain ⟨made, mapping⟩ := tidy.mappingEntries made
    have set : (Cell.set (entries.map Prod.fst)).Tidy middle.cells.size :=
      ⟨fun value member => mapping.within value (List.mem_append_left _ member),
        fun _ same => nomatch same⟩
    exact made.fill set task.index
  · obtain ⟨⟨middle, values, _⟩, made, done⟩ := bind_eq_ok done
    cases done
    have made := tidy.pairList made
    exact made.fill made.list task.index
  · obtain ⟨⟨middle, values, _⟩, made, done⟩ := bind_eq_ok done
    cases done
    have made := tidy.pairList made
    exact made.fill made.list task.index

theorem Tidy.fillAll {fuel : Nat} {tasks : List Task} (tidy : builder.Tidy)
    (done : fillAll fuel builder tasks = .ok after) :
    after.Tidy ∧ builder.cells.size ≤ after.cells.size := by
  induction fuel generalizing builder tasks with
  | zero =>
      cases tasks <;> cases done <;> exact ⟨tidy, Nat.le_refl _⟩
  | succ fuel ih =>
      cases tasks with
      | nil =>
          cases done
          exact ⟨tidy, Nat.le_refl _⟩
      | cons task rest =>
          obtain ⟨⟨middle, _⟩, first, done⟩ := bind_eq_ok done
          obtain ⟨here, grows⟩ := tidy.fill first
          obtain ⟨there, more⟩ := ih here done
          exact ⟨there, grows.trans more⟩

end Builder

/-! ### Streams -/

variable {stream result : Stream}

theorem addDocument_tidy {graph : NodeGraph} (tidy : stream.Tidy)
    (done : addDocument stream graph = .ok result) : result.Tidy := by
  obtain ⟨⟨middle, root, tasks⟩, first, done⟩ := bind_eq_ok done
  obtain ⟨builder, filled, done⟩ := bind_eq_ok done
  cases done
  have start : (Builder.ofNodes graph.nodes stream.cells).Tidy := by
    refine ⟨tidy.cells, fun number value has => ?_⟩
    rw [Builder.Has, Builder.ofNodes, Array.getElem?_replicate] at has
    split at has <;> cases has
  have made := start.valueOf first
  obtain ⟨there, more⟩ := made.tidy.fillAll filled
  refine ⟨fun other member => ?_, there.cells⟩
  rcases List.mem_append.mp member with old | new
  · exact (tidy.roots other old).mono (made.grows.trans more)
  · cases List.mem_singleton.mp new
    exact (made.within root List.mem_cons_self).mono more

theorem documentsOf_tidy {failure : Option Failure} {fuel : Nat} {events : List Event}
    (tidy : stream.Tidy) (done : documentsOf failure fuel stream events = .ok result) :
    result.Tidy := by
  induction fuel generalizing stream events with
  | zero =>
      cases done
      exact tidy
  | succ fuel ih =>
      cases events with
      | nil =>
          cases failure with
          | some failure => cases done
          | none =>
              cases done
              exact tidy
      | cons event rest =>
          rw [documentsOf] at done
          split at done
          · obtain ⟨⟨graph, behind⟩, -, done⟩ := bind_eq_ok done
            obtain ⟨middle, added, done⟩ := bind_eq_ok done
            exact ih (addDocument_tidy tidy added) done
          · cases done
            exact tidy
          · exact ih tidy done

/-- Whatever is read refers to what was read only, and no mapping of it has a key twice. -/
theorem read_tidy {text : List Code} (done : read text = .ok stream) : stream.Tidy := by
  unfold read at done
  split at done
  · cases done
  · refine documentsOf_tidy ⟨List.forall_mem_nil _, fun index cell found => ?_⟩ done
    cases found

end SecretFill.Yaml
