import SecretFill.Proofs.Data.Route
import SecretFill.Proofs.Decimal.Digits
import SecretFill.Proofs.Text.Pieces
/-!
Paths as addresses. A path tells the turns of a route one after the other: the entry of a mapping or
the item of a list that it takes. Where keys are texts without a point or an opening bracket, the
turns can be read off the path again, and from them the route. One thing is lost: below the root of
an only document, whose path is `$`, an entry with the key `$` has the path of the root itself.
-/

namespace SecretFill.Data

open Relation
open SecretFill.Decimal SecretFill.Text

/-- What a route takes in a container. -/
inductive Turn
  | entry (label : Text)
  | item (index : Nat)
  deriving DecidableEq, Repr

namespace Turn

def extend (path : Text) : Turn → Text
  | .entry label => Path.entry path label
  | .item index => Path.item path index

def written : Turn → List Code
  | .entry label => Code.char '.' :: label.toList
  | .item index => Code.char '[' :: digitsText index ++ [Code.char ']']

end Turn

def isPlain (character : Code) : Bool := character != '.' && character != '['

def Turn.Clear : Turn → Prop
  | .entry label => ∀ character ∈ label.toList, isPlain character = true
  | .item _ => True

def Cell.turns (cells : Array Cell) : Cell → List (Value × Turn)
  | .list items => items.mapIdx fun place item => (item, .item place)
  | .mapping entries => entries.map fun (key, value) => (value, .entry (keyLabel cells key))
  | _ => []

def turnsOf (cells : Array Cell) : Value → List Nat → List Turn
  | _, [] => []
  | value, place :: route =>
      match (value.cell? cells).bind fun cell => (cell.turns cells)[place]? with
      | some (part, turn) => turn :: turnsOf cells part route
      | none => []

/-- A key that is a text without a point or an opening bracket. -/
def plainKey : Value → Bool
  | .atom (.text text) => text.toList.all isPlain
  | _ => false

structure Legible (cells : Array Cell) (value : Value) : Prop where
  plain : ∀ index cell, Reaches cells value (.cell index) → cells[index]? = some cell →
    ∀ key ∈ cell.keys, plainKey key = true
  distinct : ∀ index cell, Reaches cells value (.cell index) → cells[index]? = some cell →
    cell.keys.Nodup

variable {cells : Array Cell} {value goal goal' part : Value} {path shown shown' : Text}
  {route route' : List Nat} {turns turns' : List Turn} {turn turn' : Turn}

theorem plainKey_iff {key : Value} : plainKey key = true ↔ ∃ text, key = .atom (.text text) ∧
    ∀ character ∈ text.toList, isPlain character = true := by
  unfold plainKey
  split
  · simp
  · next other =>
      refine ⟨fun absurdly => absurd absurdly Bool.false_ne_true, ?_⟩
      rintro ⟨text, rfl, -⟩
      exact absurd rfl (other text)

/-! ### Turns of a route -/

theorem turn_of_step {cell : Cell} {place : Nat} {deeper : Text}
    (step : (cell.steps cells path)[place]? = some (part, some deeper)) :
    ∃ turn, (cell.turns cells)[place]? = some (part, turn) ∧ deeper = turn.extend path := by
  cases cell with
  | list items =>
      simp only [Cell.steps, List.getElem?_mapIdx, Option.map_eq_some_iff] at step
      obtain ⟨item, found, same⟩ := step
      cases same
      exact ⟨.item place, by simp [Cell.turns, found], rfl⟩
  | mapping entries =>
      simp only [Cell.steps, List.getElem?_map, Option.map_eq_some_iff] at step
      obtain ⟨⟨key, value⟩, found, same⟩ := step
      split at same
      · cases same
        exact ⟨.entry (keyLabel cells key), by simp [Cell.turns, found], rfl⟩
      · cases same
  | _ => cases step

theorem turn_cases {cell : Cell} {place : Nat}
    (taken : (cell.turns cells)[place]? = some (part, turn)) :
    turn = .item place ∨
      ∃ key, cell.keys[place]? = some key ∧ turn = .entry (keyLabel cells key) := by
  cases cell with
  | list items =>
      simp only [Cell.turns, List.getElem?_mapIdx, Option.map_eq_some_iff] at taken
      obtain ⟨item, -, same⟩ := taken
      cases same
      exact .inl rfl
  | mapping entries =>
      simp only [Cell.turns, List.getElem?_map, Option.map_eq_some_iff] at taken
      obtain ⟨⟨key, value⟩, held, same⟩ := taken
      cases same
      exact .inr ⟨key, by simp [Cell.keys, held], rfl⟩
  | _ => cases taken

theorem turn_of_follow {place : Nat}
    (followed : follow cells value path (place :: route) = some (goal, shown)) :
    ∃ index cell part turn, value = .cell index ∧ cells[index]? = some cell ∧
      (cell.turns cells)[place]? = some (part, turn) ∧ Inside cells value part ∧
      turnsOf cells value (place :: route) = turn :: turnsOf cells part route ∧
      follow cells part (turn.extend path) route = some (goal, shown) := by
  obtain ⟨index, cell, part, deeper, rfl, found, step, onward⟩ := follow_cons_eq_some followed
  obtain ⟨turn, taken, rfl⟩ := turn_of_step step
  have inside : Inside cells (.cell index) part :=
    ⟨cell, found, part_of_step (List.mem_of_getElem? step)⟩
  refine ⟨index, cell, part, turn, rfl, found, taken, inside, ?_, onward⟩
  simp only [turnsOf, Value.cell?, found, Option.bind_some, taken]

theorem path_of_follow (followed : follow cells value path route = some (goal, shown)) :
    shown = (turnsOf cells value route).foldl Turn.extend path := by
  induction route generalizing value path with
  | nil =>
      cases followed
      rfl
  | cons place route ih =>
      obtain ⟨index, cell, part, turn, -, -, -, -, turns, onward⟩ := turn_of_follow followed
      rw [turns, List.foldl_cons]
      exact ih onward

theorem legible_of_cells (plain : ∀ cell ∈ cells, ∀ key ∈ cell.keys, plainKey key = true)
    (distinct : ∀ cell ∈ cells, cell.keys.Nodup) (value : Value) : Legible cells value where
  plain _ cell _ found := plain cell (Array.mem_of_getElem? found)
  distinct _ cell _ found := distinct cell (Array.mem_of_getElem? found)

theorem Legible.inside (legible : Legible cells value) (inside : Inside cells value part) :
    Legible cells part where
  plain index cell reaches := legible.plain index cell (.head inside reaches)
  distinct index cell reaches := legible.distinct index cell (.head inside reaches)

theorem Legible.named (legible : Legible cells value) : Named cells value := by
  intro inner cell reaches found key member
  cases inner with
  | atom atom => cases found
  | cell index =>
      obtain ⟨text, rfl, -⟩ := plainKey_iff.mp (legible.plain index cell reaches found key member)
      rfl

theorem clear_turnsOf (legible : Legible cells value)
    (followed : follow cells value path route = some (goal, shown)) :
    ∀ turn ∈ turnsOf cells value route, turn.Clear := by
  induction route generalizing value path with
  | nil => exact List.forall_mem_nil _
  | cons place route ih =>
      obtain ⟨index, cell, part, turn, rfl, found, taken, inside, turns, onward⟩ :=
        turn_of_follow followed
      rw [turns]
      refine List.forall_mem_cons.mpr ⟨?_, ih (legible.inside inside) onward⟩
      rcases turn_cases taken with rfl | ⟨key, held, rfl⟩
      · trivial
      · obtain ⟨text, rfl, plain⟩ := plainKey_iff.mp
          (legible.plain index cell .refl found key (List.mem_of_getElem? held))
        exact plain

theorem place_of_turn {index place place' : Nat} {cell : Cell} {part' : Value}
    (legible : Legible cells (.cell index)) (found : cells[index]? = some cell)
    (taken : (cell.turns cells)[place]? = some (part, turn))
    (taken' : (cell.turns cells)[place']? = some (part', turn)) : place = place' := by
  have plain := legible.plain index cell .refl found
  rcases turn_cases taken with rfl | ⟨key, held, rfl⟩
  · rcases turn_cases taken' with same | ⟨key', -, other⟩
    · cases same
      rfl
    · cases other
  · rcases turn_cases taken' with other | ⟨key', held', same⟩
    · cases other
    · obtain ⟨text, rfl, -⟩ := plainKey_iff.mp (plain key (List.mem_of_getElem? held))
      obtain ⟨text', rfl, -⟩ := plainKey_iff.mp (plain key' (List.mem_of_getElem? held'))
      -- The label of a text is the text, so one label is one key, which stands in one place.
      cases same
      have inside := (List.getElem?_eq_some_iff.mp held).1
      exact (List.getElem?_inj inside (legible.distinct index cell .refl found)).mp
        (held.trans held'.symm)

/-- The turns of a route tell the route. -/
theorem route_of_turns (legible : Legible cells value)
    (followed : follow cells value path route = some (goal, shown))
    (followed' : follow cells value path route' = some (goal', shown'))
    (same : turnsOf cells value route = turnsOf cells value route') : route = route' := by
  induction route generalizing value path route' with
  | nil =>
      cases route' with
      | nil => rfl
      | cons place' route' =>
          obtain ⟨_, _, _, _, -, -, -, -, turns, -⟩ := turn_of_follow followed'
          rw [turns] at same
          cases same
  | cons place route ih =>
      obtain ⟨index, cell, part, turn, rfl, found, taken, inside, turns, onward⟩ :=
        turn_of_follow followed
      rw [turns] at same
      cases route' with
      | nil => cases same
      | cons place' route' =>
          obtain ⟨_, _, part', turn', ⟨⟩, found', taken', -, turns', onward'⟩ :=
            turn_of_follow followed'
          cases found.symm.trans found'
          rw [turns'] at same
          obtain ⟨rfl, rest⟩ := List.cons.inj same
          -- A legible container has one place for each turn.
          obtain rfl := place_of_turn legible found taken taken'
          cases taken.symm.trans taken'
          rw [ih (legible.inside inside) onward onward' rest]

/-! ### Turns of a path -/

theorem head?_written (turns : List Turn) :
    ∀ next ∈ (turns.flatMap Turn.written).head?, isPlain next = false := by
  cases turns with
  | nil => simp
  | cons turn rest => cases turn <;> simp [Turn.written, isPlain]

theorem plain_digits (number : Nat) :
    ∀ character ∈ digitsText number, isPlain character = true ∧ character ≠ ']' := by
  intro character member
  obtain ⟨shown, inside, rfl⟩ := List.mem_map.mp member
  obtain ⟨digit, small, rfl⟩ := mem_toDigits (by decide) (by decide) inside
  clear member inside
  revert digit
  decide

theorem toDigits_inj {number number' : Nat}
    (same : digitsText number = digitsText number') : number = number' := by
  have read : ofDigits 10 (digitsText number) = number :=
    ofDigits_toDigits (by decide) (by decide) number
  rw [same, digitsText, ofDigits_toDigits (by decide) (by decide)] at read
  exact read.symm

theorem written_append_inj (clear : turn.Clear) (clear' : turn'.Clear)
    (same : turn.written ++ turns.flatMap Turn.written =
      turn'.written ++ turns'.flatMap Turn.written) :
    turn = turn' ∧ turns.flatMap Turn.written = turns'.flatMap Turn.written := by
  -- A label ends where a dot or a bracket begins the next turn, and an index at its own bracket.
  cases turn with
  | entry label =>
      cases turn' with
      | entry label' =>
          obtain ⟨labels, rest⟩ := boundary_unique clear clear' (head?_written turns)
            (head?_written turns') (List.cons.inj same).2
          exact ⟨congrArg Turn.entry (Text.toList_inj.mp labels), rest⟩
      | item index' => cases same
  | item index =>
      cases turn' with
      | entry label' => cases same
      | item index' =>
          have inside (index : Nat) : ∀ character ∈ digitsText index,
              (character != ']') = true :=
            fun character member => bne_iff_ne.mpr (plain_digits index character member).2
          have closed (turns : List Turn) :
              ∀ next ∈ ([Code.char ']'] ++ turns.flatMap Turn.written).head?, (next != ']') = false := by
            simp
          simp only [Turn.written, List.cons_append, List.append_assoc] at same
          obtain ⟨digits, rest⟩ := boundary_unique (inside index) (inside index') (closed turns)
            (closed turns') (List.cons.inj same).2
          exact ⟨congrArg Turn.item (toDigits_inj digits), List.append_cancel_left rest⟩

theorem written_inj (clear : ∀ turn ∈ turns, turn.Clear) (clear' : ∀ turn ∈ turns', turn.Clear)
    (same : turns.flatMap Turn.written = turns'.flatMap Turn.written) : turns = turns' := by
  induction turns generalizing turns' with
  | nil =>
      cases turns' with
      | nil => rfl
      | cons turn' turns' => cases turn' <;> cases same
  | cons turn turns ih =>
      cases turns' with
      | nil => cases turn <;> cases same
      | cons turn' turns' =>
          obtain ⟨here, later⟩ := List.forall_mem_cons.mp clear
          obtain ⟨here', later'⟩ := List.forall_mem_cons.mp clear'
          obtain ⟨rfl, rest⟩ := written_append_inj here here' same
          rw [ih later later' rest]

theorem toList_item (path : Text) (index : Nat) :
    (Path.item path index).toList = path.toList ++ (Turn.item index).written := by
  simp [Path.item, Turn.written]

theorem toList_extend (below : path ≠ Path.root) (turn : Turn) :
    (turn.extend path).toList = path.toList ++ turn.written ∧ turn.extend path ≠ Path.root := by
  have spelled : (turn.extend path).toList = path.toList ++ turn.written := by
    cases turn with
    | entry label => simp [Turn.extend, Path.entry, below, Turn.written]
    | item index => exact toList_item path index
  refine ⟨spelled, fun root => ?_⟩
  -- The dollar sign alone has neither a point nor a bracket.
  have plain : ∀ character ∈ Path.root.toList, isPlain character = true := by decide
  rw [← root, spelled] at plain
  cases turn with
  | entry label => exact absurd (plain '.' (by simp [Turn.written])) (by decide)
  | item index => exact absurd (plain '[' (by simp [Turn.written])) (by decide)

theorem toList_foldl (below : path ≠ Path.root) (turns : List Turn) :
    (turns.foldl Turn.extend path).toList = path.toList ++ turns.flatMap Turn.written := by
  induction turns generalizing path with
  | nil => simp
  | cons turn turns ih =>
      obtain ⟨spelled, deeper⟩ := toList_extend below turn
      rw [List.foldl_cons, ih deeper, spelled, List.flatMap_cons, List.append_assoc]

/-! ### The first turn -/

/-- The turn that leaves the path `$` as it is. -/
def Turn.idle : Turn := .entry Path.root

/-- What a path below the root of an only document begins with, and the turns that are written then.
-/
def heading : List Turn → Text × List Turn
  | .entry label :: turns => (label, turns)
  | turns => (Path.root, turns)

theorem toList_foldl_root (turns : List Turn) : (turns.foldl Turn.extend Path.root).toList =
    let (head, rest) := heading (turns.dropWhile fun turn => turn = .idle)
    head.toList ++ rest.flatMap Turn.written := by
  induction turns with
  | nil => simp [heading]
  | cons turn turns ih =>
      -- An idle turn leaves the path at the root, as if nothing had been taken yet.
      by_cases idle : turn = .idle
      · rw [List.dropWhile_cons_of_pos (by simp [idle]), ← ih, idle]
        simp [Turn.idle, Turn.extend, Path.entry]
      · rw [List.dropWhile_cons_of_neg (by simp [idle]), List.foldl_cons]
        cases turn with
        | entry label =>
            have below : label ≠ Path.root := fun same => idle (congrArg Turn.entry same)
            simp only [Turn.extend, Path.entry, if_true, heading]
            exact toList_foldl below turns
        | item index =>
            have below : Path.item Path.root index ≠ Path.root := by
              intro same
              have sizes := congrArg List.length (congrArg Text.toList same)
              simp [toList_item, Turn.written] at sizes
            simp only [Turn.extend, heading, List.flatMap_cons]
            rw [toList_foldl below, toList_item, List.append_assoc]

theorem heading_clear (clear : ∀ turn ∈ turns, turn.Clear) :
    (∀ character ∈ (heading turns).1.toList, isPlain character = true) ∧
      ∀ turn ∈ (heading turns).2, turn.Clear := by
  unfold heading
  split
  · exact List.forall_mem_cons.mp clear
  · refine ⟨?_, clear⟩
    show ∀ character ∈ Path.root.toList, isPlain character = true
    decide

theorem heading_inj (leads : turns.head? ≠ some .idle) (leads' : turns'.head? ≠ some .idle)
    (same : heading turns = heading turns') : turns = turns' := by
  unfold heading at same
  split at same
  · split at same
    · obtain ⟨rfl, rfl⟩ := Prod.mk.inj same
      rfl
    · obtain ⟨rfl, -⟩ := Prod.mk.inj same
      exact absurd rfl leads
  · split at same
    · obtain ⟨rfl, -⟩ := Prod.mk.inj same
      exact absurd rfl leads'
    · exact (Prod.mk.inj same).2

theorem head?_dropIdle (turns : List Turn) :
    (turns.dropWhile fun turn => turn = .idle).head? ≠ some .idle := by
  intro head
  have stop := List.head?_dropWhile_not (fun turn : Turn => decide (turn = .idle)) turns
  rw [head] at stop
  simp at stop

/-- In an only document paths are alike if the turns are, those apart that leave `$` as it is. -/
theorem foldl_root_inj_iff (clear : ∀ turn ∈ turns, turn.Clear)
    (clear' : ∀ turn ∈ turns', turn.Clear) :
    turns.foldl Turn.extend Path.root = turns'.foldl Turn.extend Path.root ↔
      (turns.dropWhile fun turn => turn = .idle) = turns'.dropWhile fun turn => turn = .idle := by
  rw [← Text.toList_inj, toList_foldl_root, toList_foldl_root]
  refine ⟨fun same => ?_, fun same => by rw [same]⟩
  obtain ⟨plain, rest⟩ := heading_clear fun turn member =>
    clear turn ((List.dropWhile_sublist _).subset member)
  obtain ⟨plain', rest'⟩ := heading_clear fun turn member =>
    clear' turn ((List.dropWhile_sublist _).subset member)
  obtain ⟨heads, written⟩ := boundary_unique plain plain' (head?_written _) (head?_written _) same
  exact heading_inj (head?_dropIdle turns) (head?_dropIdle turns')
    (Prod.ext (Text.toList_inj.mp heads) (written_inj rest rest' written))

/-- In one of several documents the path tells the number of the document and all turns. -/
theorem foldl_numbered_inj_iff {count number number' : Nat} (several : count ≠ 1)
    (clear : ∀ turn ∈ turns, turn.Clear) (clear' : ∀ turn ∈ turns', turn.Clear) :
    turns.foldl Turn.extend (Path.ofRoot number count) =
        turns'.foldl Turn.extend (Path.ofRoot number' count) ↔
      number = number' ∧ turns = turns' := by
  have spelled (number : Nat) :
      (Path.ofRoot number count).toList = Code.char '$' :: digitsText number := by
    simp [Path.ofRoot, several, Path.root]
  have below (number : Nat) : Path.ofRoot number count ≠ Path.root := by
    intro same
    have digits : digitsText number = [] := by
      simpa [Path.root, spelled] using congrArg Text.toList same
    exact Nat.toDigits_ne_nil (List.map_eq_nil_iff.mp digits)
  have plain (number : Nat) :
      ∀ character ∈ Code.char '$' :: digitsText number, isPlain character = true :=
    List.forall_mem_cons.mpr ⟨by decide, fun character member =>
      (plain_digits number character member).1⟩
  refine ⟨fun same => ?_, fun ⟨same, same'⟩ => by rw [same, same']⟩
  rw [← Text.toList_inj, toList_foldl (below number), toList_foldl (below number'), spelled,
    spelled] at same
  -- The number of the document ends where the first turn begins.
  obtain ⟨digits, written⟩ := boundary_unique (plain number) (plain number') (head?_written turns)
    (head?_written turns') same
  exact ⟨toDigits_inj (List.cons.inj digits).2, written_inj clear clear' written⟩

end SecretFill.Data
