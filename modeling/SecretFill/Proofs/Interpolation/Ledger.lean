import SecretFill.Proofs.Forest.Arrival
import SecretFill.Proofs.Forest.Trail
import SecretFill.Proofs.Interpolation.Records
import SecretFill.Proofs.Interpolation.Substitution
import SecretFill.Proofs.Sorting
/-!
The records of a substitution as a ledger. There is one posting for every text that was replaced, at
the first route to it, and none besides. Postings are ordered by key, then by form, then by the
place in the documents.
-/

namespace SecretFill

open SecretFill.Data SecretFill.Forest
open Placeholder (Form)

/-- The replacement of the text at one seat by the value of an entry, whose key was found in a form.
-/
structure Posting where
  seat : Seat
  entry : Text × Text
  form : Form

def Posting.record (posting : Posting) : Substitution := ⟨posting.seat.spot.path, posting.entry.1⟩

/-- Longer keys go first, and those of one length as they stand in the map; of one key the braces go
before the bare form, and of one form what a walk over the documents comes to first. -/
def Posting.Before (map : SubstitutionMap) (first second : Posting) : Prop :=
  second.entry.1.length < first.entry.1.length ∨
    second.entry.1.length = first.entry.1.length ∧
      map.idxOf first.entry < map.idxOf second.entry ∨
    first.entry = second.entry ∧
      (first.form = .braced ∧ second.form = .bare ∨
        first.form = second.form ∧ first.seat.Before second.seat)

/-- A posting belongs into the ledger: its seat is at the first route to a text, its entry is the
one that is chosen for the text, and its form is the one in braces if that stands in the text. -/
structure Posting.Due (map : SubstitutionMap) (stream : Stream) (posting : Posting) (root : Value)
    (text : Text) : Prop where
  document : stream.roots[posting.seat.document]? = some root
  value : posting.seat.spot.value = .atom (.text text)
  followed : follow stream.cells root (Path.ofRoot posting.seat.document stream.roots.length)
    posting.seat.spot.route = some (.atom (.text text), posting.seat.spot.path)
  arrives : Arrives stream.cells root (Path.ofRoot posting.seat.document stream.roots.length)
    posting.seat.spot.route
  chosen : map.Chooses text posting.entry
  form : posting.form = .braced ↔
    ∃ before after, text.toList = before ++ Form.braced.written posting.entry.1.toList ++ after

/-- What is recorded of a substitution, and what it has made of the texts. -/
structure Ledger (map : SubstitutionMap) (stream result : Stream) (postings : List Posting) :
    Prop where
  ordered : postings.Pairwise (Posting.Before map)
  distinct : postings.Nodup
  exact : ∀ posting, posting ∈ postings ↔ ∃ root text, posting.Due map stream root text
  once : ∀ (document : Nat) root route text shown, stream.roots[document]? = some root →
    follow stream.cells root (Path.ofRoot document stream.roots.length) route =
      some (.atom (.text text), shown) →
    ((∃ entry, map.Chooses text entry) ↔
      ∃! posting, posting ∈ postings ∧ posting.seat.document = document ∧
        SameSpot stream.cells root (Path.ofRoot document stream.roots.length)
          posting.seat.spot.route route)
  replaced : ∀ (document : Nat) root route text shown, stream.roots[document]? = some root →
    follow stream.cells root (Path.ofRoot document stream.roots.length) route =
      some (.atom (.text text), shown) →
    ∃ value there, result.roots[document]? = some value ∧
      follow result.cells value (Path.ofRoot document stream.roots.length) route =
        some (.atom (.text (map.replace text)), there)

def textIn? : Value → Option Text
  | .atom (.text text) => some text
  | _ => none

def seatsOf (map : SubstitutionMap) (seats : List Seat) (entry : Text × Text) (form : Form) :
    List Seat :=
  seats.filter fun seat => (textIn? seat.spot.value).any (picks map.longestFirst entry form)

def postingsOf (map : SubstitutionMap) (seats : List Seat) : List Posting :=
  map.longestFirst.flatMap fun entry => [Form.braced, .bare].flatMap fun form =>
    (seatsOf map seats entry form).map fun seat => ⟨seat, entry, form⟩

variable {map : SubstitutionMap} {stream : Stream} {forest later : Forest} {seats : List Seat}
  {posting other : Posting} {text : Text} {entry : Text × Text} {form : Form}

theorem textIn?_eq_some {value : Value} : textIn? value = some text ↔ value = .atom (.text text) := by
  unfold textIn?
  split
  · next found => simp
  · next absent =>
      constructor
      · intro same
        cases same
      · rintro rfl
        exact absurd rfl (absent text)

theorem picks_iff : picks map.longestFirst entry form text = true ↔
    map.Chooses text entry ∧ form = formIn entry.1 text := by
  rw [picks, Bool.and_eq_true, beq_iff_eq, beq_iff_eq, SubstitutionMap.find?_eq_some_iff]

theorem formIn_eq_braced (key : Text) : formIn key text = .braced ↔
    ∃ before after, text.toList = before ++ Form.braced.written key.toList ++ after := by
  rw [← Placeholder.occurs_braced_iff, formIn]
  split <;> simp [*]

/-! ### Records and postings -/

theorem openText?_of_mark {marks : List (Value × Text)} (number : Nat)
    (leaves : forest.leaves.toList = marks.map fun mark => ⟨mark.1, false⟩) :
    forest.openText? number = marks[number]?.bind fun mark => textIn? mark.1 := by
  have found : forest.leaves[number]? = marks[number]?.map fun mark => ⟨mark.1, false⟩ := by
    rw [← Array.getElem?_toList, leaves, List.getElem?_map]
  cases here : marks[number]? with
  | none => simp [Forest.openText?, found, here]
  | some mark =>
      obtain ⟨value, path⟩ := mark
      rw [here, Option.map_some] at found
      cases value with
      | cell index => simp [Forest.openText?, found, textIn?]
      | atom atom => cases atom <;> simp [Forest.openText?, found, textIn?]

theorem recordsOf_numbered (key : Text) (test : Text → Bool) {marks : List (Value × Text)}
    {start : Nat} (opens : ∀ place, forest.openText? (start + place) =
      marks[place]?.bind fun mark => textIn? mark.1) :
    recordsOf key (openPlaces forest (numbered start (marks.map Prod.snd)) test) =
      (marks.filter fun mark => (textIn? mark.1).any test).map fun mark => ⟨mark.2, key⟩ := by
  induction marks generalizing start with
  | nil => rfl
  | cons mark rest ih =>
      have here := opens 0
      have behind : ∀ place, forest.openText? (start + 1 + place) =
          rest[place]?.bind fun mark => textIn? mark.1 := fun place => by
        rw [Nat.add_assoc, Nat.add_comm 1, opens (place + 1), List.getElem?_cons_succ]
      have later := ih behind
      simp only [Nat.add_zero, List.getElem?_cons_zero, Option.bind_some] at here
      simp only [recordsOf, openPlaces] at later ⊢
      simp only [List.map_cons, numbered, List.filter_cons, here]
      split
      · rw [List.map_cons, List.map_cons, later]
      · exact later

/-- The passes over planted documents record the postings, as the seats are in the trail. -/
theorem applyKeys_postings {cells : Array Cell} {plots : List Plot}
    (walked : Walked cells ⟨Forest.empty, []⟩ (plots.map fun plot => (plot.node, plot.path))
      ⟨forest, []⟩ (seats.map fun seat => seat.spot.mark)) (unequal : map.Nodup) :
    (map.longestFirst.foldl (applyKey cells plots) ([], forest)).1 =
      (postingsOf map seats).map Posting.record := by
  obtain ⟨visited, along, -⟩ := walked.walk forest (forest.branches.size + 1) [] (extends_refl _)
    (Nat.le_succ _) ⟨List.forall_mem_nil _, List.forall_mem_nil _⟩
  have places : (route forest cells plots []).1 =
      numbered 0 ((seats.map fun seat => seat.spot.mark).map Prod.snd) := congrArg Prod.fst along
  have distinct : ((numbered 0 ((seats.map fun seat => seat.spot.mark).map Prod.snd)).map
      Forest.Place.leaf).Nodup := by
    rw [map_leaf_numbered]
    exact List.nodup_range'
  have opens := fun number => openText?_of_mark number walked.leaves
  have unequal' : map.longestFirst.Nodup := (List.mergeSort_perm map _).nodup_iff.mpr unequal
  rw [applyKeys_substitutions unequal' ([], forest) _ places distinct, List.nil_append]
  simp only [postingsOf, List.map_flatMap]
  refine List.flatMap_congr fun entry _ => List.flatMap_congr fun form _ => ?_
  rw [recordsOf_numbered entry.1 _ fun place => by rw [Nat.zero_add, opens], List.filter_map,
    List.map_map, List.map_map]
  rfl

theorem mem_postingsOf : posting ∈ postingsOf map seats ↔
    posting.seat ∈ seats ∧ ∃ text, posting.seat.spot.value = .atom (.text text) ∧
      map.Chooses text posting.entry ∧ posting.form = formIn posting.entry.1 text := by
  simp only [postingsOf, seatsOf, List.mem_flatMap, List.mem_map, List.mem_filter,
    Option.any_eq_true, textIn?_eq_some, picks_iff]
  constructor
  · rintro ⟨entry, -, form, -, seat, ⟨member, text, same, chosen, found⟩, rfl⟩
    exact ⟨member, text, same, chosen, found⟩
  · rintro ⟨member, text, same, chosen, found⟩
    have present : posting.entry ∈ map.longestFirst :=
      List.mem_of_find?_eq_some (SubstitutionMap.find?_eq_some_iff.mpr chosen)
    refine ⟨posting.entry, present, posting.form, ?_, posting.seat, ⟨member, text, same, chosen, found⟩,
      rfl⟩
    cases posting.form <;> simp

theorem pairwise_postingsOf (unequal : map.Nodup) (ordered : seats.Pairwise Seat.Before) :
    (postingsOf map seats).Pairwise (Posting.Before map) := by
  -- From the inside: seats of one form, forms of one key, keys.
  have ofForm (entry : Text × Text) (form : Form) :
      ((seatsOf map seats entry form).map fun seat => Posting.mk seat entry form).Pairwise
        (Posting.Before map) :=
    List.pairwise_map.mpr ((ordered.filter _).imp fun before =>
      .inr (.inr ⟨rfl, .inr ⟨rfl, before⟩⟩))
  refine List.pairwise_flatMap.mpr ⟨fun entry _ => List.pairwise_flatMap.mpr ⟨?_, ?_⟩, ?_⟩
  · exact fun form _ => ofForm entry form
  · refine List.pairwise_pair.mpr fun first member second member' => ?_
    obtain ⟨seat, -, rfl⟩ := List.mem_map.mp member
    obtain ⟨seat', -, rfl⟩ := List.mem_map.mp member'
    exact .inr (.inr ⟨rfl, .inl ⟨rfl, rfl⟩⟩)
  · refine (stable_largestFirst (fun entry : Text × Text => entry.1.length) unequal).imp ?_
    intro entry entry' before first member second member'
    simp only [List.mem_flatMap, List.mem_map] at member member'
    obtain ⟨form, -, seat, -, rfl⟩ := member
    obtain ⟨form', -, seat', -, rfl⟩ := member'
    rcases before with shorter | ⟨same, earlier⟩
    · exact .inl shorter
    · exact .inr (.inl ⟨same, earlier⟩)

theorem Seat.Before.irrefl (seat : Seat) : ¬ seat.Before seat := by
  rintro (less | ⟨-, left⟩)
  · exact Nat.lt_irrefl _ less
  · exact leftOf_irrefl _ left

theorem Posting.Before.irrefl (posting : Posting) : ¬ posting.Before map posting := by
  rintro (less | ⟨-, less⟩ | ⟨-, ⟨braced, bare⟩ | ⟨-, before⟩⟩)
  · exact Nat.lt_irrefl _ less
  · exact Nat.lt_irrefl _ less
  · cases braced.symm.trans bare
  · exact Seat.Before.irrefl _ before

/-! ### Seats and routes -/

theorem grounded_of_plants {cells : Array Cell} {roots : List Value} {plots : List Plot}
    (plants : Plants cells roots forest plots later) : ∀ root ∈ roots, Grounded cells root := by
  induction plants with
  | nil => exact List.forall_mem_nil _
  | cons first _ ih => exact List.forall_mem_cons.mpr ⟨(grounded_of_plant first).1, ih⟩

theorem comes_text_iff {cells : Array Cell} {root : Value} {path : Text} {spot : Spot}
    (grounded : Grounded cells root) (same : spot.value = .atom (.text text)) :
    Comes cells [] root path spot ↔
      follow cells root path spot.route = some (.atom (.text text), spot.path) ∧
        Arrives cells root path spot.route := by
  constructor
  · rintro ⟨followed, -, unfinished⟩
    exact ⟨same ▸ followed, (arrives_iff_unfinished grounded followed).mpr unfinished⟩
  · rintro ⟨followed, arrives⟩
    refine ⟨same ▸ followed, ?_, (arrives_iff_unfinished grounded followed).mp arrives⟩
    intro index cell
    cases same.symm.trans cell

theorem Posting.Due.unique {root root' : Value} {text' : Text}
    (due : posting.Due map stream root text) (due' : other.Due map stream root' text')
    (grounded : Grounded stream.cells root)
    (document : posting.seat.document = other.seat.document)
    (same : SameSpot stream.cells root
      (Path.ofRoot posting.seat.document stream.roots.length) posting.seat.spot.route
      other.seat.spot.route) : posting = other := by
  obtain ⟨⟨number, ⟨route, value, path⟩⟩, entry, form⟩ := posting
  obtain ⟨⟨_, ⟨route', value', path'⟩⟩, entry', form'⟩ := other
  cases document
  obtain ⟨there, rfl, followed, arrives, chosen, written⟩ := due
  obtain ⟨there', rfl, followed', arrives', chosen', written'⟩ := due'
  cases there.symm.trans there'
  cases arrives.unique grounded arrives' same
  cases followed.symm.trans followed'
  cases SubstitutionMap.chooses_unique chosen chosen'
  have forms : form = .braced ↔ form' = .braced := written.trans written'.symm
  cases form <;> cases form' <;> simp at forms <;> rfl

/-! ### What was replaced -/

theorem Forest.Planted.follow {cells : Array Cell} {value : Value} {node : Node} {path shown : Text}
    {way : List Nat} (planted : Planted cells forest value node)
    (followed : Data.follow cells value path way = some (.atom (.text text), shown))
    (branches : later.branches = forest.branches)
    (leaves : ∀ number, Below forest node number →
      later.leaves[number]? = forest.leaves[number]?.map (settled map.longestFirst)) :
    ∃ there, Data.follow (later.allCells cells) (node.toValue later.leaves cells.size) path way =
      some (.atom (.text (map.replace text)), there) := by
  induction planted using Planted.induction_parts generalizing path way with
  | leaf value number simple leaf =>
      cases way with
      | nil =>
          cases followed
          have after := leaves number (.here number)
          rw [leaf, Option.map_some] at after
          have becomes := settled_value map ⟨.atom (.text text), false⟩ rfl
          exact ⟨shown, by simp [Data.follow, Node.toValue, after, becomes]⟩
      | cons place way =>
          obtain ⟨_, cell, part, deeper, rfl, found, step, -⟩ := follow_cons_eq_some followed
          have inside := (inside_cell found part).mpr (part_of_step (List.mem_of_getElem? step))
          exact absurd inside (not_inside_of_simple simple part)
  | branch index number cell nodes found container branch below =>
      cases way with
      | nil => cases followed
      | cons place way =>
          obtain ⟨_, _, part, deeper, ⟨⟩, again, step, onward⟩ := follow_cons_eq_some followed
          cases found.symm.trans again
          have sizes := below.length_eq
          have inParts : cell.parts[place]? = some part := by
            rw [← map_fst_steps cells path cell, List.getElem?_map, step, Option.map_some]
          obtain ⟨inside, rfl⟩ := List.getElem?_eq_some_iff.mp inParts
          have inNodes : place < nodes.length := sizes ▸ inside
          obtain ⟨-, ih⟩ := below.get inside inNodes
          obtain ⟨there, led⟩ := ih onward fun leaf under => by
            refine leaves leaf (.under branch ?_ under)
            rw [nodes_branchOf sizes]
            exact List.getElem_mem inNodes
          have filled : (nodes.map (Node.toValue later.leaves cells.size))[place]? =
              some ((nodes.get ⟨place, inNodes⟩).toValue later.leaves cells.size) := by
            simp [inNodes]
          -- The label of a key is read in the new cells, so the path may be another one.
          obtain ⟨deeper', step'⟩ := step_refill (later.allCells cells) step filled
          obtain ⟨there', led'⟩ := follow_of_path led deeper'
          have refilled := allCells_branch cells container (branches ▸ branch)
          exact ⟨there', (follow_cons refilled step' way).trans led'⟩

theorem once_iff {postings : List Posting} {root : Value} {document : Nat} {way : List Nat}
    {shown : Text} (exact : ∀ posting, posting ∈ postings ↔
      ∃ root text, posting.Due map stream root text)
    (grounded : Grounded stream.cells root) (there : stream.roots[document]? = some root)
    (followed : follow stream.cells root (Path.ofRoot document stream.roots.length) way =
      some (.atom (.text text), shown)) :
    (∃ entry, map.Chooses text entry) ↔
      ∃! posting, posting ∈ postings ∧ posting.seat.document = document ∧
        SameSpot stream.cells root (Path.ofRoot document stream.roots.length)
          posting.seat.spot.route way := by
  constructor
  · rintro ⟨entry, chosen⟩
    obtain ⟨first, arrives, same⟩ := exists_arrives grounded followed
    obtain ⟨path, led⟩ := same.symm.follow followed
    let posting : Posting :=
      ⟨⟨document, ⟨first, .atom (.text text), path⟩⟩, entry, formIn entry.1 text⟩
    have due : posting.Due map stream root text :=
      ⟨there, rfl, led, arrives, chosen, formIn_eq_braced entry.1⟩
    refine ⟨posting, ⟨(exact posting).mpr ⟨root, text, due⟩, rfl, same⟩, ?_⟩
    rintro other ⟨member, rfl, same'⟩
    obtain ⟨root', text', due'⟩ := (exact other).mp member
    exact (due.unique due' grounded rfl (same.trans same'.symm)).symm
  · rintro ⟨posting, ⟨member, rfl, same⟩, -⟩
    obtain ⟨root', text', due⟩ := (exact posting).mp member
    cases there.symm.trans due.document
    obtain ⟨path, led⟩ := same.symm.follow followed
    cases led.symm.trans due.followed
    exact ⟨posting.entry, due.chosen⟩

/-- The records of a substitution are an exact ledger. When all documents can be planted, there is
one record for each text with a placeholder, however many routes lead to it, and there are no
others. Its key is the one that is chosen for the text, its path that of the first route to it; the
records are ordered by key, form, document and route, and every route to a text leads to its
replacement then. -/
theorem substitute_keeps_ledger (map : SubstitutionMap) (stream : Stream)
    (distinct : (map.map Prod.fst).Nodup) (planted : List Plot × Forest)
    (accepted : plantAll stream.cells stream.roots.length 0 stream.roots Forest.empty =
      .ok planted) :
    ∃ result postings, substitute map stream = .ok (result, postings.map Posting.record) ∧
      Ledger map stream result postings := by
  obtain ⟨plots, forest⟩ := planted
  have unequal : map.Nodup := distinct.of_map
  obtain ⟨seats, ordered, seated, walked⟩ := plantAll_trail accepted
  obtain ⟨substitutions, later, ended, passes⟩ := substitute_of_planted map accepted
  obtain ⟨plantedInOrder, -, stands⟩ := plantAll_faithful ordered_empty accepted
  have grounded := grounded_of_plants (plants_of_plantAll accepted)
  have records := applyKeys_postings walked unequal
  have kept := applyKeys_branches stream.cells plots map.longestFirst ([], forest)
  rw [passes] at records kept
  cases records
  have exact : ∀ posting, posting ∈ postingsOf map seats ↔
      ∃ root text, posting.Due map stream root text := by
    intro posting
    rw [mem_postingsOf, seated]
    constructor
    · rintro ⟨⟨place, root, found, same, comes⟩, text, value, chosen, form⟩
      have there : stream.roots[posting.seat.document]? = some root := by rwa [same, Nat.zero_add]
      obtain ⟨followed, arrives⟩ :=
        (comes_text_iff (grounded root (List.mem_of_getElem? found)) value).mp comes
      exact ⟨root, text, there, value, followed, arrives, chosen,
        form ▸ formIn_eq_braced posting.entry.1⟩
    · rintro ⟨root, text, due⟩
      have comes := (comes_text_iff (grounded root (List.mem_of_getElem? due.document)) due.value).mpr
        ⟨due.followed, due.arrives⟩
      refine ⟨⟨posting.seat.document, root, due.document, (Nat.zero_add _).symm, comes⟩, text,
        due.value, due.chosen, ?_⟩
      have same := due.form.trans (formIn_eq_braced posting.entry.1).symm
      cases form : posting.form <;> cases other : formIn posting.entry.1 text <;>
        simp [form, other] at same ⊢
  have inOrder := pairwise_postingsOf unequal ordered
  refine ⟨_, postingsOf map seats, ended, inOrder, ?_, exact, ?_, ?_⟩
  · refine inOrder.imp fun before same => ?_
    rw [same] at before
    exact Posting.Before.irrefl _ before
  · intro document root route text shown there followed
    exact once_iff exact (grounded root (List.mem_of_getElem? there)) there followed
  · intro document root route text shown there followed
    obtain ⟨inside, rfl⟩ := List.getElem?_eq_some_iff.mp there
    have inPlots : document < plots.length := stands.length_eq ▸ inside
    have leaves := passes_settle plantedInOrder stands passes _ (List.getElem_mem inPlots)
    obtain ⟨shown', led⟩ := (stands.get inside inPlots).follow followed kept leaves
    exact ⟨_, shown', by simp [toStream, inPlots], led⟩

/-- Two documents, the first of which holds a mapping twice. -/
theorem substitute_keeps_ledger_of_two :
    let stream : Stream := ⟨#[.list [.cell 1, .atom (.text "$A $BB"), .cell 1, .atom (.text "$A")],
      .mapping [(.atom (.text "k"), .atom (.text "x $\x7bBB\x7d"))]], [.cell 0, .atom (.text "$BB")]⟩
    let map : SubstitutionMap := [("A", "one"), ("BB", "$A")]
    ∃ result postings, substitute map stream = .ok (result, postings.map Posting.record) ∧
      postings.map Posting.record =
        [⟨"$0[0].k", "BB"⟩, ⟨"$0[1]", "BB"⟩, ⟨"$1", "BB"⟩, ⟨"$0[3]", "A"⟩] ∧
      Ledger map stream result postings := by
  intro stream map
  obtain ⟨result, postings, made, ledger⟩ :=
    substitute_keeps_ledger map stream (by decide) _ rfl
  refine ⟨result, postings, made, ?_, ledger⟩
  have sorted : map.longestFirst = ([("BB", "$A"), ("A", "one")] : SubstitutionMap) := by
    simp [map, SubstitutionMap.longestFirst, List.mergeSort, List.merge]
    decide
  have records : (substitute map stream).map Prod.snd =
      .ok [⟨"$0[0].k", "BB"⟩, ⟨"$0[1]", "BB"⟩, ⟨"$1", "BB"⟩, ⟨"$0[3]", "A"⟩] := by
    rw [substitute, sorted]
    decide +kernel
  rw [made] at records
  exact Except.ok.inj records

end SecretFill
