import SecretFill.Proofs.Data.Address
import SecretFill.Proofs.Forest.Planting
import SecretFill.Proofs.Interpolation.Tour
/-!
Which place a path names. Where keys are plain texts, a path names one place of all documents of a
stream, so that each record of a substitution says which text was replaced. The exception is an only
document with an entry `$` at its root: what stands below that entry has the paths of what stands
below the root.
-/

namespace SecretFill

open SecretFill.Data SecretFill.Forest

variable {stream : Stream} {plots : List Plot} {forest : Forest} {seats : List Seat}

/-- Two routes of a stream have the same path if they are the same, or if the stream has one
document and they differ by first turns that leave `$` as it is. -/
theorem path_eq_iff (legible : ∀ root ∈ stream.roots, Legible stream.cells root)
    {document document' : Nat} {root root' goal goal' : Value} {route route' : List Nat}
    {path path' : Text} (there : stream.roots[document]? = some root)
    (there' : stream.roots[document']? = some root')
    (followed : follow stream.cells root (Path.ofRoot document stream.roots.length) route =
      some (goal, path))
    (followed' : follow stream.cells root' (Path.ofRoot document' stream.roots.length) route' =
      some (goal', path')) :
    path = path' ↔ document = document' ∧
      if stream.roots.length = 1 then
        ((turnsOf stream.cells root route).dropWhile fun turn => turn = .idle) =
          (turnsOf stream.cells root' route').dropWhile fun turn => turn = .idle
      else route = route' := by
  have clear := clear_turnsOf (legible root (List.mem_of_getElem? there)) followed
  have clear' := clear_turnsOf (legible root' (List.mem_of_getElem? there')) followed'
  rw [path_of_follow followed, path_of_follow followed']
  by_cases single : stream.roots.length = 1
  · -- Both routes are in the only document, so their numbers are the same.
    have first := (List.getElem?_eq_some_iff.mp there).1
    have first' := (List.getElem?_eq_some_iff.mp there').1
    have same : document = document' := by omega
    rw [if_pos single, and_iff_right same]
    simp only [Path.ofRoot, if_pos single]
    exact foldl_root_inj_iff clear clear'
  · rw [if_neg single, foldl_numbered_inj_iff single clear clear']
    refine and_congr_right fun same => ?_
    subst same
    cases there.symm.trans there'
    refine ⟨route_of_turns (legible root (List.mem_of_getElem? there)) followed followed', ?_⟩
    exact fun same => by rw [same]

theorem not_idle_of_root {cells : Array Cell} {root goal : Value} {route : List Nat}
    {path shown : Text} (legible : Legible cells root)
    (other : ∀ cell, root.cell? cells = some cell → .atom (.text Path.root) ∉ cell.keys)
    (followed : follow cells root path route = some (goal, shown)) :
    ((turnsOf cells root route).dropWhile fun turn => turn = .idle) = turnsOf cells root route := by
  cases route with
  | nil => rfl
  | cons place route =>
      obtain ⟨index, cell, part, turn, rfl, found, taken, -, turns, -⟩ := turn_of_follow followed
      rw [turns]
      refine List.dropWhile_cons_of_neg fun idle => ?_
      rcases turn_cases taken with rfl | ⟨key, held, rfl⟩
      · cases of_decide_eq_true idle
      · have inKeys := List.mem_of_getElem? held
        obtain ⟨text, rfl, -⟩ := plainKey_iff.mp (legible.plain index cell .refl found key inKeys)
        cases of_decide_eq_true idle
        exact other cell found inKeys

/-! ### Places and records -/

theorem map_path_numbered (start : Nat) (paths : List Text) :
    (numbered start paths).map Place.path = paths := by
  induction paths generalizing start with
  | nil => rfl
  | cons path paths ih => rw [numbered, List.map_cons, ih]

theorem Tour.paths_nodup (tour : Tour stream plots forest seats)
    (legible : ∀ root ∈ stream.roots, Legible stream.cells root)
    (other : stream.roots.length = 1 → ∀ root ∈ stream.roots, ∀ cell,
      root.cell? stream.cells = some cell → .atom (.text Path.root) ∉ cell.keys) :
    (seats.map fun seat => seat.spot.path).Nodup := by
  have distinct : seats.Nodup := tour.ordered.imp fun before same => by
    rw [same] at before
    exact Seat.Before.irrefl _ before
  refine distinct.map_on fun seat member seat' member' same => ?_
  obtain ⟨root, there, comes⟩ := (tour.exact seat).mp member
  obtain ⟨root', there', comes'⟩ := (tour.exact seat').mp member'
  have readable := legible root (List.mem_of_getElem? there)
  obtain ⟨document, turns⟩ :=
    (path_eq_iff legible there there' comes.followed comes'.followed).mp same
  obtain ⟨number, ⟨route, value, path⟩⟩ := seat
  obtain ⟨number', ⟨route', value', path'⟩⟩ := seat'
  cases document
  cases there.symm.trans there'
  have routes : route = route' := by
    by_cases single : stream.roots.length = 1
    · rw [if_pos single,
        not_idle_of_root readable (other single root (List.mem_of_getElem? there)) comes.followed,
        not_idle_of_root readable (other single root (List.mem_of_getElem? there)) comes'.followed]
        at turns
      exact route_of_turns readable comes.followed comes'.followed turns
    · rwa [if_neg single] at turns
  cases routes
  cases comes.followed.symm.trans comes'.followed
  rfl

theorem posting_of_seat {map : SubstitutionMap} {posting posting' : Posting}
    (member : posting ∈ postingsOf map seats) (member' : posting' ∈ postingsOf map seats)
    (same : posting.seat = posting'.seat) : posting = posting' := by
  obtain ⟨-, text, value, chosen, form⟩ := mem_postingsOf.mp member
  obtain ⟨-, text', value', chosen', form'⟩ := mem_postingsOf.mp member'
  obtain ⟨seat, entry, written⟩ := posting
  obtain ⟨seat', entry', written'⟩ := posting'
  cases same
  cases value.symm.trans value'
  cases SubstitutionMap.chooses_unique chosen chosen'
  exact congrArg (Posting.mk seat entry) (form.trans form'.symm)

theorem records_nodup {map : SubstitutionMap} (unequal : map.Nodup)
    (ordered : seats.Pairwise Seat.Before)
    (paths : (seats.map fun seat => seat.spot.path).Nodup) :
    (((postingsOf map seats).map Posting.record).map Substitution.path).Nodup := by
  rw [List.map_map]
  refine (nodup_postingsOf unequal ordered).map_on fun posting member posting' member' same => ?_
  have seat := (mem_postingsOf.mp member).1
  have seat' := (mem_postingsOf.mp member').1
  exact posting_of_seat member member' (List.inj_on_of_nodup_map paths seat seat' same)

/-- What a path tells. In a stream without cycles whose keys are plain, two routes have the same
path only if they are the same, or if the stream has one document and the routes differ by first
turns with the key `$`. So unless the root of an only document has an entry `$`, a walk comes to
every leaf once and to no two on one path, and every record of a substitution names the one place
that was replaced. -/
theorem paths_tell_places (stream : Stream)
    (acyclic : ∀ root ∈ stream.roots, ¬ Cyclic stream.cells root)
    (legible : ∀ root ∈ stream.roots, Legible stream.cells root) :
    (∀ (document document' : Nat) root root' goal goal' route route' path path',
      stream.roots[document]? = some root → stream.roots[document']? = some root' →
      follow stream.cells root (Path.ofRoot document stream.roots.length) route =
        some (goal, path) →
      follow stream.cells root' (Path.ofRoot document' stream.roots.length) route' =
        some (goal', path') →
      (path = path' ↔ document = document' ∧
        if stream.roots.length = 1 then
          ((turnsOf stream.cells root route).dropWhile fun turn => turn = .idle) =
            (turnsOf stream.cells root' route').dropWhile fun turn => turn = .idle
        else route = route')) ∧
    ((stream.roots.length = 1 → ∀ root ∈ stream.roots, ∀ cell,
        root.cell? stream.cells = some cell → .atom (.text Path.root) ∉ cell.keys) →
      ∃ plots forest, plantAll stream.cells stream.roots.length 0 stream.roots Forest.empty =
          .ok (plots, forest) ∧
        let places := (Forest.route forest stream.cells plots []).1
        places.map Place.leaf = List.range forest.leaves.size ∧ (places.map Place.path).Nodup ∧
        ∀ map : SubstitutionMap, (map.map Prod.fst).Nodup →
          ∃ result records, substitute map stream = .ok (result, records) ∧
            (records.map Substitution.path).Nodup ∧
            ∀ record ∈ records, ∃! place, place ∈ places ∧ place.path = record.path) := by
  refine ⟨fun document document' root root' goal goal' route route' path path' =>
    path_eq_iff legible, fun other => ?_⟩
  obtain ⟨⟨plots, forest⟩, accepted⟩ := plantAll_accepts acyclic
    (fun root member => (legible root member).named) stream.roots.length 0 Forest.empty
  obtain ⟨seats, tour⟩ := exists_tour accepted
  have distinct := tour.paths_nodup legible other
  have paths : (Forest.route forest stream.cells plots []).1.map Place.path =
      seats.map fun seat => seat.spot.path := by
    rw [tour.places, map_path_numbered]
  have sizes : forest.leaves.size = seats.length := by
    simpa using congrArg List.length tour.leaves
  refine ⟨plots, forest, accepted, ?_, paths ▸ distinct, fun map keys => ?_⟩
  · rw [tour.places, map_leaf_numbered, List.length_map, sizes, List.range_eq_range']
  · refine ⟨_, _, tour.substitutes accepted keys.of_map, ?_, fun record member => ?_⟩
    · exact records_nodup keys.of_map tour.ordered distinct
    · obtain ⟨posting, posted, rfl⟩ := List.mem_map.mp member
      have inside : posting.seat.spot.path ∈
          (Forest.route forest stream.cells plots []).1.map Place.path := by
        rw [paths]
        exact List.mem_map_of_mem (mem_postingsOf.mp posted).1
      obtain ⟨place, held, named⟩ := List.mem_map.mp inside
      refine ⟨place, ⟨held, named⟩, fun place' ⟨held', named'⟩ => ?_⟩
      exact List.inj_on_of_nodup_map (paths ▸ distinct) held' held (named'.trans named.symm)

theorem paths_tell_places_nested :
    let stream : Stream := ⟨#[
      .mapping [(.atom (.text "a"), .cell 1), (.atom (.text "b"), .atom (.text "$K"))],
      .list [.cell 2, .atom (.text "$K")],
      .mapping [(.atom (.text "$"), .atom (.text "$K")), (.atom (.text "b"), .atom .null)]],
      [.cell 0]⟩
    let map : SubstitutionMap := [("K", "value")]
    (∀ root ∈ stream.roots, ¬ Cyclic stream.cells root) ∧
      (∀ root ∈ stream.roots, Legible stream.cells root) ∧
      ∃ result records, substitute map stream = .ok (result, records) ∧
        records = [⟨"a[0].$", "K"⟩, ⟨"a[1]", "K"⟩, ⟨"b", "K"⟩] ∧
        (records.map Substitution.path).Nodup := by
  intro stream map
  have accepted : Forest.empty.plant stream.cells (.cell 0) Path.root = .ok (.branch 2, _) := rfl
  have acyclic : ∀ root ∈ stream.roots, ¬ Cyclic stream.cells root := by
    intro root member
    rw [List.mem_singleton.mp member]
    exact ((plant_ok_iff stream.cells (.cell 0) Path.root Forest.empty).mp ⟨_, accepted⟩).1
  have legible : ∀ root ∈ stream.roots, Legible stream.cells root :=
    fun root _ => legible_of_cells (by decide) (by decide) root
  have other : stream.roots.length = 1 → ∀ root ∈ stream.roots, ∀ cell,
      root.cell? stream.cells = some cell → .atom (.text Path.root) ∉ cell.keys := by
    intro _ root member cell found
    rw [List.mem_singleton.mp member] at found
    cases found
    decide
  obtain ⟨plots, forest, -, -, -, records⟩ := (paths_tell_places stream acyclic legible).2 other
  obtain ⟨result, records, made, distinct, -⟩ := records map (by decide)
  refine ⟨acyclic, legible, result, records, made, ?_, distinct⟩
  have told : (substitute map stream).map Prod.snd =
      .ok [⟨"a[0].$", "K"⟩, ⟨"a[1]", "K"⟩, ⟨"b", "K"⟩] := by
    decide +kernel
  rw [made] at told
  exact Except.ok.inj told

/-- A text below the entry `$` of an only document has the path of another text of the document. -/
theorem path_tells_two_places :
    let stream : Stream := ⟨#[
      .mapping [(.atom (.text "$"), .cell 1), (.atom (.text "a"), .atom (.text "$K"))],
      .mapping [(.atom (.text "a"), .atom (.text "$K"))]], [.cell 0]⟩
    readDocuments "$:\n  a: $K\na: $K\n" "doc" = .ok stream ∧
      ¬ Cyclic stream.cells (.cell 0) ∧ Legible stream.cells (.cell 0) ∧
      follow stream.cells (.cell 0) (Path.ofRoot 0 1) [0, 0] =
          some (Value.atom (.text "$K"), ("a" : Text)) ∧
      follow stream.cells (.cell 0) (Path.ofRoot 0 1) [1] =
          some (Value.atom (.text "$K"), ("a" : Text)) ∧
      (substitute [("K", "value")] stream).map Prod.snd = .ok [⟨"a", "K"⟩, ⟨"a", "K"⟩] := by
  intro stream
  have accepted : Forest.empty.plant stream.cells (.cell 0) Path.root = .ok (.branch 1, _) := rfl
  have acyclic := ((plant_ok_iff stream.cells (.cell 0) Path.root Forest.empty).mp ⟨_, accepted⟩).1
  refine ⟨by decide +kernel, acyclic, legible_of_cells (by decide) (by decide) _, by decide +kernel,
    by decide +kernel, by decide +kernel⟩

end SecretFill
