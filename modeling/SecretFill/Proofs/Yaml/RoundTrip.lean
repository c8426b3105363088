import SecretFill.Proofs.Yaml.Construction
/-!
Writing and reading a stream. A stream of plain documents whose texts, keys and integers fit is
written, and what is written is read as as many documents, each as it is read again.
-/

namespace SecretFill.Yaml

open Data

structure Drawn (cells : Array Cell) (room : Nat) (outline : Outline) (tree : Tree) : Prop where
  plain : tree.Plain room
  fits : outline.Fits outline.anchors 0
  value : ∃ root, Unfolds cells root tree ∧ Outline.ofDocument ⟨cells, root⟩ = .ok outline

theorem ofDocument_drawn {cells : Array Cell} {root : Value} {tree : Tree} {room : Nat}
    (unfolds : Unfolds cells root tree) (plain : tree.Plain room) (shallow : room ≤ deepestWritten)
    (fits : tree.Fits 0) :
    ∃ outline, Outline.ofDocument ⟨cells, root⟩ = .ok outline ∧ Drawn cells room outline tree := by
  obtain ⟨outline, met, drawn, fitsNamed⟩ :=
    Outline.draw_succeeds plain fits (Nat.lt_succ_of_le shallow) root [] unfolds
  have document : Outline.ofDocument ⟨cells, root⟩ = .ok outline := by
    rw [Outline.ofDocument, drawn]
    rfl
  refine ⟨outline, document, plain, ?_, root, unfolds, document⟩
  exact fitsNamed outline.anchors fun cell member => List.mem_eraseDups.mpr member

theorem outlines_drawn {cells : Array Cell} {roots : List Value} {trees : List Tree} {room : Nat}
    (unfolds : List.Forall₂ (Unfolds cells) roots trees) (plain : ∀ tree ∈ trees, tree.Plain room)
    (shallow : room ≤ deepestWritten) (fits : ∀ tree ∈ trees, tree.Fits 0) :
    ∃ outlines, roots.mapM (fun root => Outline.ofDocument ⟨cells, root⟩) = .ok outlines ∧
      List.Forall₂ (Drawn cells room) outlines trees := by
  induction unfolds with
  | nil => exact ⟨[], rfl, .nil⟩
  | @cons root tree roots trees one more ih =>
      obtain ⟨plainHere, plainLater⟩ := List.forall_mem_cons.mp plain
      obtain ⟨fitsHere, fitsLater⟩ := List.forall_mem_cons.mp fits
      obtain ⟨outline, first, drawn⟩ := ofDocument_drawn one plainHere shallow fitsHere
      obtain ⟨outlines, others, below⟩ := ih plainLater fitsLater
      refine ⟨outline :: outlines, ?_, .cons drawn below⟩
      rw [List.mapM_cons, first, others]
      rfl

structure Adds (stream result : Stream) (trees : List Tree) : Prop where
  roots : ∃ roots, result.roots = stream.roots ++ roots ∧
    List.Forall₂ (Unfolds result.cells) roots trees
  cells : ∀ (index : Nat) (cell : Cell), stream.cells[index]? = some cell →
    result.cells[index]? = some cell

theorem documentsOf_drawn {cells : Array Cell} {room : Nat} (shallow : room ≤ deepestWritten)
    {outlines : List Outline} {trees : List Tree}
    (drawn : List.Forall₂ (Drawn cells room) outlines trees) {events : List Event}
    (kinds : events.map Event.kind = outlines.flatMap Outline.documentEvents ++ [.streamEnd])
    {fuel : Nat} (enough : events.length < fuel) (stream : Stream) :
    ∃ result, documentsOf none fuel stream events = .ok result ∧
      Adds stream result (trees.map Tree.reread) := by
  -- The cells of each document come behind those of the earlier ones, which stay.
  induction drawn generalizing events fuel stream with
  | nil =>
      obtain ⟨fuel, rfl⟩ := Nat.exists_eq_succ_of_ne_zero (Nat.ne_zero_of_lt enough)
      obtain ⟨ended, rest, rfl, ends, -⟩ := List.map_eq_cons_iff.mp kinds
      refine ⟨stream, ?_, ⟨[], (List.append_nil _).symm, .nil⟩, fun _ _ found => found⟩
      rw [documentsOf, ends]
  | @cons outline tree outlines trees one more ih =>
      obtain ⟨fuel, rfl⟩ := Nat.exists_eq_succ_of_ne_zero (Nat.ne_zero_of_lt enough)
      rw [List.flatMap_cons, Outline.documentEvents, List.append_assoc, List.append_assoc] at kinds
      obtain ⟨start, tail, rfl, starts, kinds⟩ := List.map_eq_cons_iff.mp kinds
      obtain ⟨content, behind, rfl, contentKinds, kinds⟩ := List.map_eq_append_iff.mp kinds
      obtain ⟨ended, rest, rfl, ends, kinds⟩ := List.map_eq_cons_iff.mp kinds
      obtain ⟨root, unfolds, document⟩ := one.value
      obtain ⟨graph, assembled, stands⟩ := @ofEvents_outline _ _ _ _ unfolds one.plain shallow _
        document none _ rest _ contentKinds ends
      obtain ⟨cells', root', added, unfolds', kept⟩ := addDocument_stands stream stands
      have fewer : rest.length < fuel := by
        simp only [List.length_cons, List.length_append] at enough
        omega
      obtain ⟨result, read, ⟨roots, sameRoots, below⟩, keeps⟩ :=
        ih kinds fewer ⟨cells', stream.roots ++ [root']⟩
      refine ⟨result, ?_, ⟨root' :: roots, ?_, .cons (unfolds'.extend keeps) below⟩, ?_⟩
      · rw [documentsOf, starts]
        simp only [assembled, added, bind, Except.bind]
        exact read
      · rw [sameRoots, List.append_assoc]
        rfl
      · exact fun index cell found => keeps index cell (kept index cell found)

/-- What is written of a stream of plain documents is read as the same documents, each as it is read
again. -/
theorem read_write {stream : Stream} {trees : List Tree} (filled : stream.roots ≠ [])
    (unfolds : List.Forall₂ (Unfolds stream.cells) stream.roots trees) {room : Nat}
    (plain : ∀ tree ∈ trees, tree.Plain room) (shallow : room ≤ deepestWritten)
    (fits : ∀ tree ∈ trees, tree.Fits 0) :
    ∃ text result, write stream = .ok text ∧ read text.toList = .ok result ∧
      List.Forall₂ (Unfolds result.cells) result.roots (trees.map Tree.reread) := by
  obtain ⟨outlines, drawing, drawn⟩ := outlines_drawn unfolds plain shallow fits
  have each : ∀ outline ∈ outlines, outline.Fits outline.anchors 0 := by
    intro outline member
    obtain ⟨place, inside, rfl⟩ := List.mem_iff_getElem.mp member
    have sizes := drawn.length_eq
    exact ((List.forall₂_iff_get.mp drawn).2 place inside (by omega)).fits
  have nonempty : outlines ≠ [] := by
    rintro rfl
    have sizes := drawn.length_eq.trans unfolds.length_eq.symm
    exact filled (List.eq_nil_of_length_eq_zero sizes.symm)
  -- Scanned, parsed and built: each step starts from what the one before is known to give.
  obtain ⟨ends, known, scanned⟩ := scanned_written each
  obtain ⟨events, events', kinds⟩ := Event.ofText_of_scanned nonempty known scanned
  obtain ⟨start, rest, rfl, starts, kinds⟩ := List.map_eq_cons_iff.mp kinds
  obtain ⟨result, documents, ⟨roots, same, below⟩, -⟩ := documentsOf_drawn shallow drawn kinds
    (Nat.lt_succ_self _) Stream.empty
  have written : write stream = .ok (Writing.finish (outlines.foldl
      (Writing.writeDocument (outlines.length != 1)) Page.blank)).text := by
    rw [write]
    simp only [Stream.document, drawing, bind, Except.bind]
  refine ⟨_, result, written, ?_, ?_⟩
  · rw [Yaml.read, scanned.acceptable]
    simp only [events']
    rw [List.length_cons, documentsOf, starts]
    exact documents
  · rw [same]
    exact below

end SecretFill.Yaml
