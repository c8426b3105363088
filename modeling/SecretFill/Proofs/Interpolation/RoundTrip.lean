import SecretFill.Proofs.Data.Unfolding
import SecretFill.Proofs.Interpolation.Outcome
import SecretFill.Proofs.Yaml.RoundTrip
import SecretFill.Proofs.Yaml.Tidy
/-!
What is read of an interpolated text. The documents come back with their texts replaced, each text
as it is read again after it was written.
-/

namespace SecretFill

open Relation
open SecretFill.Data SecretFill.Forest

variable {cells : Array Cell} {value : Value} {tree : Tree} {trees : List Tree} {depth : Nat}

theorem plain_of_cellTree {cell : Cell} (container : cell.isContainer = true)
    (sizes : cell.parts.length = trees.length) (plain : (cell.tree trees).Plain depth) :
    (∀ tree ∈ trees, ∃ less, tree.Plain less) ∧ ∀ key ∈ cell.keys, key.isText = true := by
  cases cell with
  | list items =>
      cases plain with
      | list below => exact ⟨fun tree member => ⟨_, below tree member⟩, List.forall_mem_nil _⟩
  | mapping entries =>
      have keys : ((entries.map Prod.fst).zip trees).map Prod.fst = entries.map Prod.fst :=
        List.map_fst_zip (by simpa [Cell.parts] using sizes.le)
      have items : ((entries.map Prod.fst).zip trees).map Prod.snd = trees :=
        List.map_snd_zip (by simpa [Cell.parts] using sizes.ge)
      cases plain with
      | mapping texts below =>
          constructor
          · intro tree member
            rw [← items] at member
            obtain ⟨entry, inside, rfl⟩ := List.mem_map.mp member
            exact ⟨_, below entry inside⟩
          · intro key member
            rw [Cell.keys, ← keys] at member
            obtain ⟨entry, inside, rfl⟩ := List.mem_map.mp member
            exact texts entry inside
  | _ => cases container

theorem named_of_plain (unfolds : Unfolds cells value tree) (plain : tree.Plain depth) :
    Named cells value := by
  -- Every part has a depth of its own.
  induction unfolds using Unfolds.induction_parts generalizing depth with
  | atom atom =>
      intro inner cell reaches found
      have simple : ∀ index, Value.atom atom = .cell index → ¬ IsContainer cells index :=
        fun _ same => nomatch same
      cases reaches.eq_of_simple simple
      cases found
  | whole => cases plain
  | container index cell trees found container below =>
      intro inner other reaches found' key member
      obtain ⟨parts, texts⟩ := plain_of_cellTree container below.length_eq plain
      rcases ReflTransGen.cases_head reaches with rfl | ⟨part, inside, further⟩
      · cases found'.symm.trans found
        obtain ⟨text, rfl⟩ := isText_cases (texts key member)
        rfl
      · obtain ⟨tree, among, -, named⟩ := forall₂_left below ((inside_cell found part).mp inside)
        obtain ⟨less, plain⟩ := parts tree among
        exact named plain inner other further found' key member

theorem distinct_of_tidy {stream : Stream} (tidy : stream.Tidy)
    (unfolds : List.Forall₂ (Unfolds stream.cells) stream.roots trees) :
    ∀ tree ∈ trees, tree.Distinct := by
  intro tree member
  obtain ⟨root, -, unfolds⟩ := forall₂_left unfolds.flip member
  exact unfolds.distinct fun index entries found => (tidy.cells index _ found).distinct entries rfl

theorem accepted_of_plain {stream : Stream}
    (unfolds : List.Forall₂ (Unfolds stream.cells) stream.roots trees)
    (plain : ∀ tree ∈ trees, tree.Plain depth) :
    ∃ planted, plantAll stream.cells stream.roots.length 0 stream.roots Forest.empty =
      .ok planted := by
  refine plantAll_accepts (fun root member => ?_) (fun root member => ?_) _ 0 Forest.empty
  · obtain ⟨tree, -, unfolds⟩ := forall₂_left unfolds member
    exact unfolds.grounded.acyclic
  · obtain ⟨tree, inside, unfolds⟩ := forall₂_left unfolds member
    exact named_of_plain unfolds (plain tree inside)

/-! ### Interpolation -/

theorem interpolate_rereads {text source : Text} {stream : Stream}
    (read : readDocuments text source = .ok stream)
    (unfolds : List.Forall₂ (Unfolds stream.cells) stream.roots trees)
    (plain : ∀ tree ∈ trees, tree.Plain depth) (shallow : depth ≤ Yaml.deepestWritten)
    (map : SubstitutionMap) (fits : ∀ tree ∈ trees, (tree.mapTexts map.replace).Fits 0)
    (verbose : Bool) :
    ∃ report result, (interpolate text map verbose source).outcome = .ok report ∧
      readDocuments report.document source = .ok result ∧
      List.Forall₂ (Unfolds result.cells) result.roots
        (trees.map fun tree => (tree.mapTexts map.replace).reread) := by
  by_cases empty : stream.roots = []
  · -- Without documents the text stays, and is read as it was.
    refine ⟨_, stream, interpolate_without_documents read empty, read, ?_⟩
    rw [empty] at unfolds ⊢
    cases unfolds
    exact .nil
  · obtain ⟨planted, accepted⟩ := accepted_of_plain unfolds plain
    obtain ⟨changed, made, done, puts, -⟩ := substitute_replaces map accepted
    have replaced := puts trees unfolds
    have filled : changed.roots ≠ [] := by
      intro none
      have sizes := replaced.length_eq
      rw [none, List.length_map, ← unfolds.length_eq] at sizes
      exact empty (List.length_eq_zero_iff.mp sizes.symm)
    obtain ⟨written, result, wrote, back, same⟩ := Yaml.read_write filled replaced
      (List.forall_mem_map.mpr fun tree member => (plain tree member).mapTexts map.replace) shallow
      (List.forall_mem_map.mpr fits)
    rw [List.map_map] at same
    exact ⟨_, result, interpolate_of_write read empty done wrote, readDocuments_of_read back source,
      same⟩

/-- An interpolated text is read as the documents with their texts replaced, each of them as it is
read again; and that is what they are if and only if no text of theirs that is written between
single quotes, key or not, holds a line break that is read as another one. -/
theorem interpolate_read_back {text source : Text} {stream : Stream} {room : Nat}
    (read : readDocuments text source = .ok stream)
    (unfolds : List.Forall₂ (Unfolds stream.cells) stream.roots trees)
    (plain : ∀ tree ∈ trees, tree.Plain room) (shallow : room ≤ Yaml.deepestWritten)
    (map : SubstitutionMap) (fits : ∀ tree ∈ trees, (tree.mapTexts map.replace).Fits 0)
    (verbose : Bool) :
    ∃ report result, (interpolate text map verbose source).outcome = .ok report ∧
      readDocuments report.document source = .ok result ∧
      List.Forall₂ (Unfolds result.cells) result.roots
        (trees.map fun tree => (tree.mapTexts map.replace).reread) ∧
      (∀ tree ∈ trees, (tree.mapTexts map.replace).reread = tree.mapTexts map.replace ↔
        (tree.mapTexts map.replace).Kept) ∧
      ∀ text, (∃ entry, map.Chooses text entry ∧ map.replace text = entry.2) ∨
        (∀ entry ∈ map, ¬ Placeholder.Stands entry.1.toList text.toList) ∧
          map.replace text = text := by
  obtain ⟨report, result, ended, back, same⟩ :=
    interpolate_rereads read unfolds plain shallow map fits verbose
  refine ⟨report, result, ended, back, same, fun tree member => ?_, fun text => ?_⟩
  · have distinct := distinct_of_tidy (Yaml.read_tidy (read_of_readDocuments read)) unfolds
    exact Tree.reread_eq_iff ((distinct tree member).mapTexts map.replace)
  · rcases map.chooses_or_absent text with ⟨entry, chosen⟩ | absent
    · exact .inl ⟨entry, chosen, SubstitutionMap.replace_of_chooses chosen⟩
    · exact .inr absent

theorem interpolate_read_back_two_lines :
    ∃ report result, (interpolate "a: $K\n" [("K", "x:\ny: z")] false "").outcome = .ok report ∧
      readDocuments report.document "" = .ok result ∧
      List.Forall₂ (Unfolds result.cells) result.roots
        [.mapping [(.atom (.text "a"), .atom (.text "x:\ny: z"))]] := by
  let stream : Stream := ⟨#[.mapping [(.atom (.text "a"), .atom (.text "$K"))]], [.cell 0]⟩
  let tree : Tree := .mapping [(.atom (.text "a"), .atom (.text "$K"))]
  let filled : Tree := .mapping [(.atom (.text "a"), .atom (.text "x:\ny: z"))]
  let map : SubstitutionMap := [("K", "x:\ny: z")]
  have read : readDocuments "a: $K\n" "" = .ok stream := eq_ok_of_toOption (by decide +kernel)
  have unfolds : List.Forall₂ (Unfolds stream.cells) stream.roots [tree] := by
    refine .cons (.mapping rfl rfl fun place inEntries _ => ?_) .nil
    cases Nat.lt_one_iff.mp inEntries
    exact .atom _
  have plain : tree.Plain 1 :=
    .mapping (List.forall_mem_singleton.mpr rfl) (List.forall_mem_singleton.mpr (.atom rfl))
  have replaced : tree.mapTexts map.replace = filled := by
    have value : map.replace "$K" = "x:\ny: z" := by decide +kernel
    simp only [tree, filled, Tree.mapTexts, List.map_cons, List.map_nil, value]
  have fits : filled.Fits 0 := by
    refine .mapping (List.forall_mem_singleton.mpr ⟨.inl (by decide), fun _ => ?_⟩)
      (List.forall_mem_singleton.mpr (.atom (.inl (by decide))))
    intro
    decide
  have kept : filled.Kept := by
    refine .mapping (List.forall_mem_singleton.mpr fun _ => ?_)
      (List.forall_mem_singleton.mpr (.atom fun _ => ?_)) <;> decide
  obtain ⟨report, result, ended, back, same, exactly, -⟩ :=
    interpolate_read_back read unfolds (List.forall_mem_singleton.mpr plain) (by decide) map
      (List.forall_mem_singleton.mpr (replaced ▸ fits)) false
  have unchanged := (exactly tree List.mem_cons_self).mpr (replaced ▸ kept)
  rw [List.map_singleton, unchanged, replaced] at same
  exact ⟨report, result, ended, back, same⟩

/-- A next line in a value is lost: it is written as it is, and read as a break between two words.
-/
theorem interpolate_loses_next_line :
    ∃ report, (interpolate "a: $K\n" [("K", "x\u0085y")] false "").outcome = .ok report ∧
      readDocuments report.document "" =
        .ok ⟨#[.mapping [(.atom (.text "a"), .atom (.text "x y"))]], [.cell 0]⟩ := by
  refine ⟨⟨"a: 'x\u0085  y'\n", [⟨"a", "K"⟩]⟩, eq_ok_of_toOption ?_, eq_ok_of_toOption ?_⟩
  · decide +kernel
  · decide +kernel

end SecretFill
