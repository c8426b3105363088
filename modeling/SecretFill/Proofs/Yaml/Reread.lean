import SecretFill.Proofs.Data.Plain
import SecretFill.Proofs.Yaml.Scalar
/-!
Documents as they are read again. A text that is written between single quotes loses its line breaks
of one kind, keys that become the same are set one after the other, and all else stays; so a
document comes back as it was if and only if no such text holds such a break.
-/

namespace SecretFill.Data

open SecretFill.Yaml

def Atom.reread : Atom → Atom
  | .text written => .text (Text.ofList (rereadText written.toList))
  | other => other

def Value.reread : Value → Value
  | .atom simple => .atom simple.reread
  | .cell index => .cell index

def Tree.reread : Tree → Tree
  | .atom simple => .atom simple.reread
  | .whole cell => .whole cell
  | .list items => .list (items.map reread)
  | .mapping entries =>
      .mapping (collect (entries.map fun entry => (entry.1.reread, entry.2.reread)))
decreasing_by
  · decreasing_tactic
  · next member =>
      have below := List.sizeOf_lt_of_mem member
      rw [Prod.mk.sizeOf_spec] at below
      simp only [Tree.mapping.sizeOf_spec]
      omega

def KeptText (text : List Code) : Prop :=
  Layout.allowsSingleQuotes text = true → Page.lostBreak ∉ text

def Atom.Kept : Atom → Prop
  | .text written => KeptText written.toList
  | _ => True

def Value.Kept : Value → Prop
  | .atom simple => simple.Kept
  | .cell _ => True

/-- A tree all of whose texts, keys included, are read as they were written. -/
inductive Tree.Kept : Tree → Prop
  | atom {atom : Atom} (kept : atom.Kept) : Kept (.atom atom)
  | whole (cell : Nat) : Kept (.whole cell)
  | list {items : List Tree} (below : ∀ item ∈ items, Kept item) : Kept (.list items)
  | mapping {entries : List (Value × Tree)} (keys : ∀ entry ∈ entries, entry.1.Kept)
      (below : ∀ entry ∈ entries, Kept entry.2) : Kept (.mapping entries)

theorem rereadText_eq_iff (text : List Code) : rereadText text = text ↔ KeptText text := by
  unfold rereadText KeptText
  by_cases allowed : Layout.allowsSingleQuotes text = true
  · rw [if_pos allowed, Page.readQuoted_eq_iff]
    exact ⟨fun kept _ => kept, fun kept => kept allowed⟩
  · rw [if_neg allowed]
    exact ⟨fun _ holds => absurd holds allowed, fun _ => rfl⟩

theorem keptText_rereadText (text : List Code) : KeptText (rereadText text) := by
  unfold rereadText
  by_cases allowed : Layout.allowsSingleQuotes text = true
  · rw [if_pos allowed]
    intro _
    exact Page.lostBreak_not_mem_stretched (Page.stretched text)
  · rw [if_neg allowed]
    intro holds
    exact absurd holds allowed

theorem Atom.reread_eq_iff (atom : Atom) : atom.reread = atom ↔ atom.Kept := by
  cases atom with
  | text text =>
      rw [Atom.reread, Atom.Kept, ← rereadText_eq_iff, Atom.text.injEq]
      constructor
      · intro same
        rw [← Text.toList_inj, Text.toList_ofList] at same
        exact same
      · intro same
        rw [same, Text.ofList_toList]
  | _ => exact ⟨fun _ => trivial, fun _ => rfl⟩

theorem Value.reread_eq_iff (value : Value) : value.reread = value ↔ value.Kept := by
  cases value with
  | cell index => exact ⟨fun _ => trivial, fun _ => rfl⟩
  | atom atom => rw [Value.reread, Value.atom.injEq, Atom.reread_eq_iff, Value.Kept]

theorem kept_reread (value : Value) : value.reread.Kept := by
  cases value with
  | cell index => trivial
  | atom atom =>
      cases atom with
      | text text =>
          show KeptText (Text.ofList (rereadText text.toList)).toList
          rw [Text.toList_ofList]
          exact keptText_rereadText text.toList
      | _ => trivial

theorem isText_reread (key : Value) : key.reread.isText = key.isText := by
  cases key with
  | cell index => rfl
  | atom atom => cases atom <;> rfl

theorem map_eq_self {α : Type} {change : α → α} {items : List α} :
    items.map change = items ↔ ∀ item ∈ items, change item = item := by
  constructor
  · intro same item member
    rw [← List.map_id items, List.map_map] at same
    exact List.map_inj_left.mp same item member
  · intro same
    rw [List.map_congr_left same, List.map_id']

theorem Tree.reread_kept {tree : Tree} (distinct : tree.Distinct) (kept : tree.Kept) :
    tree.reread = tree := by
  induction kept with
  | atom kept => rw [Tree.reread, (Atom.reread_eq_iff _).mpr kept]
  | whole cell => rw [Tree.reread]
  | list below ih =>
      cases distinct with
      | list distinct =>
          rw [Tree.reread, map_eq_self.mpr fun item member => ih item member (distinct item member)]
  | mapping keys below ih =>
      cases distinct with
      | mapping distinct each =>
          rw [Tree.reread, map_eq_self.mpr ?_, collect_distinct distinct]
          intro entry member
          rw [(Value.reread_eq_iff _).mpr (keys entry member),
            ih entry member (each entry member)]

theorem Tree.kept_of_reread {tree : Tree} (distinct : tree.Distinct) (same : tree.reread = tree) :
    tree.Kept := by
  induction distinct with
  | atom atom =>
      rw [Tree.reread, Tree.atom.injEq] at same
      exact .atom ((Atom.reread_eq_iff atom).mp same)
  | whole cell => exact .whole cell
  | list below ih =>
      rw [Tree.reread, Tree.list.injEq] at same
      exact .list fun item member => ih item member (map_eq_self.mp same item member)
  | @mapping entries distinct below ih =>
      rw [Tree.reread, Tree.mapping.injEq] at same
      -- The keys are those of what was read, and what was read once is read the same again.
      have keys : ∀ entry ∈ entries, entry.1.Kept := by
        intro entry member
        have present : entry.1 ∈ entries.map Prod.fst := List.mem_map_of_mem member
        rw [← same, mem_keys_collect, List.map_map] at present
        obtain ⟨other, -, read⟩ := List.mem_map.mp present
        rw [← read]
        exact kept_reread other.1
      have unchanged : DistinctKeys (entries.map fun entry => (entry.1.reread, entry.2.reread)) := by
        have firsts : (entries.map fun entry => (entry.1.reread, entry.2.reread)).map Prod.fst =
            entries.map Prod.fst := by
          rw [List.map_map]
          apply List.map_congr_left
          intro entry member
          exact (Value.reread_eq_iff _).mpr (keys entry member)
        rw [DistinctKeys, firsts]
        exact distinct
      rw [collect_distinct unchanged] at same
      apply Tree.Kept.mapping keys
      intro entry member
      exact ih entry member (congrArg Prod.snd (map_eq_self.mp same entry member))

/-- A tree comes back as it was if and only if all its texts do. -/
theorem Tree.reread_eq_iff {tree : Tree} (distinct : tree.Distinct) :
    tree.reread = tree ↔ tree.Kept :=
  ⟨kept_of_reread distinct, reread_kept distinct⟩

end SecretFill.Data
