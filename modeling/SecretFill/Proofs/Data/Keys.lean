import Mathlib.Data.List.Forall2
import SecretFill.Data.Value
/-!
Entries set one after the other. `collect` keeps the first of several entries of one key, with the
last of their items, and so do mappings while they are filled; entries of distinct keys stay as they
are.
-/

namespace SecretFill.Data

variable {α : Type}

def put (key : Value) (item : α) : List (Value × α) → List (Value × α)
  | [] => [(key, item)]
  | (present, old) :: rest =>
      if present = key then (present, item) :: rest else (present, old) :: put key item rest

/-- Sets the keys of some entries in their order, after those set already. -/
def collectAfter (collected entries : List (Value × α)) : List (Value × α) :=
  entries.foldl (fun collected entry => put entry.1 entry.2 collected) collected

def collect (entries : List (Value × α)) : List (Value × α) := collectAfter [] entries

def DistinctKeys (entries : List (Value × α)) : Prop := (entries.map Prod.fst).Nodup

theorem put_absent {key : Value} (item : α) {entries : List (Value × α)}
    (absent : key ∉ entries.map Prod.fst) : put key item entries = entries ++ [(key, item)] := by
  induction entries with
  | nil => rfl
  | cons entry rest ih =>
      obtain ⟨other, later⟩ := not_or.mp (mt List.mem_cons.mpr absent)
      rw [put, if_neg (Ne.symm other), ih later, List.cons_append]

theorem collectAfter_distinct {collected entries : List (Value × α)}
    (distinct : DistinctKeys (collected ++ entries)) :
    collectAfter collected entries = collected ++ entries := by
  induction entries generalizing collected with
  | nil => exact (List.append_nil _).symm
  | cons entry rest ih =>
      have absent : entry.1 ∉ collected.map Prod.fst := by
        rw [DistinctKeys, List.map_append, List.nodup_append] at distinct
        intro member
        exact distinct.2.2 _ member _ List.mem_cons_self rfl
      have together : collected ++ entry :: rest = (collected ++ [entry]) ++ rest := by simp
      rw [collectAfter, List.foldl_cons, put_absent _ absent, together]
      rw [together] at distinct
      exact ih distinct

theorem collect_distinct {entries : List (Value × α)} (distinct : DistinctKeys entries) :
    collect entries = entries :=
  @collectAfter_distinct _ [] entries distinct

theorem mem_keys_put {key other : Value} {item : α} {entries : List (Value × α)} :
    other ∈ (put key item entries).map Prod.fst ↔ other = key ∨ other ∈ entries.map Prod.fst := by
  induction entries with
  | nil => simp [put]
  | cons entry rest ih =>
      rw [put]
      by_cases present : entry.1 = key
      · rw [if_pos present]
        simp only [List.map_cons, List.mem_cons, present]
        tauto
      · rw [if_neg present]
        simp only [List.map_cons, List.mem_cons, ih]
        tauto

theorem mem_keys_collectAfter {key : Value} {collected entries : List (Value × α)} :
    key ∈ (collectAfter collected entries).map Prod.fst ↔
      key ∈ collected.map Prod.fst ∨ key ∈ entries.map Prod.fst := by
  induction entries generalizing collected with
  | nil => simp [collectAfter]
  | cons entry rest ih =>
      rw [collectAfter, List.foldl_cons]
      refine ih.trans ?_
      rw [mem_keys_put, List.map_cons, List.mem_cons]
      tauto

theorem mem_keys_collect {key : Value} {entries : List (Value × α)} :
    key ∈ (collect entries).map Prod.fst ↔ key ∈ entries.map Prod.fst := by
  simp [collect, mem_keys_collectAfter]

/-! ### Entries that correspond -/

variable {β : Type} {related : α → β → Prop}

def EntriesMatch (related : α → β → Prop) (entry : Value × α) (other : Value × β) : Prop :=
  entry.1 = other.1 ∧ related entry.2 other.2

theorem matches_put {key : Value} {item : α} {other : β} (same : related item other)
    {entries : List (Value × α)} {others : List (Value × β)}
    (matched : List.Forall₂ (EntriesMatch related) entries others) :
    List.Forall₂ (EntriesMatch related) (put key item entries) (put key other others) := by
  induction matched with
  | nil => exact .cons ⟨rfl, same⟩ .nil
  | @cons entry entry' rest rest' here later ih =>
      rw [put, put, here.1]
      by_cases present : entry'.1 = key
      · rw [if_pos present, if_pos present]
        exact .cons ⟨rfl, same⟩ later
      · rw [if_neg present, if_neg present]
        exact .cons ⟨rfl, here.2⟩ ih

theorem matches_collectAfter {collected entries : List (Value × α)}
    {collected' others : List (Value × β)}
    (before : List.Forall₂ (EntriesMatch related) collected collected')
    (matched : List.Forall₂ (EntriesMatch related) entries others) :
    List.Forall₂ (EntriesMatch related) (collectAfter collected entries)
      (collectAfter collected' others) := by
  induction matched generalizing collected collected' with
  | nil => exact before
  | @cons entry other rest rest' here later ih =>
      rw [collectAfter, collectAfter, List.foldl_cons, List.foldl_cons, here.1]
      exact ih (matches_put here.2 before)

theorem matches_collect {entries : List (Value × α)} {others : List (Value × β)}
    (matched : List.Forall₂ (EntriesMatch related) entries others) :
    List.Forall₂ (EntriesMatch related) (collect entries) (collect others) :=
  matches_collectAfter .nil matched

/-! ### Keys of mappings -/

theorem sameKey_refl (cells : Array Cell) (key : Value) : sameKey cells key key = true := by
  cases key with
  | cell index => simp [sameKey]
  | atom atom =>
      cases atom <;>
        simp [sameKey, Atom.same, Atom.number?, Atom.sameNumber, Decimal.Binary64.sameValue]

theorem sameKey_text (cells : Array Cell) (present : Value) (text : Text) :
    sameKey cells present (.atom (.text text)) = decide (present = .atom (.text text)) := by
  cases present with
  | cell index => simp [sameKey]
  | atom atom =>
      apply Bool.eq_iff_iff.mpr
      cases atom <;> simp [sameKey, Atom.same, Atom.number?]

theorem insertKey_text (cells : Array Cell) (text : Text) (value : Value)
    (entries : List (Value × Value)) :
    insertKey cells (.atom (.text text)) value entries = put (.atom (.text text)) value entries := by
  induction entries with
  | nil => rfl
  | cons entry rest ih =>
      rw [insertKey, put, sameKey_text, ih]
      simp only [decide_eq_true_eq]

theorem mem_keys_insertKey {cells : Array Cell} {key value other : Value}
    {entries : List (Value × Value)}
    (member : other ∈ (insertKey cells key value entries).map Prod.fst) :
    other = key ∨ other ∈ entries.map Prod.fst := by
  induction entries with
  | nil => exact .inl (by simpa [insertKey] using member)
  | cons entry rest ih =>
      rw [insertKey] at member
      by_cases present : sameKey cells entry.1 key = true
      · rw [if_pos present] at member
        exact .inr member
      · rw [if_neg present, List.map_cons] at member
        rcases List.mem_cons.mp member with here | later
        · exact .inr (List.mem_cons.mpr (.inl here))
        · rcases ih later with fresh | old
          · exact .inl fresh
          · exact .inr (List.mem_cons_of_mem _ old)

theorem distinctKeys_insertKey (cells : Array Cell) (key value : Value)
    {entries : List (Value × Value)} (distinct : DistinctKeys entries) :
    DistinctKeys (insertKey cells key value entries) := by
  induction entries with
  | nil => exact List.pairwise_singleton _ key
  | cons entry rest ih =>
      rw [DistinctKeys, List.map_cons, List.nodup_cons] at distinct
      rw [insertKey]
      by_cases present : sameKey cells entry.1 key = true
      · rw [if_pos present]
        exact List.nodup_cons.mpr distinct
      · rw [if_neg present]
        apply List.nodup_cons.mpr
        constructor
        · intro member
          rcases mem_keys_insertKey member with same | old
          · rw [same, sameKey_refl] at present
            exact present rfl
          · exact distinct.1 old
        · exact ih distinct.2

end SecretFill.Data
