import SecretFill.Proofs.Yaml.Atom
import SecretFill.Proofs.Yaml.Outline
/-!
Drawing plain trees. A value with a plain tree that is not nested too deep has an outline, and if
the texts, keys and integers of the tree fit where they stand then so does the outline, whatever
cells it has aliases of.
-/

namespace SecretFill.Data

open SecretFill.Yaml Writing Layout

def Atom.Fits (level : Nat) : Atom → Prop
  | .text written => Page.Foldable (2 * level) written.toList
  | .int number => Decimal.writable number = true
  | _ => True

/-- A key that has no more than the characters in which a reader looks for a colon. -/
def ShortKey (text : List Code) : Prop :=
  isSimpleKey [] (.scalar none ⟨Tag.text, text, false⟩) = true → allowsSingleQuotes text = false →
    (Page.escapedText text).length + 2 ≤ 1024

def Value.FitsKey (level : Nat) : Value → Prop
  | .atom (.text written) => Page.Foldable (2 * level) written.toList ∧ ShortKey written.toList
  | _ => True

inductive Tree.Fits : Nat → Tree → Prop
  | atom {level : Nat} {atom : Atom} (fits : atom.Fits level) : Fits level (.atom atom)
  | list {level : Nat} {items : List Tree} (below : ∀ item ∈ items, Fits (level + 1) item) :
      Fits level (.list items)
  | mapping {level : Nat} {entries : List (Value × Tree)}
      (keys : ∀ entry ∈ entries, entry.1.FitsKey (level + 1))
      (below : ∀ entry ∈ entries, Fits (level + 1) entry.2) : Fits level (.mapping entries)

end SecretFill.Data

namespace SecretFill.Yaml.Outline

open Data Writing Layout

variable {cells : Array Cell} {depth index level : Nat} {met : List Nat}

/-! ### Cases of drawing -/

theorem draw_met (known : index ∈ met) :
    draw cells (depth + 1) (.cell index) met = .ok (.alias index, met) := by
  rw [draw]
  exact if_pos known

theorem draw_list {items : List Value} (found : cells[index]? = some (.list items))
    (fresh : index ∉ met) :
    draw cells (depth + 1) (.cell index) met =
      (drawAll (draw cells depth) items (index :: met)).map fun drawn =>
        (.sequence index drawn.1, drawn.2) := by
  simp only [draw, if_neg fresh, found]
  cases drawAll (draw cells depth) items (index :: met) <;> rfl

theorem draw_mapping {entries : List (Value × Value)}
    (found : cells[index]? = some (.mapping entries)) (fresh : index ∉ met) :
    draw cells (depth + 1) (.cell index) met =
      (drawEntries (draw cells depth) entries (index :: met)).map fun drawn =>
        (.mapping index Tag.mapping drawn.1, drawn.2) := by
  simp only [draw, if_neg fresh, found]
  cases drawEntries (draw cells depth) entries (index :: met) <;> rfl

theorem draw_atom {atom : Atom} {scalar : Layout.Scalar} (written : atomScalar atom = .ok scalar) :
    draw cells (depth + 1) (.atom atom) met = .ok (.scalar none scalar, met) := by
  simp only [draw, written]
  rfl

/-! ### Outlines of plain trees -/

/-- An outline that fits once its aliases have names. -/
def FitsNamed (level : Nat) (outline : Outline) : Prop :=
  ∀ anchors : List Nat, (∀ cell ∈ outline.aliases, cell ∈ anchors) → outline.Fits anchors level

/-- Drawing gives outlines that fit for values with certain trees. -/
def Draw.Succeeds (draw : Draw) (cells : Array Cell) (level : Nat) (tree : Tree) : Prop :=
  ∀ value met, Unfolds cells value tree →
    ∃ outline after, draw value met = .ok (outline, after) ∧ outline.FitsNamed level

theorem mem_itemAliases {item : Outline} {items : List Outline} (member : item ∈ items) {cell : Nat}
    (inside : cell ∈ item.aliases) : cell ∈ itemAliases items := by
  induction items with
  | nil => cases member
  | cons first rest ih =>
      rw [itemAliases]
      rcases List.mem_cons.mp member with rfl | later
      · exact List.mem_append_left _ inside
      · exact List.mem_append_right _ (ih later)

theorem mem_entryAliases {entry : Outline × Outline} {entries : List (Outline × Outline)}
    (member : entry ∈ entries) {cell : Nat} (inside : cell ∈ entry.2.aliases) :
    cell ∈ entryAliases entries := by
  induction entries with
  | nil => cases member
  | cons first rest ih =>
      obtain ⟨key, value⟩ := first
      rw [entryAliases]
      rcases List.mem_cons.mp member with rfl | later
      · exact List.mem_append_left _ (List.mem_append_right _ inside)
      · exact List.mem_append_right _ (ih later)

theorem drawAll_succeeds {draw : Draw} {values : List Value} {trees : List Tree}
    (unfolds : List.Forall₂ (Unfolds cells) values trees)
    (succeeds : ∀ tree ∈ trees, draw.Succeeds cells level tree) (met : List Nat) :
    ∃ outlines after, drawAll draw values met = .ok (outlines, after) ∧
      ∀ outline ∈ outlines, outline.FitsNamed level := by
  induction unfolds generalizing met with
  | nil => exact ⟨[], met, rfl, fun _ member => absurd member List.not_mem_nil⟩
  | @cons value tree values trees one more ih =>
      obtain ⟨here, later⟩ := List.forall_mem_cons.mp succeeds
      obtain ⟨outline, middle, first, fits⟩ := here value met one
      obtain ⟨outlines, after, others, below⟩ := ih later middle
      refine ⟨outline :: outlines, after, ?_, List.forall_mem_cons.mpr ⟨fits, below⟩⟩
      rw [drawAll, first]
      simp only [bind, Except.bind, others]

theorem drawEntries_succeeds {draw : Draw} {entries : List (Value × Value)}
    {trees : List (Value × Tree)}
    (unfolds : List.Forall₂ (EntriesMatch (Unfolds cells)) entries trees)
    (keys : ∀ entry ∈ trees, ∃ key, KeyFits level key ∧ ∀ met, draw entry.1 met = .ok (key, met))
    (succeeds : ∀ entry ∈ trees, draw.Succeeds cells level entry.2) (met : List Nat) :
    ∃ outlines after, drawEntries draw entries met = .ok (outlines, after) ∧
      (∀ entry ∈ outlines, KeyFits level entry.1) ∧
      ∀ entry ∈ outlines, entry.2.FitsNamed level := by
  induction unfolds generalizing met with
  | nil =>
      exact ⟨[], met, rfl, fun _ member => absurd member List.not_mem_nil,
        fun _ member => absurd member List.not_mem_nil⟩
  | @cons entry tree entries trees one more ih =>
      obtain ⟨keyHere, keysLater⟩ := List.forall_mem_cons.mp keys
      obtain ⟨here, later⟩ := List.forall_mem_cons.mp succeeds
      obtain ⟨key, keyFits, drawn⟩ := keyHere
      obtain ⟨outline, middle, first, fits⟩ := here entry.2 met one.2
      obtain ⟨outlines, after, others, keysBelow, below⟩ := ih keysLater later middle
      refine ⟨(key, outline) :: outlines, after, ?_, List.forall_mem_cons.mpr ⟨keyFits, keysBelow⟩,
        List.forall_mem_cons.mpr ⟨fits, below⟩⟩
      obtain ⟨entryKey, entryValue⟩ := entry
      have same : entryKey = tree.1 := one.1
      rw [drawEntries, same, drawn met]
      simp only [bind, Except.bind, first, others]

abbrev textScalar (text : Text) : Layout.Scalar := ⟨Tag.text, text.toList, false⟩

theorem keyFits_text {key : Value} (text : key.isText = true) (fits : key.FitsKey level) :
    ∃ outline, KeyFits level outline ∧
      ∀ met, draw cells (depth + 1) key met = .ok (outline, met) := by
  obtain ⟨written, rfl⟩ := isText_cases text
  obtain ⟨foldable, short⟩ := fits
  exact ⟨.scalar none (textScalar written), .scalar ⟨rfl, .inl rfl⟩ foldable short,
    fun met => draw_atom rfl⟩

theorem atomScalar_ok {atom : Atom} (simple : atom.isSimple = true) (fits : atom.Fits level) :
    ∃ scalar, atomScalar atom = .ok scalar ∧ Page.Foldable (2 * level) scalar.text := by
  cases atom with
  | null => exact ⟨_, rfl, .inr (by decide)⟩
  | bool value => cases value <;> exact ⟨_, rfl, .inr (by decide)⟩
  | int value =>
      have within : Decimal.writable value = true := fits
      have written : atomScalar (.int value) = .ok ⟨Tag.int, Decimal.integerText value, false⟩ := by
        rw [atomScalar, within, if_pos rfl]
      refine ⟨_, written, .inr (hasPair_eq_false _ fun character member => ?_)⟩
      have shown : ∀ character ∈ integerCharacters, (!Page.isShown character) = false := by decide
      exact shown character (mem_integerText member)
  | text value => exact ⟨_, rfl, fits⟩
  | real value => cases simple
  | bytes value => cases simple

theorem draw_succeeds {tree : Tree} {least : Nat} (plain : tree.Plain least)
    (fits : tree.Fits level) (deep : least < depth) : (draw cells depth).Succeeds cells level tree := by
  induction plain generalizing depth level with
  | @atom least atom simple =>
      intro value met unfolds
      cases fits with
      | atom fits =>
          obtain ⟨scalar, written, foldable⟩ := atomScalar_ok simple fits
          obtain ⟨depth, rfl⟩ := Nat.exists_eq_succ_of_ne_zero (Nat.ne_zero_of_lt deep)
          cases unfolds
          exact ⟨_, _, draw_atom written,
            fun anchors _ => .scalar (clear_atomScalar simple written) foldable⟩
  | @list least trees below ih =>
      intro value met unfolds
      cases fits with
      | list fits =>
          obtain ⟨depth, rfl⟩ := Nat.exists_eq_succ_of_ne_zero (Nat.ne_zero_of_lt deep)
          obtain ⟨index, rfl⟩ : ∃ index, value = .cell index := by cases unfolds; exact ⟨_, rfl⟩
          obtain ⟨items, found, inside⟩ := unfolds_list_iff.mp unfolds
          -- What was drawn before is drawn as an alias.
          by_cases known : index ∈ met
          · exact ⟨_, _, draw_met known, fun anchors named => .alias (named index List.mem_cons_self)⟩
          · obtain ⟨outlines, after, drawn, each⟩ := drawAll_succeeds inside
              (fun tree member => ih tree member (fits tree member) (Nat.lt_of_succ_lt_succ deep))
              (index :: met)
            refine ⟨.sequence index outlines, after, ?_, fun anchors named => ?_⟩
            · rw [draw_list found known, drawn]
              rfl
            · apply Fits.sequence
              intro item member
              exact each item member anchors fun cell inItem =>
                named cell (mem_itemAliases member inItem)
  | @mapping least trees keys below ih =>
      intro value met unfolds
      cases fits with
      | mapping keysFit fits =>
          obtain ⟨depth, rfl⟩ := Nat.exists_eq_succ_of_ne_zero (Nat.ne_zero_of_lt deep)
          obtain ⟨index, rfl⟩ : ∃ index, value = .cell index := by cases unfolds; exact ⟨_, rfl⟩
          obtain ⟨entries, found, inside⟩ := unfolds_mapping_iff.mp unfolds
          by_cases known : index ∈ met
          · exact ⟨_, _, draw_met known, fun anchors named => .alias (named index List.mem_cons_self)⟩
          · have below := Nat.lt_of_succ_lt_succ deep
            obtain ⟨inner, rfl⟩ := Nat.exists_eq_succ_of_ne_zero (Nat.ne_zero_of_lt below)
            obtain ⟨outlines, after, drawn, keysDrawn, each⟩ := drawEntries_succeeds inside
              (fun entry member => keyFits_text (keys entry member) (keysFit entry member))
              (fun entry member => ih entry member (fits entry member) below) (index :: met)
            refine ⟨.mapping index Tag.mapping outlines, after, ?_, fun anchors named => ?_⟩
            · rw [draw_mapping found known, drawn]
              rfl
            · apply Fits.mapping keysDrawn
              intro entry member
              exact each entry member anchors fun cell inEntry =>
                named cell (mem_entryAliases member inEntry)

end SecretFill.Yaml.Outline
