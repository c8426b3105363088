import SecretFill.Proofs.Yaml.Scalar
/-!
Outlines as they are written and scanned. What the writer makes of an outline is read as the tokens
of that outline; the layout of the page shows in them at one place only, where a list is the value
of a key.
-/

namespace SecretFill.Yaml

open Layout Writing
open Token (Kind openingKinds openedBlocks)

/-! ### Parts of a block -/

/-- What is written at a column of a page is read as a part of a block there: an item or an entry.
-/
structure Page.Begins (page : Page) (column : Nat) (opening : Kind) (kinds : List Kind)
    (after : Page) : Prop where
  used : after.fresh = false
  core : ∃ core, Starts core ∧ page.Adds core after ∧
    ∀ outer : Int, outer ≤ column → ∀ (count : Nat) (rest : List Code), Token.Scan.Opens rest →
      Token.Ends column count rest → ∀ (before : List Kind) (indents : List Int),
      (⟨core ++ Code.char '\n' :: (List.replicate count (Code.char ' ') ++ rest), column, before,
          outer, indents,
          true⟩ : Token.Spot).Leads
        ⟨rest, count, before ++ openingKinds outer column opening ++ kinds, column,
          openedBlocks outer column indents, true⟩

/-- What is written behind a part of a block is read as further parts. -/
structure Page.Follows (page : Page) (column : Nat) (kinds : List Kind) (after : Page) : Prop where
  used : after.fresh = false
  more : ∃ body, page.Adds body after ∧ ∀ (count : Nat) (rest : List Code), Token.Scan.Opens rest →
    Token.Ends column count rest → ∃ next later,
      body ++ Code.char '\n' :: (List.replicate count (Code.char ' ') ++ rest) =
        Code.char '\n' :: (List.replicate next (Code.char ' ') ++ later) ∧
      Token.Scan.Opens later ∧ Token.Ends column next later ∧
      ∀ (before : List Kind) (indents : List Int),
        (⟨later, next, before, column, indents, true⟩ : Token.Spot).Leads
          ⟨rest, count, before ++ kinds, column, indents, true⟩

theorem openingKinds_self (column : Nat) (opening : Kind) :
    openingKinds column column opening = [] := by
  rw [openingKinds, if_neg (Int.lt_irrefl _)]

theorem openedBlocks_self (column : Nat) (indents : List Int) :
    openedBlocks column column indents = indents := by
  rw [openedBlocks, if_neg (Int.lt_irrefl _)]

namespace Page

section
variable {page middle after : Page} {column : Nat} {opening : Kind} {kinds later : List Kind}

theorem follows_nil (used : page.fresh = false) : page.Follows column [] page := by
  refine ⟨used, [], .refl page, fun count rest opens ends => ?_⟩
  refine ⟨count, rest, rfl, opens, ends, fun before indents => ?_⟩
  rw [List.append_nil]
  exact Token.leads_refl _

theorem Begins.append (one : page.Begins column opening kinds middle)
    (more : middle.Follows column later after) :
    page.Begins column opening (kinds ++ later) after := by
  obtain ⟨core, starts, first, reads⟩ := one.core
  obtain ⟨body, second, goes⟩ := more.more
  refine ⟨more.used, _, starts.append body, first.trans second, ?_⟩
  intro outer inside count rest opens ends before indents
  obtain ⟨next, text, same, opens', ends', leads⟩ := goes count rest opens ends
  have start := reads outer inside next text opens' ends' before indents
  rw [← same] at start
  simpa only [List.append_assoc] using start.trans (leads _ _)

theorem Begins.follows (one : (page.newLine column).Begins column opening kinds after)
    (used : page.fresh = false) : page.Follows column kinds after := by
  obtain ⟨core, starts, adds, reads⟩ := one.core
  obtain ⟨line, -⟩ := @newLine_breaks page column (.inl used)
  refine ⟨one.used, _, line.trans adds, fun count rest opens ends => ?_⟩
  refine ⟨column, core ++ Code.char '\n' :: (List.replicate count (Code.char ' ') ++ rest), by simp,
      starts.opens _,
    .inl (Int.le_refl _), fun before indents => ?_⟩
  have leads := reads column (Int.le_refl _) count rest opens ends before indents
  rwa [openingKinds_self, openedBlocks_self, List.append_nil] at leads

theorem Follows.append (one : page.Follows column kinds middle)
    (more : middle.Follows column later after) : page.Follows column (kinds ++ later) after := by
  obtain ⟨first, adds, goes⟩ := one.more
  obtain ⟨second, further, leaves⟩ := more.more
  refine ⟨more.used, _, adds.trans further, fun count rest opens ends => ?_⟩
  obtain ⟨middle, text, same, opens', ends', last⟩ := leaves count rest opens ends
  obtain ⟨next, start, same', opens'', ends'', leads⟩ := goes middle text opens' ends'
  refine ⟨next, start, ?_, opens'', ends'', fun before indents => ?_⟩
  · rw [List.append_assoc, same, same']
  · have together := (leads before indents).trans (last _ _)
    rwa [List.append_assoc] at together

end

/-! ### Where a node is to be written -/

inductive Awaits (page : Page) (place : Writing.Place) : Prop
  | start (root : place.indent = none) (opens : page.Opens 0)
  | behind {column : Nat} (indent : place.indent = some column) (deep : page.column = column + 1)
      (close : page.spaced = false) (fresh : page.fresh = true)
  | used (deep : place.outer < page.column) (close : page.spaced = false)
      (used : page.fresh = false)

variable {page : Page} {place : Writing.Place}

theorem Awaits.deep (awaits : page.Awaits place) : place.outer < page.column := by
  cases awaits with
  | start root opens =>
      rw [Writing.Place.outer, root, opens.column]
      decide
  | @behind column indent deep close fresh =>
      rw [Writing.Place.outer, indent, deep]
      exact (by omega : (column : Int) < ((column + 1 : Nat) : Int))
  | used deep close used => exact deep

theorem awaits_behind {column : Nat} (opens : page.Opens column) (characters : List Code)
    (single : characters.length = 1) ( inMapping isKey : Bool) :
    (page.indicator characters true true).Awaits ⟨some column, inMapping, isKey⟩ := by
  refine .behind rfl ?_ rfl ?_
  · simp [indicator, opens.spaced, opens.column, write, single]
  · simp [opens.fresh]

theorem newLine_of_awaits (awaits : page.Awaits place) ( isIndentless : Bool)
    (indentless : isIndentless = true → page.fresh = false) :
    let column := place.blockIndent isIndentless
    ∃ between crossed, Token.Scan.Gap between crossed ∧ page.Adds between (page.newLine column) ∧
      (page.newLine column).Opens column ∧ (between ≠ [] ↔ page.spaced = false) ∧
      (page.fresh || crossed) = true := by
  intro column
  -- A block starts where it stands, behind an indicator on its line, or on a line of its own.
  cases awaits with
  | start root opens =>
      have none : column = 0 := by simp only [column, Writing.Place.blockIndent, root]
      rw [none, newLine_stays opens]
      refine ⟨[], false, .spaces 0, .refl page, opens, ?_, ?_⟩
      · simp [opens.spaced]
      · rw [opens.fresh]
        rfl
  | @behind outer indent deep close fresh =>
      have apart : isIndentless = false := by
        cases isIndentless with
        | false => rfl
        | true => rw [indentless rfl] at fresh; cases fresh
      have inner : column = outer + 2 := by
        simp only [column, Writing.Place.blockIndent, indent, apart, Bool.false_eq_true, if_false]
      obtain ⟨adds, opens⟩ := @newLine_fills page column fresh (by omega)
      refine ⟨_, false, .spaces _, adds, opens, iff_of_true ?_ close, ?_⟩
      · rw [inner, deep, Nat.add_sub_add_left]
        exact List.cons_ne_nil _ _
      · rw [fresh]
        rfl
  | used deep close used =>
      obtain ⟨adds, opens⟩ := @newLine_breaks page column (.inl used)
      exact ⟨_, true, .line _, adds, opens, iff_of_true (List.cons_ne_nil _ _) close, Bool.or_true _⟩

theorem outer_le_blockIndent (place : Writing.Place) ( isIndentless : Bool) :
    place.outer ≤ place.blockIndent isIndentless := by
  obtain ⟨indent, inMapping, isKey⟩ := place
  cases indent with
  | none => exact (by decide : (-1 : Int) ≤ (0 : Nat))
  | some indent =>
      cases isIndentless with
      | true => exact Int.le_refl _
      | false => exact (by omega : (indent : Int) ≤ ((indent + 2 : Nat) : Int))

theorem outer_lt_blockIndent (place : Writing.Place) : place.outer < place.blockIndent false := by
  obtain ⟨indent, inMapping, isKey⟩ := place
  cases indent with
  | none => exact (by decide : (-1 : Int) < (0 : Nat))
  | some indent => exact (by omega : (indent : Int) < ((indent + 2 : Nat) : Int))

theorem least_outer (place : Writing.Place) : -1 ≤ place.outer := by
  obtain ⟨indent, inMapping, isKey⟩ := place
  cases indent with
  | none => exact Int.le_refl _
  | some indent => exact (by omega : (-1 : Int) ≤ (indent : Int))

theorem ends_of_le {outer inner : Int} {count : Nat} {rest : List Code} (inside : outer ≤ inner)
    (ends : Token.Ends outer count rest) : Token.Ends inner count rest := by
  rcases ends with shallow | boundary
  · exact .inl (Int.le_trans shallow inside)
  · exact .inr boundary

/-- The parts of a block are a node: with a start and an end if the block is deeper than what it
is in, without them if it is not. -/
theorem Begins.puts {opening : Kind} {kinds : List Kind} {after : Page} {isIndentless : Bool}
    (awaits : page.Awaits place) (indentless : isIndentless = true → page.fresh = false)
    (block : (page.newLine (place.blockIndent isIndentless)).Begins (place.blockIndent isIndentless)
      opening kinds after) :
    (place.outer < place.blockIndent isIndentless →
      page.Puts place.outer (opening :: kinds ++ [.blockEnd]) after) ∧
    (place.outer = place.blockIndent isIndentless → page.Puts place.outer kinds after) := by
  obtain ⟨between, crossed, gap, line, opens, filled, allowed⟩ := newLine_of_awaits awaits _ indentless
  obtain ⟨core, starts, adds, reads⟩ := block.core
  have column : columnOver page.column between = place.blockIndent isIndentless :=
    line.column.symm.trans opens.column
  have inside := outer_le_blockIndent place isIndentless
  constructor
  · -- A deeper block has a start and an end of its own.
    intro deeper
    refine ⟨block.used, between, crossed, core, gap, filled, starts, line.trans adds, ?_⟩
    rw [allowed, column]
    intro count rest opens ends before indents
    have leads := reads _ inside count rest opens (ends_of_le inside ends) before indents
    rw [openingKinds, openedBlocks, if_pos deeper, if_pos deeper] at leads
    have pops := @Token.leads_pop rest count (before ++ [opening] ++ kinds) _ _ indents true deeper
      (least_outer place) ends
    simpa only [List.append_assoc, List.cons_append, List.nil_append] using leads.trans pops
  · -- A block at the same column goes on with the one around it.
    intro same
    refine ⟨block.used, between, crossed, core, gap, filled, starts, line.trans adds, ?_⟩
    rw [allowed, column]
    intro count rest opens ends before indents
    have leads := reads _ inside count rest opens (ends_of_le inside ends) before indents
    rw [same, openingKinds_self, openedBlocks_self, List.append_nil] at leads
    rw [same]
    exact leads

end Page

end SecretFill.Yaml
