import SecretFill.Proofs.Interpolation.Passes
/-!
What the passes of all keys record. A pass of one key in one form records the places that are still
open and hold its placeholder, in the order in which it comes to them; after all passes a place is
recorded once, by the first key with a placeholder in its first text, and in braces if one is there.
-/

namespace SecretFill

open SecretFill.Data SecretFill.Forest
open Placeholder (Form)

def formIn (key text : Text) : Form :=
  if Form.braced.occurs key.toList text.toList then .braced else .bare

/-- Of some entries a given one is the first with a placeholder in a text, and it is found in a
given form. -/
def picks (entries : List (Text × Text)) (entry : Text × Text) (form : Form)
    (text : Text) : Bool :=
  entries.find? (fun entry => Placeholder.occurs entry.1.toList text.toList) == some entry &&
    form == formIn entry.1 text

def openPlaces (forest : Forest) (places : List Forest.Place) (test : Text → Bool) : List Forest.Place :=
  places.filter fun place => (forest.openText? place.leaf).any test

def recordsOf (key : Text) (places : List Forest.Place) : List Substitution :=
  places.map fun place => ⟨place.path, key⟩

variable {cells : Array Cell} {plots : List Plot} {forest later : Forest} {places : List Forest.Place}
  {key value : Text} {form : Form} {number : Nat}

theorem openText?_congr (same : later.leaves[number]? = forest.leaves[number]?) :
    later.openText? number = forest.openText? number := by
  simp only [Forest.openText?, same]

theorem openText?_touched
    (leaf : later.leaves[number]? = forest.leaves[number]?.map (touched form key value)) :
    later.openText? number =
      (forest.openText? number).filter fun text => !form.occurs key.toList text.toList := by
  cases opened : forest.openText? number with
  | none =>
      rw [touched_closed opened] at leaf
      rw [openText?_congr leaf, opened]
      rfl
  | some text =>
      rw [openText?_eq_some opened, Option.map_some] at leaf
      by_cases hit : form.occurs key.toList text.toList = true
      · simp [Forest.openText?, leaf, touched, hit, Option.filter_some]
      · simp [Forest.openText?, leaf, touched, hit, Option.filter_some]

theorem openPlaces_congr {test other : Text → Bool}
    (same : ∀ place ∈ places,
      (forest.openText? place.leaf).any test = (later.openText? place.leaf).any other) :
    openPlaces forest places test = openPlaces later places other :=
  List.filter_congr same

/-! ### One pass -/

theorem Walker.visitPlaces_substitutions (distinct : (places.map Forest.Place.leaf).Nodup)
    (walker : Walker)
    (forest : Forest) :
    (places.foldl visitPlace (walker, forest)).1.substitutions =
      walker.substitutions ++ recordsOf walker.key (openPlaces forest places walker.matchesText) := by
  induction places generalizing walker forest with
  | nil => simp [openPlaces, recordsOf]
  | cons place rest ih =>
      obtain ⟨absent, distinct⟩ := List.nodup_cons.mp distinct
      obtain ⟨key, form, -⟩ := visitPlace_walker (walker, forest) place
      have matchesText : (visitPlace (walker, forest) place).1.matchesText = walker.matchesText := by
        funext text
        simp only [Walker.matchesText, key, form]
      -- The other places are at other leaves, so what is done here does not touch them.
      have others : openPlaces (visitPlace (walker, forest) place).2 rest walker.matchesText =
          openPlaces forest rest walker.matchesText := by
        refine openPlaces_congr fun other member => ?_
        have apart : other.leaf ≠ place.leaf := fun same =>
          absent (same ▸ List.mem_map_of_mem member)
        have kept := visitPlace_leaf walker forest place other.leaf
        rw [if_neg apart] at kept
        rw [openText?_congr kept]
      have here : (visitPlace (walker, forest) place).1.substitutions =
          walker.substitutions ++
            recordsOf walker.key (openPlaces forest [place] walker.matchesText) := by
        cases opened : forest.openText? place.leaf with
        | none => simp [visitPlace, openPlaces, recordsOf, opened]
        | some text =>
            by_cases hit : walker.matchesText text = true
            · simp [visitPlace, openPlaces, recordsOf, opened, hit]
            · simp [visitPlace, openPlaces, recordsOf, opened, hit]
      have whole : openPlaces forest (place :: rest) walker.matchesText =
          openPlaces forest [place] walker.matchesText ++
            openPlaces forest rest walker.matchesText :=
        List.filter_append [place] rest
      rw [List.foldl_cons, ih distinct, key, matchesText, others, here, whole, recordsOf, recordsOf,
        recordsOf, List.map_append, List.append_assoc]

section Passes

variable (state : List Substitution × Forest)

theorem applyForm_substitutions
    (distinct : ((route state.2 cells plots []).1.map Forest.Place.leaf).Nodup) :
    (applyForm cells plots key value state form).1 =
      state.1 ++ recordsOf key (openPlaces state.2 (route state.2 cells plots []).1
        fun text => form.occurs key.toList text.toList) := by
  have made := Walker.visitPlaces_substitutions distinct
    ((Walker.new key form value).having (route state.2 cells plots []).2) state.2
  simp only [applyForm]
  rw [Walker.visitAll_eq]
  exact congrArg (state.1 ++ ·) made

theorem applyForm_openText?
    (onRoute : number ∈ (route state.2 cells plots []).1.map Forest.Place.leaf) :
    (applyForm cells plots key value state form).2.openText? number =
      (state.2.openText? number).filter fun text => !form.occurs key.toList text.toList := by
  have leaf := applyForm_leaf cells plots key value state form number
  rw [if_pos onRoute] at leaf
  exact openText?_touched leaf

end Passes

/-! ### All passes -/

variable {entry other : Text × Text} {rest : List (Text × Text)}

theorem picks_braced : picks (entry :: rest) entry .braced =
    fun text => Form.braced.occurs entry.1.toList text.toList := by
  funext text
  by_cases braced : Form.braced.occurs entry.1.toList text.toList = true
  · simp [picks, formIn, Placeholder.occurs, braced]
  · simp [picks, formIn, braced]

theorem picks_bare (absent : entry ∉ rest) : picks (entry :: rest) entry .bare = fun text =>
    !Form.braced.occurs entry.1.toList text.toList &&
      Form.bare.occurs entry.1.toList text.toList := by
  funext text
  have missing : rest.find? (fun entry => Placeholder.occurs entry.1.toList text.toList) ≠
      some entry := fun found => absent (List.mem_of_find?_eq_some found)
  by_cases braced : Form.braced.occurs entry.1.toList text.toList = true
  · simp [picks, formIn, braced]
  · by_cases bare : Form.bare.occurs entry.1.toList text.toList = true
    · simp [picks, formIn, Placeholder.occurs, braced, bare]
    · have none : Placeholder.occurs entry.1.toList text.toList = false := by
        simp [Placeholder.occurs, braced, bare]
      simp [picks, none, missing, bare]

theorem picks_later (differs : entry ≠ other) : picks (entry :: rest) other form = fun text =>
    !Placeholder.occurs entry.1.toList text.toList && picks rest other form text := by
  funext text
  by_cases hit : Placeholder.occurs entry.1.toList text.toList = true
  · simp [picks, hit, differs]
  · simp [picks, hit]

theorem applyKeys_substitutions {entries : List (Text × Text)} (unequal : entries.Nodup)
    (state : List Substitution × Forest) (places : List Forest.Place)
    (along : (route state.2 cells plots []).1 = places)
    (distinct : (places.map Forest.Place.leaf).Nodup) :
    (entries.foldl (applyKey cells plots) state).1 =
      state.1 ++ entries.flatMap fun entry => [Form.braced, .bare].flatMap fun form =>
        recordsOf entry.1 (openPlaces state.2 places (picks entries entry form)) := by
  induction entries generalizing state with
  | nil => simp
  | cons entry rest ih =>
      obtain ⟨absent, unequal⟩ := List.nodup_cons.mp unequal
      -- One key makes two passes, and the second finds only what the first has left open.
      let middle := applyForm cells plots entry.1 entry.2 state .braced
      let next := applyForm cells plots entry.1 entry.2 middle .bare
      have onward : applyKey cells plots state entry = next := rfl
      have along' : (route middle.2 cells plots []).1 = places := by
        rw [← along, route_congr (applyForm_branches cells plots entry.1 entry.2 state .braced)]
      have along'' : (route next.2 cells plots []).1 = places := by
        rw [← along', route_congr (applyForm_branches cells plots entry.1 entry.2 middle .bare)]
      have once : ∀ place ∈ places, middle.2.openText? place.leaf =
          (state.2.openText? place.leaf).filter
            fun text => !Form.braced.occurs entry.1.toList text.toList := fun place member =>
        applyForm_openText? state (along ▸ List.mem_map_of_mem member)
      have twice : ∀ place ∈ places, next.2.openText? place.leaf =
          (middle.2.openText? place.leaf).filter
            fun text => !Form.bare.occurs entry.1.toList text.toList := fun place member =>
        applyForm_openText? middle (along' ▸ List.mem_map_of_mem member)
      have braced : middle.1 = state.1 ++ recordsOf entry.1
          (openPlaces state.2 places (picks (entry :: rest) entry .braced)) := by
        rw [picks_braced, ← along]
        exact applyForm_substitutions state (along ▸ distinct)
      have bare : next.1 = middle.1 ++ recordsOf entry.1
          (openPlaces state.2 places (picks (entry :: rest) entry .bare)) := by
        have made : next.1 = middle.1 ++ recordsOf entry.1 (openPlaces middle.2 places
            fun text => Form.bare.occurs entry.1.toList text.toList) := by
          rw [← along']
          exact applyForm_substitutions middle (along' ▸ distinct)
        rw [made, picks_bare absent, openPlaces_congr fun place member => ?_]
        rw [once place member, Option.any_filter]
      -- For the other keys, an open leaf is one whose text has no placeholder of this key.
      have others : (rest.flatMap fun other => [Form.braced, .bare].flatMap fun form =>
          recordsOf other.1 (openPlaces next.2 places (picks rest other form))) =
          rest.flatMap fun other => [Form.braced, .bare].flatMap fun form =>
            recordsOf other.1 (openPlaces state.2 places (picks (entry :: rest) other form)) := by
        refine List.flatMap_congr fun other member => List.flatMap_congr fun form _ => ?_
        have differs : entry ≠ other := fun same => absent (same ▸ member)
        rw [picks_later differs, openPlaces_congr fun place member => ?_]
        rw [twice place member, once place member, Option.any_filter, Option.any_filter]
        simp only [Placeholder.occurs, Bool.not_or, Bool.and_assoc]
      rw [List.foldl_cons, onward, ih unequal next along'', bare, braced, others]
      simp [List.append_assoc]

end SecretFill
