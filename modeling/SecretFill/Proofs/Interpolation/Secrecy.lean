import SecretFill.Proofs.Interpolation.Substitution
/-!
Values stay in the text. Two interpolations with the same keys and other values go the same way:
their forests differ only in leaves that both have replaced (`Alike`), and such leaves are never
looked at again.
-/

namespace SecretFill

open SecretFill.Data SecretFill.Forest
open Placeholder (Form)

def AlikeLeaves : Option Leaf → Option Leaf → Prop
  | some first, some second => first = second ∨ first.substituted = true ∧ second.substituted = true
  | first, second => first = second

structure Forest.Alike (first second : Forest) : Prop where
  branches : first.branches = second.branches
  leaves : ∀ number : Nat, AlikeLeaves first.leaves[number]? second.leaves[number]?

theorem alikeLeaves_refl (leaf : Option Leaf) : AlikeLeaves leaf leaf := by
  cases leaf with
  | none => rfl
  | some leaf => exact .inl rfl

theorem alike_refl (forest : Forest) : Alike forest forest :=
  ⟨rfl, fun _ => alikeLeaves_refl _⟩

theorem Forest.Alike.openText? {first second : Forest} (alike : Alike first second) (number : Nat) :
    first.openText? number = second.openText? number := by
  have leaves := alike.leaves number
  unfold Forest.openText?
  generalize first.leaves[number]? = one at leaves
  generalize second.leaves[number]? = other at leaves
  cases one with
  | none =>
      cases other with
      | none => rfl
      | some leaf => cases leaves
  | some leaf =>
      cases other with
      | none => cases leaves
      | some twin =>
          -- The leaves are one and the same, or both are closed.
          rcases leaves with rfl | ⟨replaced, replaced'⟩
          · rfl
          · obtain ⟨value, substituted⟩ := leaf
            obtain ⟨value', substituted'⟩ := twin
            cases replaced
            cases replaced'
            simp

theorem Forest.Alike.substitute {first second : Forest} (alike : Alike first second) (number : Nat)
    (value other : Text) :
    Alike (first.substitute number value) (second.substitute number other) := by
  refine ⟨alike.branches, fun place => ?_⟩
  have leaves := alike.leaves place
  simp only [Forest.substitute, Array.getElem?_setIfInBounds]
  -- Both leaves close at one place, and which texts they get is not compared.
  by_cases same : number = place
  · subst same
    rw [if_pos rfl, if_pos rfl]
    by_cases inside : number < first.leaves.size
    · have found := Array.getElem?_eq_getElem inside
      rw [found] at leaves
      cases there : second.leaves[number]? with
      | none =>
          rw [there] at leaves
          cases leaves
      | some leaf =>
          rw [if_pos inside, if_pos (Array.getElem?_eq_some_iff.mp there).1]
          exact .inr ⟨rfl, rfl⟩
    · have absent := Array.getElem?_eq_none (Nat.le_of_not_lt inside)
      rw [absent] at leaves
      cases there : second.leaves[number]? with
      | some leaf =>
          rw [there] at leaves
          cases leaves
      | none =>
          rw [if_neg inside, if_neg (Nat.not_lt.mpr (Array.getElem?_eq_none_iff.mp there))]
          rfl
  · rw [if_neg same, if_neg same]
    exact leaves

/-- Two walkers that look for the same and have found the same. -/
structure Walker.Alike (first second : Walker) : Prop where
  key : first.key = second.key
  form : first.form = second.form
  visited : first.visited = second.visited
  substitutions : first.substitutions = second.substitutions

theorem visitPlace_alike {first second : Walker} {one other : Forest}
    (walkers : first.Alike second) (forests : one.Alike other) (place : Forest.Place) :
    (Walker.visitPlace (first, one) place).1.Alike (Walker.visitPlace (second, other) place).1 ∧
      (Walker.visitPlace (first, one) place).2.Alike (Walker.visitPlace (second, other) place).2 := by
  have opened := forests.openText? place.leaf
  simp only [Walker.visitPlace, opened]
  cases other.openText? place.leaf with
  | none => exact ⟨walkers, forests⟩
  | some text =>
      have matching : first.matchesText text = second.matchesText text := by
        simp only [Walker.matchesText, walkers.key, walkers.form]
      dsimp only
      by_cases hit : second.matchesText text = true
      · rw [matching, if_pos hit, if_pos hit]
        refine ⟨⟨walkers.key, walkers.form, walkers.visited, ?_⟩, forests.substitute _ _ _⟩
        simp only [walkers.substitutions, walkers.key]
      · rw [matching, if_neg hit, if_neg hit]
        exact ⟨walkers, forests⟩

theorem visitPlaces_alike {first second : Walker} {one other : Forest}
    (walkers : first.Alike second) (forests : one.Alike other) (places : List Forest.Place) :
    (places.foldl Walker.visitPlace (first, one)).1.Alike
        (places.foldl Walker.visitPlace (second, other)).1 ∧
      (places.foldl Walker.visitPlace (first, one)).2.Alike
        (places.foldl Walker.visitPlace (second, other)).2 := by
  induction places generalizing first second one other with
  | nil => exact ⟨walkers, forests⟩
  | cons place rest ih =>
      obtain ⟨walkers', forests'⟩ := visitPlace_alike walkers forests place
      exact ih walkers' forests'

/-- The records of two interpolations are the same, and their forests are alike. -/
def AlikeStates (first second : List Substitution × Forest) : Prop :=
  first.1 = second.1 ∧ first.2.Alike second.2

theorem applyForm_alike (cells : Array Cell) (plots : List Plot) (key value other : Text)
    {first second : List Substitution × Forest} (alike : AlikeStates first second) (form : Form) :
    AlikeStates (applyForm cells plots key value first form)
      (applyForm cells plots key other second form) := by
  obtain ⟨records, forests⟩ := alike
  simp only [applyForm]
  rw [Walker.visitAll_eq, Walker.visitAll_eq, route_congr forests.branches]
  have started : Walker.Alike
      ((Walker.new key form value).having (route second.2 cells plots []).2)
      ((Walker.new key form other).having (route second.2 cells plots []).2) := ⟨rfl, rfl, rfl, rfl⟩
  obtain ⟨walkers', forests'⟩ := visitPlaces_alike started forests (route second.2 cells plots []).1
  refine ⟨?_, forests'⟩
  show first.1 ++ _ = second.1 ++ _
  rw [records]
  exact congrArg (second.1 ++ ·) walkers'.substitutions

theorem applyKey_alike (cells : Array Cell) (plots : List Plot) {entry twin : Text × Text}
    (key : entry.1 = twin.1) {first second : List Substitution × Forest}
    (alike : AlikeStates first second) :
    AlikeStates (applyKey cells plots first entry) (applyKey cells plots second twin) := by
  simp only [applyKey, List.foldl_cons, List.foldl_nil, key]
  exact applyForm_alike cells plots _ _ _ (applyForm_alike cells plots _ _ _ alike .braced) .bare

theorem applyKeys_alike (cells : Array Cell) (plots : List Plot)
    {entries twins : List (Text × Text)} (keys : entries.map Prod.fst = twins.map Prod.fst)
    {first second : List Substitution × Forest} (alike : AlikeStates first second) :
    AlikeStates (entries.foldl (applyKey cells plots) first)
      (twins.foldl (applyKey cells plots) second) := by
  induction entries generalizing twins first second with
  | nil =>
      rw [List.map_eq_nil_iff.mp keys.symm]
      exact alike
  | cons entry rest ih =>
      cases twins with
      | nil => cases keys
      | cons twin others =>
          obtain ⟨key, keys⟩ := List.cons.inj keys
          exact ih keys (applyKey_alike cells plots key alike)

theorem map_longestFirst (map : SubstitutionMap) :
    map.longestFirst.map Prod.fst =
      (map.map Prod.fst).mergeSort fun first second => decide (second.length ≤ first.length) :=
  List.map_mergeSort fun _ _ _ _ => rfl

theorem keys_longestFirst {first second : SubstitutionMap}
    (keys : first.map Prod.fst = second.map Prod.fst) :
    first.longestFirst.map Prod.fst = second.longestFirst.map Prod.fst := by
  rw [map_longestFirst, map_longestFirst, keys]

theorem plantAll_readable {cells : Array Cell} {count index : Nat} {roots : List Value}
    {forest : Forest} {error : InterpolationError}
    (failed : plantAll cells count index roots forest = .error error) (fault : Yaml.WriteError) :
    error ≠ .unwritable fault := by
  induction roots generalizing index forest with
  | nil => cases failed
  | cons root rest ih =>
      simp only [plantAll] at failed
      split at failed
      · cases failed
        exact InterpolationError.noConfusion
      · cases failed
        exact InterpolationError.noConfusion
      · rcases planted : plantAll cells count (index + 1) rest _ with error' | pair
        · rw [planted] at failed
          cases failed
          exact ih planted
        · rw [planted] at failed
          cases failed

theorem substitute_alike {first second : SubstitutionMap}
    (keys : first.map Prod.fst = second.map Prod.fst) (stream : Stream) :
    (∃ error, (∀ fault, error ≠ .unwritable fault) ∧ substitute first stream = .error error ∧
        substitute second stream = .error error) ∨
      ∃ one other substitutions, substitute first stream = .ok (one, substitutions) ∧
        substitute second stream = .ok (other, substitutions) := by
  cases planted : plantAll stream.cells stream.roots.length 0 stream.roots Forest.empty with
  | error error =>
      refine .inl ⟨error, plantAll_readable planted, ?_, ?_⟩
      · simp only [substitute, planted]
        rfl
      · simp only [substitute, planted]
        rfl
  | ok pair =>
      obtain ⟨plots, forest⟩ := pair
      obtain ⟨substitutions, one, ended, passes⟩ := substitute_of_planted first planted
      obtain ⟨substitutions', other, ended', passes'⟩ := substitute_of_planted second planted
      -- Both substitutions begin with the same forest, and each pass keeps them alike.
      have started : AlikeStates ([], forest) ([], forest) := ⟨rfl, alike_refl forest⟩
      have alike := applyKeys_alike stream.cells plots (keys_longestFirst keys) started
      rw [passes, passes'] at alike
      obtain ⟨records, -⟩ := alike
      cases records
      exact .inr ⟨_, _, _, ended, ended'⟩

/-- What an interpolation that comes to its end tells, apart from the document. -/
def Tells (log : List Log.Record) (substitutions : List Substitution)
    (ended : Logged InterpolationError Report) : Prop :=
  (∃ fault, ended.outcome = .error (.unwritable fault)) ∨
    ∃ document, ended = ⟨log, .ok ⟨document, substitutions⟩⟩

theorem interpolate_tells {map : SubstitutionMap} {text source : Text} (verbose : Bool)
    {stream result : Stream} {substitutions : List Substitution}
    (read : readDocuments text source = .ok stream) (filled : ¬ stream.roots.isEmpty = true)
    (ended : substitute map stream = .ok (result, substitutions)) :
    Tells (substitutions.map (substitutionRecord verbose) ++
        [Log.progress verbose ("Interpolated " ++ toString substitutions.length ++
          " value(s) in " ++ source ++ " using " ++ toString map.length ++ " key(s)")])
      substitutions (interpolate text map verbose source) := by
  simp only [interpolate, read, Logged.andThen, Logged.ofExcept, if_neg filled, ended]
  cases Yaml.write result with
  | error fault => exact .inl ⟨fault, rfl⟩
  | ok document => exact .inr ⟨document, rfl⟩

/-- Interpolations with the same keys fail alike before anything is written, or tell the same. -/
theorem interpolate_alike {first second : SubstitutionMap}
    (keys : first.map Prod.fst = second.map Prod.fst) (text : Text) (verbose : Bool)
    (source : Text) :
    (∃ error, (∀ fault, error ≠ .unwritable fault) ∧
        interpolate text first verbose source = ⟨[], .error error⟩ ∧
        interpolate text second verbose source = ⟨[], .error error⟩) ∨
      ∃ log substitutions, Tells log substitutions (interpolate text first verbose source) ∧
        Tells log substitutions (interpolate text second verbose source) := by
  -- Reading and planting do not see the values, and substitution sees only their keys.
  cases read : readDocuments text source with
  | error error =>
      refine .inl ⟨error, ?_, ?_, ?_⟩
      · intro fault
        simp only [readDocuments] at read
        split at read <;> cases read <;> exact InterpolationError.noConfusion
      · simp only [interpolate, read]
        rfl
      · simp only [interpolate, read]
        rfl
  | ok stream =>
      by_cases empty : stream.roots.isEmpty = true
      · have unchanged (map : SubstitutionMap) : interpolate text map verbose source =
            ⟨[Log.debug ("No YAML content in " ++ source ++ ", leaving it unchanged")],
              .ok ⟨text, []⟩⟩ := by
          simp only [interpolate, read, Logged.andThen, Logged.ofExcept, if_pos empty]
          rfl
        exact .inr ⟨_, _, .inr ⟨_, unchanged first⟩, .inr ⟨_, unchanged second⟩⟩
      · rcases substitute_alike keys stream with
          ⟨error, early, failed, failed'⟩ | ⟨one, other, substitutions, ended, ended'⟩
        · refine .inl ⟨error, early, ?_, ?_⟩
          · simp only [interpolate, read, Logged.andThen, Logged.ofExcept, if_neg empty, failed]
            rfl
          · simp only [interpolate, read, Logged.andThen, Logged.ofExcept, if_neg empty, failed']
            rfl
        · have size : second.length = first.length := by
            simpa using congrArg List.length keys.symm
          have tells := interpolate_tells verbose read empty ended
          have tells' := interpolate_tells verbose read empty ended'
          rw [size] at tells'
          exact .inr ⟨_, substitutions, tells, tells'⟩

theorem reports_alike {first second : SubstitutionMap}
    (keys : first.map Prod.fst = second.map Prod.fst) {text source : Text} {verbose : Bool}
    {report other : Report} (one : (interpolate text first verbose source).outcome = .ok report)
    (two : (interpolate text second verbose source).outcome = .ok other) :
    report.substitutions = other.substitutions ∧
      (interpolate text first verbose source).log =
        (interpolate text second verbose source).log := by
  rcases interpolate_alike keys text verbose source with
    ⟨error, -, failed, -⟩ | ⟨log, substitutions, tells, tells'⟩
  · rw [failed] at one
    cases one
  · rcases tells with ⟨fault, failed⟩ | ⟨document, ended⟩
    · rw [failed] at one
      cases one
    · rcases tells' with ⟨fault, failed⟩ | ⟨document', ended'⟩
      · rw [failed] at two
        cases two
      · rw [ended] at one ⊢
        rw [ended'] at two ⊢
        cases one
        cases two
        exact ⟨rfl, rfl⟩

theorem error_of_alike {first second : SubstitutionMap}
    (keys : first.map Prod.fst = second.map Prod.fst) {text source : Text} {verbose : Bool}
    {error : InterpolationError} (early : ∀ fault, error ≠ .unwritable fault)
    (failed : (interpolate text first verbose source).outcome = .error error) :
    (interpolate text second verbose source).outcome = .error error := by
  rcases interpolate_alike keys text verbose source with
    ⟨error', -, one, two⟩ | ⟨log, substitutions, tells, -⟩
  · rw [one] at failed
    cases failed
    rw [two]
  · rcases tells with ⟨fault, unwritable⟩ | ⟨document, ended⟩
    · rw [unwritable] at failed
      cases failed
      exact absurd rfl (early fault)
    · rw [ended] at failed
      cases failed

end SecretFill
