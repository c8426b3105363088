import SecretFill.Files.Basic
/-!
Files after one was written: it holds what was written, all others hold what they held, and a path
that led somewhere still leads there.
-/

namespace SecretFill.Files

theorem lookup_entry (present other : Way) (bytes : List UInt8) (rest : List (Way × List UInt8)) :
    ((present, bytes) :: rest).lookup other =
      if other = present then some bytes else rest.lookup other := by
  by_cases same : other = present
  · subst same
    rw [List.lookup_cons_self, if_pos rfl]
  · have apart : (other == present) = false := beq_eq_false_iff_ne.mpr same
    rw [List.lookup_cons, apart, if_neg same]

theorem lookup_go (way : Way) (bytes : List UInt8) (contents : List (Way × List UInt8)) (other : Way) :
    (set.go way bytes contents).lookup other =
      if other = way then some bytes else contents.lookup other := by
  induction contents with
  | nil => exact lookup_entry way other bytes []
  | cons entry rest ih =>
      obtain ⟨present, old⟩ := entry
      by_cases here : present = way
      · subst here
        simp only [set.go, if_true, lookup_entry]
        by_cases same : other = present <;> simp only [same, if_true, if_false]
      · simp only [set.go, if_neg here, lookup_entry, ih]
        by_cases same : other = way
        · have apart : ¬ other = present := fun equal => here (equal.symm.trans same)
          simp only [if_pos same, if_neg apart]
        · simp only [if_neg same]

theorem bytes?_set (files : Files) (way other : Way) (bytes : List UInt8) :
    (files.set way bytes).bytes? other = if other = way then some bytes else files.bytes? other :=
  lookup_go way bytes files.contents other

theorem directories_set (files : Files) (way : Way) (bytes : List UInt8) :
    (files.set way bytes).directories = files.directories := rfl

theorem refusal?_set (files : Files) (written : Way) (bytes : List UInt8) (access : Access)
    (way : Way) : (files.set written bytes).refusal? access way = files.refusal? access way := rfl

theorem write_eq_ok {files after : Files} {path : Text} {bytes : List UInt8}
    (written : files.write path bytes = .ok after) :
    ∃ way old, files.target path.toList = .ok (way, old) ∧ after = files.set way bytes := by
  unfold write at written
  split at written
  · cases written
  · next way old target =>
      cases written
      exact ⟨way, old, target, rfl⟩

def after (written : Way) (bytes : List UInt8) : Place → Place
  | .file way old => .file way (if way = written then bytes else old)
  | .directory way => .directory way
  | .vacant way => if way = written then .file way bytes else .vacant way

theorem place_set (files : Files) (written : Way) (bytes : List UInt8) (way : Way) :
    (files.set written bytes).place way = after written bytes (files.place way) := by
  have same : (files.set written bytes).isDirectory way = files.isDirectory way := rfl
  simp only [place, same]
  by_cases directory : files.isDirectory way = true
  · simp only [if_pos directory]
    rfl
  · simp only [if_neg directory, bytes?_set]
    by_cases here : way = written
    · subst here
      cases files.bytes? way <;> simp [after]
    · cases files.bytes? way <;> simp [after, here]

theorem step_set (files : Files) (written : Way) (bytes : List UInt8) (way : Way)
    (name : List UInt8) :
    (files.set written bytes).step way name = (files.step way name).map (after written bytes) := by
  unfold step
  rw [refusal?_set]
  split
  · rfl
  · split
    · rfl
    · split
      · rfl
      · split
        · rfl
        · split
          · rfl
          · rw [place_set]
            rfl

-- What is vacant leads nowhere further, so a way goes over directories alone, which stay.
theorem follow_set {files : Files} {names : Way} {place reached : Place}
    (written : Way) (bytes : List UInt8) (leads : files.follow place names = .ok reached) :
    (files.set written bytes).follow (after written bytes place) names =
      .ok (after written bytes reached) := by
  induction names generalizing place with
  | nil =>
      cases leads
      rfl
  | cons name rest ih =>
      cases place with
      | file => cases leads
      | vacant => cases leads
      | directory base =>
          cases moved : files.step base name with
          | error fault =>
              simp only [follow, moved] at leads
              cases leads
          | ok next =>
              simp only [follow, moved] at leads
              simp only [after, follow, step_set, moved]
              exact ih leads

theorem find_set {files : Files} {path : List Code} {place : Place} (written : Way)
    (bytes : List UInt8) (found : files.find path = .ok place) :
    (files.set written bytes).find path = .ok (after written bytes place) := by
  have start_after (origin : Origin) : after written bytes (start origin) = start origin := by
    cases origin <;> rfl
  unfold find at found ⊢
  split at found
  · cases found
  · split at found
    · cases found
    · next whole =>
        split at found
        · cases found
        · next filled =>
            split at found
            · cases found
            · next short =>
                rw [if_neg whole, if_neg filled, if_neg short, ← start_after]
                exact follow_set written bytes found

theorem target_eq_ok_iff {files : Files} {path : List Code} {way : Way} {old : List UInt8} :
    let bare := Text.dropEndWhile (fun character : Code => character == '/') path
    files.target path = .ok (way, old) ↔
      ¬ (path ≠ [] ∧ bare = []) ∧ ¬ bare.length < path.length ∧
        files.refusal? .writing way = none ∧
        (files.find bare = .ok (.file way old) ∨ files.find bare = .ok (.vacant way) ∧ old = []) := by
  unfold target
  generalize Text.dropEndWhile (fun character : Code => character == '/') path = bare
  dsimp only
  by_cases named : path ≠ [] ∧ bare = []
  · simp [named]
  rw [if_neg named]
  cases files.find bare with
  | error fault => simp
  | ok place =>
      by_cases slash : bare.length < path.length
      · simp [slash]
      simp only [named, slash, if_false, not_false_eq_true, true_and]
      cases place with
      | directory other => simp
      -- What is left is whether the place may be written.
      | _ =>
          simp only [Except.ok.injEq, Place.file.injEq, Place.vacant.injEq, reduceCtorEq, false_and,
            false_or, or_false]
          constructor
          · intro leads
            split at leads
            · cases leads
            · next allowed =>
                cases leads
                exact ⟨allowed, rfl, rfl⟩
          · rintro ⟨allowed, rfl, rfl⟩
            simp only [allowed]

/-- Where a file was written, the same path leads to what was written. -/
theorem target_set {files : Files} {path : List Code} {way : Way} {old : List UInt8}
    (bytes : List UInt8) (leads : files.target path = .ok (way, old)) :
    (files.set way bytes).target path = .ok (way, bytes) := by
  obtain ⟨named, bare, allowed, place⟩ := target_eq_ok_iff.mp leads
  refine target_eq_ok_iff.mpr ⟨named, bare, allowed, .inl ?_⟩
  -- A file that is written stays where it is, and a vacant place becomes a file.
  rcases place with found | ⟨found, -⟩
  · rw [find_set way bytes found, after, if_pos rfl]
  · rw [find_set way bytes found, after, if_pos rfl]

theorem read_eq_ok {files : Files} {path : List Code} {bytes : List UInt8}
    (given : files.read path = .ok bytes) : ∃ way, files.find path = .ok (.file way bytes) := by
  unfold read at given
  split at given
  · cases given
  · cases given
  · cases given
  · next way held found =>
      split at given
      · cases given
      · cases given
        exact ⟨way, found⟩

end SecretFill.Files
