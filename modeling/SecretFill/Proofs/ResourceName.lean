import SecretFill.Proofs.Outcome
import SecretFill.Proofs.Text.Pieces
import SecretFill.Proofs.Text.Trimming
import SecretFill.Secret.Manager
/-!
The names that locators stand for. White space and then slashes are trimmed off a locator, and the
pieces between its slashes have one of four shapes or stand for no name at all. A name that is
resolved again is trimmed again, so it comes back unless trimming the slashes of the locator left a
blank at its end.
-/

namespace SecretFill

open SecretFill.Text

namespace ResourceName

def pieces (name : ResourceName) : List (List Code) :=
  [projects, name.project, secrets, name.secret, versions, name.version]

def Solid (name : ResourceName) : Prop := ∀ piece ∈ name.pieces, piece ≠ [] ∧ Code.char '/' ∉ piece

/-- The pieces of a locator: between slashes, when white space and then slashes are trimmed. -/
def Segmented (locator : Text) (parts : List (List Code)) : Prop :=
  ∃ solid bare, Trims isBlank locator.toList solid ∧
    Trims (fun character : Code => character == '/') solid bare ∧ Cuts ['/'] bare parts

inductive Shape : List (List Code) → ResourceName → Prop
  | full (project secret version : List Code) :
      Shape [projects, project, secrets, secret, versions, version] ⟨project, secret, version⟩
  | fullLatest (project secret : List Code) :
      Shape [projects, project, secrets, secret] ⟨project, secret, latest⟩
  | short {project : List Code} (secret version : List Code) (other : project ≠ projects) :
      Shape [project, secret, version] ⟨project, secret, version⟩
  | shortLatest {project : List Code} (secret : List Code) (other : project ≠ projects) :
      Shape [project, secret] ⟨project, secret, latest⟩

def StandsFor (parts : List (List Code)) (name : ResourceName) : Prop :=
  (∀ part ∈ parts, part ≠ []) ∧ Shape parts name

/-- How a locator with these pieces is refused. It is told apart whether it begins like a full name.
-/
inductive Rejects (locator : Text) (parts : List (List Code)) : ReferenceError → Prop
  | full {second : List Code} {rest : List (List Code)}
      (heads : parts = projects :: second :: rest) :
      Rejects locator parts (.notFullName locator)
  | short (other : ∀ second rest, parts ≠ projects :: second :: rest) :
      Rejects locator parts (.notShortName locator)

variable {locator : Text} {parts : List (List Code)} {name : ResourceName}
  {error : ReferenceError}

/-! ### Pieces -/

theorem segmented_iff : Segmented locator parts ↔ parts = segments '/' (normalize locator) := by
  constructor
  · rintro ⟨solid, bare, trims, trims', cuts⟩
    rw [cuts_iff.mp cuts, trims'.eq_strip, trims.eq_strip]
    rfl
  · rintro rfl
    exact ⟨_, _, trims_strip _ _, trims_strip _ _, cuts_segments '/' _⟩

theorem Segmented.free (segmented : Segmented locator parts) : ∀ part ∈ parts, Code.char '/' ∉ part := by
  obtain ⟨_, _, _, _, cuts⟩ := segmented
  exact cuts.absent

theorem ofSegments_eq_some : ofSegments parts = some name ↔ Shape parts name := by
  constructor
  · intro found
    unfold ofSegments at found
    split at found
    · split at found
      · next heads =>
          obtain ⟨rfl, rfl⟩ := heads
          cases found
          exact .fullLatest _ _
      · cases found
    · split at found
      · next heads =>
          obtain ⟨rfl, rfl, rfl⟩ := heads
          cases found
          exact .full _ _ _
      · cases found
    · split at found
      · cases found
      · next other =>
          cases found
          exact .short _ _ other
    · split at found
      · cases found
      · next other =>
          cases found
          exact .shortLatest _ other
    · cases found
  · intro shape
    cases shape with
    | full project secret version =>
        simp only [ofSegments, and_self, if_true]
    | fullLatest project secret =>
        simp only [ofSegments, and_self, if_true]
    | short secret version other => exact if_neg other
    | shortLatest secret other => exact if_neg other

theorem toList_text (name : ResourceName) :
    name.text.toList = [Code.char '/'].intercalate name.pieces := by
  have first : ("projects/" : Text).toList = projects ++ [Code.char '/'] := by decide +kernel
  have second : ("/secrets/" : Text).toList = Code.char '/' :: (secrets ++ [Code.char '/']) := by
      decide +kernel
  have third : ("/versions/" : Text).toList = Code.char '/' :: (versions ++ [Code.char '/']) := by
      decide +kernel
  have flat : name.text.toList =
      ("projects/" : Text).toList ++ name.project ++ ("/secrets/" : Text).toList ++ name.secret ++
        ("/versions/" : Text).toList ++ name.version := rfl
  rw [flat, first, second, third, pieces]
  simp [List.intercalate_cons_cons]

theorem Shape.origin (shape : Shape parts name) : ∀ piece ∈ name.pieces,
    piece ∈ parts ∨ piece ∈ [projects, secrets, versions, latest] := by
  cases shape <;> simp [pieces]

theorem StandsFor.solid (stands : StandsFor parts name) (free : ∀ part ∈ parts, Code.char '/' ∉ part) :
    name.Solid := by
  have words : ∀ word ∈ [projects, secrets, versions, latest], word ≠ [] ∧ Code.char '/' ∉ word := by
      decide
  intro piece member
  rcases stands.2.origin piece member with given | fixed
  · exact ⟨stands.1 piece given, free piece given⟩
  · exact words piece fixed

/-! ### Resolving -/

theorem any_isEmpty_iff : parts.any List.isEmpty = true ↔ ¬ ∀ part ∈ parts, part ≠ [] := by
  simp

theorem ofLocator_of_standsFor (segmented : Segmented locator parts)
    (stands : StandsFor parts name) : ofLocator locator = .ok name := by
  have filled : ¬ parts.any List.isEmpty = true := fun empty => any_isEmpty_iff.mp empty stands.1
  rw [segmented_iff] at segmented
  unfold ofLocator
  rw [← segmented]
  simp only [if_neg filled, ofSegments_eq_some.mpr stands.2]

theorem ofLocator_of_rejects (segmented : Segmented locator parts)
    (nameless : ∀ name, ¬ StandsFor parts name) (rejects : Rejects locator parts error) :
    ofLocator locator = .error error := by
  -- No name is made of these parts, so only the kind of the error is left to see.
  have missing : (if parts.any List.isEmpty then none else ofSegments parts) = none := by
    rw [ite_eq_left_iff]
    intro filled
    rw [any_isEmpty_iff, not_not] at filled
    refine Option.eq_none_iff_forall_ne_some.mpr fun name found => ?_
    exact nameless name ⟨filled, ofSegments_eq_some.mp found⟩
  rw [segmented_iff] at segmented
  unfold ofLocator
  rw [← segmented]
  simp only [missing]
  cases rejects with
  | full heads =>
      subst heads
      exact if_pos rfl
  | short other =>
      rcases parts with _ | ⟨head, _ | ⟨second, rest⟩⟩
      · rfl
      · rfl
      · refine if_neg fun heads => other second rest ?_
        rw [heads]

theorem exists_rejects (locator : Text) (parts : List (List Code)) :
    ∃ error, Rejects locator parts error := by
  by_cases heads : ∃ second rest, parts = projects :: second :: rest
  · obtain ⟨second, rest, heads⟩ := heads
    exact ⟨_, .full heads⟩
  · exact ⟨_, .short fun second rest same => heads ⟨second, rest, same⟩⟩

theorem Rejects.entry_eq (rejects : Rejects locator parts error) : error.entry = locator := by
  cases rejects <;> rfl

theorem ofLocator_ok_iff (segmented : Segmented locator parts) :
    ofLocator locator = .ok name ↔ StandsFor parts name := by
  constructor
  · intro resolved
    by_cases named : ∃ other, StandsFor parts other
    · obtain ⟨other, stands⟩ := named
      cases resolved.symm.trans (ofLocator_of_standsFor segmented stands)
      exact stands
    · obtain ⟨error, rejects⟩ := exists_rejects locator parts
      have refused := ofLocator_of_rejects segmented (not_exists.mp named) rejects
      cases resolved.symm.trans refused
  · exact ofLocator_of_standsFor segmented

theorem ofLocator_error_iff (segmented : Segmented locator parts) :
    ofLocator locator = .error error ↔
      (∀ name, ¬ StandsFor parts name) ∧ Rejects locator parts error := by
  constructor
  · intro refused
    have nameless : ∀ name, ¬ StandsFor parts name := by
      intro name stands
      cases refused.symm.trans (ofLocator_of_standsFor segmented stands)
    obtain ⟨other, rejects⟩ := exists_rejects locator parts
    cases refused.symm.trans (ofLocator_of_rejects segmented nameless rejects)
    exact ⟨nameless, rejects⟩
  · rintro ⟨nameless, rejects⟩
    exact ofLocator_of_rejects segmented nameless rejects

theorem resolve_ok_iff (segmented : Segmented locator parts) {text : Text} :
    resolveLocator locator = .ok text ↔ ∃ name, StandsFor parts name ∧ name.text = text := by
  rw [resolveLocator]
  constructor
  · intro resolved
    obtain ⟨name, found, same⟩ := map_eq_ok resolved
    exact ⟨name, (ofLocator_ok_iff segmented).mp found, same⟩
  · rintro ⟨name, stands, rfl⟩
    rw [(ofLocator_ok_iff segmented).mpr stands]
    rfl

theorem resolve_error_iff (segmented : Segmented locator parts) :
    resolveLocator locator = .error error ↔
      (∀ name, ¬ StandsFor parts name) ∧ Rejects locator parts error := by
  rw [← ofLocator_error_iff segmented, resolveLocator]
  cases ofLocator locator <;> simp [Except.map]

end ResourceName

open ResourceName in
/-- A locator is resolved just when its pieces between slashes, none of them empty, have one of the
four shapes of a name, and then as the full name of that shape, in six pieces that are neither empty
nor hold a slash. Any other locator is refused and named as it was given. -/
theorem locators_have_four_shapes (locator : Text) :
    ∃ parts, (∀ other, Segmented locator other ↔ other = parts) ∧
      (∀ text, resolveLocator locator = .ok text ↔
        ∃ name, StandsFor parts name ∧ text.toList = [Code.char '/'].intercalate name.pieces) ∧
      (∀ name, StandsFor parts name → name.Solid) ∧
      ∀ error, resolveLocator locator = .error error ↔
        (∀ name, ¬ StandsFor parts name) ∧ Rejects locator parts error ∧ error.entry = locator := by
  have segmented : Segmented locator (segments '/' (normalize locator)) := segmented_iff.mpr rfl
  refine ⟨_, fun _ => segmented_iff, fun text => ?_, fun name stands => ?_, fun error => ?_⟩
  · rw [resolve_ok_iff segmented]
    refine exists_congr fun name => and_congr_right fun _ => ?_
    rw [← toList_text, Text.toList_inj, eq_comm]
  · exact stands.solid segmented.free
  · rw [resolve_error_iff segmented]
    refine and_congr_right fun _ => ?_
    constructor
    · exact fun rejects => ⟨rejects, rejects.entry_eq⟩
    · exact And.left

example : resolveLocator " /projects/p/secrets/s\n/" = .ok "projects/p/secrets/s\n/versions/latest" := by
  decide +kernel

/-! ### Resolving a name again -/

namespace ResourceName

/-- A locator that names a version, with a blank between it and the slashes at its end. -/
def Exposed (locator : Text) : Prop :=
  ∃ parts version blank, Segmented locator parts ∧ (parts.length = 3 ∨ parts.length = 6) ∧
    parts.getLast? = some (version ++ [blank]) ∧ isBlank blank = true

def stemPieces (name : ResourceName) : List (List Code) :=
  [projects, name.project, secrets, name.secret, versions]

def stem (name : ResourceName) : List Code := [Code.char '/'].intercalate name.stemPieces

/-- A name as it is resolved again: the blanks at the end of its version are gone. -/
def trimmedTo (name : ResourceName) (kept : List Code) : ResourceName :=
  { name with version := kept }

variable {locator : Text} {parts : List (List Code)} {name : ResourceName} {kept : List Code}

theorem pieces_trimmedTo : (name.trimmedTo kept).pieces = name.stemPieces ++ [kept] := rfl

theorem toList_trimmedTo : (name.trimmedTo kept).text.toList = name.stem ++ Code.char '/' :: kept := by
  rw [toList_text]
  simp [pieces_trimmedTo, stemPieces, stem, List.intercalate_cons_cons]

theorem toList_text_stem (name : ResourceName) :
    name.text.toList = name.stem ++ Code.char '/' :: name.version :=
  toList_trimmedTo

theorem text_trimmedTo_iff : (name.trimmedTo kept).text = name.text ↔ kept = name.version := by
  rw [← Text.toList_inj, toList_trimmedTo, toList_text_stem]
  simp

/-- A full name begins with a letter, so trimming drops nothing in front of it. -/
theorem trims_stem {drops : Code → Bool} (letter : drops 'p' = false) {text left : List Code}
    (ends : TrimsEnd drops (name.stem ++ text) (name.stem ++ left)) :
    Trims drops (name.stem ++ text) (name.stem ++ left) := by
  have word : projects = Code.char 'p' :: ("rojects" : Text).toList := by decide +kernel
  have opens : ∃ rest, name.stem = Code.char 'p' :: rest := by
    rw [stem, stemPieces, word, intercalate_extend]
    exact ⟨_, rfl⟩
  obtain ⟨rest, opens⟩ := opens
  refine ends.trims fun first others same => ?_
  rw [opens, List.cons_append] at same
  cases same
  exact letter

theorem trims_version {drops : Code → Bool} (name : ResourceName) (letter : drops 'p' = false)
    (ends : TrimsEnd drops name.version kept) (slash : kept = [] → drops '/' = false) :
    Trims drops name.text.toList (name.trimmedTo kept).text.toList := by
  rw [toList_text_stem, toList_trimmedTo]
  -- The slash between them stays: a version is left behind it, or slashes are not dropped.
  refine trims_stem letter (TrimsEnd.append ?_ fun empty => absurd empty (List.cons_ne_nil _ _))
  show TrimsEnd drops ([Code.char '/'] ++ name.version) ([Code.char '/'] ++ kept)
  exact ends.append fun empty => trimsEnd_of_absent (List.forall_mem_singleton.mpr (slash empty))

theorem solid_iff : name.Solid ↔ (∀ piece ∈ name.stemPieces, piece ≠ [] ∧ Code.char '/' ∉ piece) ∧
    name.version ≠ [] ∧ Code.char '/' ∉ name.version := by
  have parted : name.pieces = name.stemPieces ++ [name.version] := rfl
  rw [Solid, parted, List.forall_mem_append, List.forall_mem_singleton]

theorem Solid.trimmedTo (solid : name.Solid) (ends : TrimsEnd isBlank name.version kept)
    (filled : kept ≠ []) : (name.trimmedTo kept).Solid := by
  obtain ⟨stem, -, free⟩ := solid_iff.mp solid
  obtain ⟨after, same, -⟩ := ends.behind
  refine solid_iff.mpr ⟨stem, filled, fun slash => free ?_⟩
  rw [same]
  exact List.mem_append_left after slash

theorem segmented_text (solid : name.Solid) (ends : TrimsEnd isBlank name.version kept)
    (filled : kept ≠ []) : Segmented name.text (name.trimmedTo kept).pieces := by
  have left := solid.trimmedTo ends filled
  have free : ∀ character ∈ kept, (character == '/') = false := by
    intro character member
    rw [beq_eq_false_iff_ne]
    rintro rfl
    exact (solid_iff.mp left).2.2 member
  refine ⟨_, _, trims_version name (by decide) ends fun _ => by decide,
    trims_version (name.trimmedTo kept) (by decide) (trimsEnd_of_absent free)
      fun empty => absurd empty filled, ?_⟩
  rw [toList_text]
  exact cuts_of_absent (List.cons_ne_nil _ _) fun piece member => (left piece member).2

theorem segmented_text_blank (solid : name.Solid) (ends : TrimsEnd isBlank name.version []) :
    Segmented name.text name.stemPieces := by
  have closed : TrimsEnd (fun character : Code => character == '/') name.stem name.stem := by
    have parted : name.stem =
        [Code.char '/'].intercalate [projects, name.project, secrets, name.secret, []] ++ versions := by
      simp [stem, stemPieces, List.intercalate_cons_cons]
    rw [parted]
    exact (trimsEnd_of_absent (by decide)).append fun empty => absurd empty (by decide)
  have slash : TrimsEnd (fun character : Code => character == '/') ['/'] [] :=
    ⟨⟨['/'], rfl, by decide⟩, by simp⟩
  have bare : Trims (fun character : Code => character == '/') (name.stem ++ [Code.char '/'])
      (name.stem ++ []) :=
    trims_stem (by decide) (slash.append fun _ => closed)
  rw [List.append_nil] at bare
  refine ⟨_, _, trims_version name (by decide) ends fun _ => by decide, ?_,
    cuts_of_absent (List.cons_ne_nil _ _) fun piece member => ?_⟩
  · rw [toList_trimmedTo]
    exact bare
  · exact ((solid_iff.mp solid).1 piece member).2

theorem resolve_text (solid : name.Solid) (ends : TrimsEnd isBlank name.version kept)
    (filled : kept ≠ []) : resolveLocator name.text = .ok (name.trimmedTo kept).text := by
  have left := solid.trimmedTo ends filled
  exact (resolve_ok_iff (segmented_text solid ends filled)).mpr
    ⟨name.trimmedTo kept, ⟨fun piece member => (left piece member).1, .full _ _ _⟩, rfl⟩

theorem resolve_text_blank (solid : name.Solid) (ends : TrimsEnd isBlank name.version []) :
    resolveLocator name.text = .error (.notFullName name.text) := by
  refine (resolve_error_iff (segmented_text_blank solid ends)).mpr ⟨fun other stands => ?_, .full rfl⟩
  cases stands.2

theorem trim_text (ends : TrimsEnd isBlank name.version kept) :
    trim name.text.toList = (name.trimmedTo kept).text.toList :=
  (trims_version name (by decide) ends fun _ => by decide).eq_strip.symm

theorem trimmed_text (ends : TrimsEnd isBlank name.version kept) :
    trimmed name.text = (name.trimmedTo kept).text := by
  rw [trimmed, trim_text ends, Text.ofList_toList]

theorem getLast?_trim_text (solid : name.Solid) (ends : TrimsEnd isBlank name.version kept) :
    (trim name.text.toList).getLast? = some '/' ↔ kept = [] := by
  rw [trim_text ends, toList_trimmedTo]
  constructor
  · intro last
    by_contra filled
    have free := (solid_iff.mp (solid.trimmedTo ends filled)).2.2
    rw [List.getLast?_append_of_ne_nil _ (List.cons_ne_nil _ _), List.getLast?_cons_of_ne_nil filled]
      at last
    exact free (List.mem_of_getLast? last)
  · rintro rfl
    simp

theorem Shape.version (shape : Shape parts name) :
    (parts.length = 3 ∨ parts.length = 6) ∧ parts.getLast? = some name.version ∨
      (parts.length = 2 ∨ parts.length = 4) ∧ name.version = latest := by
  cases shape <;> simp

theorem exposed_iff (segmented : Segmented locator parts) (stands : StandsFor parts name)
    (ends : TrimsEnd isBlank name.version kept) : Exposed locator ↔ kept ≠ name.version := by
  rw [Ne, ends.eq_text_iff]
  constructor
  · rintro ⟨others, version, blank, segmented', named, last, blanks⟩ closed
    rw [segmented_iff] at segmented segmented'
    rw [segmented', ← segmented] at named last
    rcases stands.2.version with ⟨-, here⟩ | ⟨unnamed, -⟩
    · rw [closed version blank (Option.some.inj (here.symm.trans last))] at blanks
      cases blanks
    · omega
  · intro ended
    push Not at ended
    obtain ⟨version, blank, same, blanks⟩ := ended
    -- A version that the locator does not name is the newest, which ends with a letter.
    rcases stands.2.version with ⟨named, last⟩ | ⟨-, newest⟩
    · exact ⟨parts, version, blank, segmented, named, by rw [last, same], by simpa using blanks⟩
    · have word : latest = ("lates" : Text).toList ++ [Code.char 't'] := by decide +kernel
      rw [newest, word] at same
      obtain ⟨-, alike⟩ := List.append_inj' same rfl
      cases alike
      exact absurd blanks (by decide)

end ResourceName

theorem accessUrl_eq_iff (manager : SecretManager) {locator other text : Text}
    (resolved : resolveLocator locator = .ok text) :
    manager.accessUrl other = manager.accessUrl locator ↔ resolveLocator other = .ok text := by
  rw [SecretManager.accessUrl, SecretManager.accessUrl, resolved]
  cases resolveLocator other <;>
    simp [Except.map, Text.append_left_cancel, Text.append_right_cancel]

open ResourceName in
/-- A name that a locator was resolved to is resolved to itself, and has the same address, unless
trimming the slashes of the locator has exposed a blank at the end of its version. Then the blanks
are trimmed, and what is left is a name, which is resolved to itself, or no name at all if there was
no more to the version. -/
theorem resolved_names_settle {locator text : Text} (resolved : resolveLocator locator = .ok text) :
    (resolveLocator text = .ok text ↔ ¬ Exposed locator) ∧
      (∀ manager : SecretManager,
        manager.accessUrl text = manager.accessUrl locator ↔ ¬ Exposed locator) ∧
      resolveLocator text =
        (if (trim text.toList).getLast? = some '/' then .error (.notFullName text)
        else .ok (trimmed text)) ∧
      ∀ other, resolveLocator text = .ok other → resolveLocator other = .ok other := by
  simp only [accessUrl_eq_iff _ resolved]
  have segmented : Segmented locator (segments '/' (normalize locator)) := segmented_iff.mpr rfl
  obtain ⟨name, stands, rfl⟩ := (resolve_ok_iff segmented).mp resolved
  have solid := stands.solid segmented.free
  obtain ⟨kept, ends⟩ := exists_trimsEnd isBlank name.version
  have slash := getLast?_trim_text solid ends
  rw [exposed_iff segmented stands ends, not_not, trimmed_text ends]
  -- What is kept of the version decides the rest: a name again, the same one if all is kept, or none.
  by_cases filled : kept = []
  · subst filled
    rw [resolve_text_blank solid ends, if_pos (slash.mpr rfl)]
    have shorter : ¬ [] = name.version := fun same => (solid_iff.mp solid).2.1 same.symm
    simp [shorter]
  · rw [resolve_text solid ends filled, if_neg (mt slash.mp filled), Except.ok.injEq,
      text_trimmedTo_iff]
    refine ⟨Iff.rfl, fun _ => Iff.rfl, rfl, ?_⟩
    rintro _ ⟨⟩
    exact resolve_text (solid.trimmedTo ends filled) ends.again filled

theorem resolved_names_settle_inner_blanks :
    resolveLocator "/ p/s /7/" = .ok "projects/ p/secrets/s /versions/7" ∧
      resolveLocator "projects/ p/secrets/s /versions/7" = .ok "projects/ p/secrets/s /versions/7" := by
  have resolved : resolveLocator "/ p/s /7/" = .ok "projects/ p/secrets/s /versions/7" := by
    decide +kernel
  exact ⟨resolved, (resolved_names_settle resolved).2.2.1.trans (by decide +kernel)⟩

/-- A blank before the last slash stays at the end of the name, where it is lost the next time. -/
theorem resolved_name_loses_blank :
    resolveLocator "p/s/1 /" = .ok "projects/p/secrets/s/versions/1 " ∧
      resolveLocator "projects/p/secrets/s/versions/1 " = .ok "projects/p/secrets/s/versions/1" ∧
      resolveLocator "p/s/ /" = .ok "projects/p/secrets/s/versions/ " ∧
      resolveLocator "projects/p/secrets/s/versions/ " =
        .error (.notFullName "projects/p/secrets/s/versions/ ") := by
  decide +kernel

end SecretFill
