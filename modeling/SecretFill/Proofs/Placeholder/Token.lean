import SecretFill.Proofs.Interpolation.Passes
import SecretFill.Proofs.Placeholder
import SecretFill.Proofs.Reference
import SecretFill.Proofs.Text.Pieces
/-!
Placeholders as tokens. A key that is an identifier is a word, and where a placeholder may begin a
text has one word at most: the one in braces, or the longest one behind the dollar sign. A search
for a key finds exactly the texts that have the key among their tokens, so no key is found inside
the placeholder of a longer one.
-/

namespace SecretFill

open SecretFill.Data SecretFill.Forest SecretFill.Text

variable {key other text rest after : List Code}

/-! ### Words -/

theorem Identifier.word (identifier : Identifier key) :
    ∀ character ∈ key, isKeyCharacter character = true := by
  obtain ⟨first, rest, rfl, start, others⟩ := identifier
  intro character member
  rw [isKeyCharacter_iff]
  rcases List.mem_cons.mp member with rfl | later
  · exact .inl start
  · exact others character later

theorem Identifier.head?_ne (identifier : Identifier key) (after : List Code) :
    (key ++ after).head? ≠ some '\x7b' := by
  intro brace
  have word := identifier.word
  obtain ⟨first, rest, rfl, -, -⟩ := identifier
  cases brace
  have absurdly := word '\x7b' List.mem_cons_self
  cases absurdly

theorem takeWhile_eq_iff (word : ∀ character ∈ key, isKeyCharacter character = true) :
    text.takeWhile isKeyCharacter = key ↔
      ∃ after, text = key ++ after ∧ ∀ next ∈ after.head?, isKeyCharacter next = false := by
  constructor
  · rintro rfl
    refine ⟨_, List.takeWhile_append_dropWhile.symm, fun next head => ?_⟩
    have stop := List.head?_dropWhile_not isKeyCharacter text
    rw [Option.mem_def.mp head] at stop
    exact stop
  · rintro ⟨after, rfl, ends⟩
    exact (takeWhile_of_boundary word ends).1

namespace Placeholder

/-- The key of the placeholder that a text begins with. In braces it is a whole word; without them
it is as long as the characters of a key go on. -/
def token? : List Code → Option (List Code)
  | '$' :: '\x7b' :: rest =>
      if (rest.dropWhile isKeyCharacter).head? = some '\x7d' then
        some (rest.takeWhile isKeyCharacter)
      else none
  | '$' :: rest => some (rest.takeWhile isKeyCharacter)
  | _ => none

def formAt : List Code → Form
  | _ :: '\x7b' :: _ => .braced
  | _ => .bare

def tokens : List Code → List (List Code)
  | [] => []
  | character :: rest => (token? (character :: rest)).toList ++ tokens rest

variable {form : Form}

/-! ### The token at one place -/

theorem token?_braced (word : ∀ character ∈ key, isKeyCharacter character = true) :
    token? ('$' :: '\x7b' :: rest) = some key ↔ ∃ after, rest = key ++ Code.char '\x7d' :: after := by
  simp only [token?]
  constructor
  · intro read
    split at read
    · next closed =>
        obtain ⟨after, behind⟩ := List.head?_eq_some_iff.mp closed
        refine ⟨after, ?_⟩
        rw [← Option.some.inj read, ← behind]
        exact List.takeWhile_append_dropWhile.symm
    · cases read
  · rintro ⟨after, rfl⟩
    have ends : ∀ next ∈ (Code.char '\x7d' :: after).head?, isKeyCharacter next = false := by
      intro next head
      cases head
      decide
    obtain ⟨taken, dropped⟩ := takeWhile_of_boundary word ends
    rw [dropped, taken]
    rfl

theorem token?_bare (unbraced : rest.head? ≠ some '\x7b') :
    token? ('$' :: rest) = some (rest.takeWhile isKeyCharacter) ∧ formAt ('$' :: rest) = .bare := by
  cases rest with
  | nil => exact ⟨rfl, rfl⟩
  | cons next rest =>
      have apart : next ≠ '\x7b' := fun same => unbraced (congrArg some same)
      simp [token?, formAt, apart]

theorem dollar_of_token? (read : token? text = some key) : ∃ rest, text = Code.char '$' :: rest := by
  unfold token? at read
  split at read
  · exact ⟨_, rfl⟩
  · exact ⟨_, rfl⟩
  · cases read

theorem formAt_eq_braced : formAt text = .braced ↔ ∃ first rest, text =
    first :: Code.char '\x7b' :: rest := by
  unfold formAt
  split
  · simp
  · next apart =>
      refine ⟨(fun same => by cases same), ?_⟩
      rintro ⟨first, rest, rfl⟩
      exact absurd rfl (apart first rest)

/-- A placeholder of an identifier begins where the identifier is the token, in the form that the
token has there. -/
theorem startsAt_iff_token (identifier : Identifier key) :
    form.startsAt key text = true ↔ token? text = some key ∧ formAt text = form := by
  have word := identifier.word
  cases form with
  | braced =>
      rw [startsAt_braced_iff]
      constructor
      · rintro ⟨after, rfl⟩
        refine ⟨(token?_braced word).mpr ⟨after, ?_⟩, rfl⟩
        simp
      · rintro ⟨read, formed⟩
        obtain ⟨first, rest, rfl⟩ := formAt_eq_braced.mp formed
        obtain ⟨_, same⟩ := dollar_of_token? read
        cases same
        obtain ⟨after, rfl⟩ := (token?_braced word).mp read
        exact ⟨after, by simp⟩
  | bare =>
      rw [startsAt_bare_iff]
      constructor
      · rintro ⟨after, rfl, ends⟩
        obtain ⟨read, formed⟩ := token?_bare (identifier.head?_ne after)
        -- The key ends at a boundary, so the longest name there is the key.
        rw [(takeWhile_of_boundary word ends).1] at read
        exact ⟨read, formed⟩
      · rintro ⟨read, formed⟩
        obtain ⟨rest, rfl⟩ := dollar_of_token? read
        have unbraced : rest.head? ≠ some '\x7b' := by
          intro brace
          obtain ⟨inner, rfl⟩ := List.head?_eq_some_iff.mp brace
          cases formed
        obtain ⟨longest, -⟩ := token?_bare unbraced
        obtain ⟨after, rfl, ends⟩ :=
          (takeWhile_eq_iff word).mp (Option.some.inj (longest.symm.trans read))
        exact ⟨after, rfl, ends⟩

/-! ### The tokens of a text -/

theorem mem_tokens : key ∈ tokens text ↔
    ∃ before rest, text = before ++ rest ∧ token? rest = some key := by
  induction text with
  | nil =>
      refine ⟨(fun member => by cases member), ?_⟩
      rintro ⟨before, rest, same, read⟩
      obtain ⟨-, rfl⟩ := List.append_eq_nil_iff.mp same.symm
      cases read
  | cons character text ih =>
      rw [tokens, List.mem_append, Option.mem_toList, ih]
      constructor
      · rintro (here | ⟨before, rest, rfl, later⟩)
        · exact ⟨[], _, rfl, here⟩
        · exact ⟨character :: before, rest, rfl, later⟩
      · rintro ⟨before, rest, same, read⟩
        cases before with
        | nil =>
            rw [List.nil_append] at same
            exact .inl (same ▸ read)
        | cons first before =>
            obtain ⟨-, rfl⟩ := List.cons.inj same
            exact .inr ⟨before, rest, rfl, read⟩

theorem occurs_iff_token (identifier : Identifier key) :
    occurs key text = true ↔ key ∈ tokens text := by
  rw [occurs, Bool.or_eq_true, Form.occurs_iff, Form.occurs_iff, mem_tokens]
  constructor
  · rintro (⟨before, rest, same, starts⟩ | ⟨before, rest, same, starts⟩)
    · exact ⟨before, rest, same, ((startsAt_iff_token identifier).mp starts).1⟩
    · exact ⟨before, rest, same, ((startsAt_iff_token identifier).mp starts).1⟩
  · rintro ⟨before, rest, same, read⟩
    have starts : (formAt rest).startsAt key rest = true :=
      (startsAt_iff_token identifier).mpr ⟨read, rfl⟩
    generalize formAt rest = form at starts
    cases form with
    | braced => exact .inl ⟨before, rest, same, starts⟩
    | bare => exact .inr ⟨before, rest, same, starts⟩

theorem token?_eq_some_iff (identifier : Identifier key) :
    token? ('$' :: rest) = some key ↔
      (∃ after, rest = Code.char '\x7b' :: key ++ Code.char '\x7d' :: after) ∨
        rest.takeWhile isKeyCharacter = key := by
  by_cases brace : rest.head? = some '\x7b'
  · obtain ⟨inner, rfl⟩ := List.head?_eq_some_iff.mp brace
    have none : (Code.char '\x7b' :: inner).takeWhile isKeyCharacter ≠ key := by
      rintro rfl
      obtain ⟨first, rest, same, -⟩ := identifier
      cases same
    simp [token?_braced identifier.word, none]
  · obtain ⟨longest, -⟩ := token?_bare brace
    rw [longest, Option.some.injEq]
    refine ⟨.inr, ?_⟩
    rintro (⟨after, rfl⟩ | same)
    · exact absurd rfl brace
    · exact same

end Placeholder

open Placeholder in
/-- Whatever the order in which identifiers are tried, a text is replaced by the first of them that
is one of its tokens, and else stays. -/
theorem applyKeys_tokens {cells : Array Cell} {plots : List Plot} {entries : List (Text × Text)}
    {state : List Substitution × Forest} {number : Nat} {text : Text}
    (identifiers : ∀ entry ∈ entries, Identifier entry.1.toList)
    (onRoute : number ∈ (route state.2 cells plots []).1.map Forest.Place.leaf)
    (opened : state.2.openText? number = some text) :
    (entries.foldl (applyKey cells plots) state).2.leaves[number]? =
      match entries.find? fun entry => decide (entry.1.toList ∈ tokens text.toList) with
      | some entry => some ⟨.atom (.text entry.2), true⟩
      | none => some ⟨.atom (.text text), false⟩ := by
  have same : (entries.find? fun entry => occurs entry.1.toList text.toList) =
      entries.find? fun entry => decide (entry.1.toList ∈ tokens text.toList) := by
    rw [← List.head?_filter, ← List.head?_filter]
    refine congrArg List.head? (List.filter_congr fun entry member => ?_)
    rw [Bool.eq_iff_iff, decide_eq_true_iff]
    exact occurs_iff_token (identifiers entry member)
  rw [applyKeys_leaf cells plots entries state onRoute, openText?_eq_some opened, Option.map_some,
    settled, same]
  split <;> simp [*]

namespace Placeholder

/-- Finding the placeholders of identifiers is reading tokens. A text holds one of a key exactly if
some dollar sign has the key behind it, in braces or as the longest word; at each position a
placeholder of one identifier begins at most, in one form; and whatever the order in which keys are
tried, a text is replaced only by a key that is one of its tokens. -/
theorem placeholders_are_tokens (key text : List Code) (identifier : Identifier key) :
    (occurs key text = true ↔ ∃ before rest, text = before ++ Code.char '$' :: rest ∧
      ((∃ after, rest = Code.char '\x7b' :: key ++ Code.char '\x7d' :: after) ∨
        rest.takeWhile isKeyCharacter = key)) ∧
    (∀ position other form form', Identifier other →
      Form.startsAt form key (text.drop position) = true →
      Form.startsAt form' other (text.drop position) = true → key = other ∧ form = form') ∧
    ∀ cells plots (entries : List (Text × Text)) state number shown,
      (∀ entry ∈ entries, Identifier entry.1.toList) →
      number ∈ (route state.2 cells plots []).1.map Forest.Place.leaf →
      state.2.openText? number = some shown →
      (entries.foldl (applyKey cells plots) state).2.leaves[number]? =
        match entries.find? fun entry => decide (entry.1.toList ∈ tokens shown.toList) with
        | some entry => some ⟨.atom (.text entry.2), true⟩
        | none => some ⟨.atom (.text shown), false⟩ := by
  refine ⟨?_, ?_, ?_⟩
  · rw [occurs_iff_token identifier, mem_tokens]
    constructor
    · rintro ⟨before, rest, same, read⟩
      obtain ⟨behind, rfl⟩ := dollar_of_token? read
      exact ⟨before, behind, same, (token?_eq_some_iff identifier).mp read⟩
    · rintro ⟨before, rest, same, stands⟩
      exact ⟨before, _, same, (token?_eq_some_iff identifier).mpr stands⟩
  · intro position other form form' identifier' starts starts'
    obtain ⟨read, formed⟩ := (startsAt_iff_token identifier).mp starts
    obtain ⟨read', formed'⟩ := (startsAt_iff_token identifier').mp starts'
    exact ⟨Option.some.inj (read.symm.trans read'), formed.symm.trans formed'⟩
  · intro cells plots entries state number shown identifiers onRoute opened
    exact applyKeys_tokens identifiers onRoute opened

/-- A key that begins another one is found behind it, in braces, and not in it. -/
theorem placeholders_are_tokens_of_beginning :
    let key := ("DB" : Text).toList
    let longer := ("DB_PASS" : Text).toList
    let text := ("$DB_PASS-$\x7bDB\x7d" : Text).toList
    Identifier key ∧ occurs key text = true ∧ Form.bare.startsAt longer text = true ∧
      ∀ form : Form, form.startsAt key text ≠ true := by
  intro key longer text
  have identifier : Identifier key := (isKey_iff key).mp (by decide)
  have identifier' : Identifier longer := (isKey_iff longer).mp (by decide)
  have found : Form.bare.startsAt longer text = true := by decide
  obtain ⟨holds, apart, -⟩ := placeholders_are_tokens key text identifier
  have braced := holds.mpr ⟨("$DB_PASS-" : Text).toList, ("\x7bDB\x7d" : Text).toList, rfl,
      .inl ⟨[], rfl⟩⟩
  refine ⟨identifier, braced, found, ?_⟩
  intro form starts
  have same := (apart 0 longer form .bare identifier' starts found).1
  exact absurd same (by decide)

end Placeholder

end SecretFill
