import SecretFill.Masker.Payload
import SecretFill.Proofs.Masker.Redaction
/-!
Redaction of structured data. Whatever is nested in whatever, each text of the data is redacted in
its place, and nothing else changes.
-/

namespace SecretFill

namespace Payload

/-- What a payload is made of. The keys of a mapping are no parts of it. -/
def parts : Payload → List Payload
  | .list items => items
  | .tuple items => items
  | .mapping entries => entries.map Prod.snd
  | _ => []

def at? (payload : Payload) : List Nat → Option Payload
  | [] => some payload
  | index :: route => payload.parts[index]?.bind fun part => part.at? route

theorem redactAll_eq_map (masker : Masker) (items : List Payload) :
    redactAll masker items = items.map (redact masker) := by
  induction items with
  | nil => rw [redactAll, List.map_nil]
  | cons item rest ih => rw [redactAll, ih, List.map_cons]

theorem redactEntries_eq_map (masker : Masker) (entries : List (Text × Payload)) :
    redactEntries masker entries = entries.map fun entry => (entry.1, redact masker entry.2) := by
  induction entries with
  | nil => rw [redactEntries, List.map_nil]
  | cons entry rest ih => rw [redactEntries, ih, List.map_cons]

theorem parts_redact (masker : Masker) (payload : Payload) :
    (payload.redact masker).parts = payload.parts.map (redact masker) := by
  cases payload with
  | list items => simp only [redact, parts, redactAll_eq_map]
  | tuple items => simp only [redact, parts, redactAll_eq_map]
  | mapping entries => simp [redact, parts, redactEntries_eq_map]
  | _ => rfl

/-- Redaction keeps the shape: it acts on each part alone. -/
theorem at?_redact (masker : Masker) (payload : Payload) (route : List Nat) :
    (payload.redact masker).at? route = (payload.at? route).map (redact masker) := by
  induction route generalizing payload with
  | nil => rfl
  | cons index route ih =>
      simp only [at?, parts_redact, List.getElem?_map]
      cases payload.parts[index]? with
      | none => rfl
      | some part => exact ih part

theorem at?_redact_text {masker : Masker} {payload : Payload} {route : List Nat} {shown : Text} :
    (payload.redact masker).at? route = some (.text shown) ↔
      ∃ text, payload.at? route = some (.text text) ∧ shown = masker.redacted text := by
  rw [at?_redact, Option.map_eq_some_iff]
  constructor
  · rintro ⟨found, here, same⟩
    cases found with
    | text text =>
        cases same
        exact ⟨text, here, rfl⟩
    | _ => cases same
  · rintro ⟨text, here, rfl⟩
    exact ⟨.text text, here, rfl⟩

def Clean (masker : Masker) (payload : Payload) : Prop :=
  ∀ route text, payload.at? route = some (.text text) → masker.redacted text = text

theorem Clean.part {masker : Masker} {payload part : Payload} (clean : payload.Clean masker)
    (member : part ∈ payload.parts) : part.Clean masker := by
  intro route text found
  rcases List.getElem?_of_mem member with ⟨index, here⟩
  exact clean (index :: route) text (by simp only [at?, here, Option.bind_some, found])

mutual

theorem redact_of_clean {masker : Masker} : ∀ {payload : Payload}, payload.Clean masker →
    payload.redact masker = payload
  | .null, _ => rfl
  | .bool _, _ => rfl
  | .int _, _ => rfl
  | .real _, _ => rfl
  | .text shown, clean => congrArg Payload.text (clean [] shown rfl)
  | .list _, clean => congrArg Payload.list (redactAll_of_clean fun _ member => clean.part member)
  | .tuple _, clean => congrArg Payload.tuple (redactAll_of_clean fun _ member => clean.part member)
  | .mapping _, clean =>
      congrArg Payload.mapping (redactEntries_of_clean fun _ member =>
        clean.part (List.mem_map_of_mem (f := Prod.snd) member))

theorem redactAll_of_clean {masker : Masker} : ∀ {items : List Payload},
    (∀ item ∈ items, item.Clean masker) → redactAll masker items = items
  | [], _ => rfl
  | item :: rest, clean => by
      rw [redactAll, redact_of_clean (clean item List.mem_cons_self),
        redactAll_of_clean fun other member => clean other (List.mem_cons_of_mem _ member)]

theorem redactEntries_of_clean {masker : Masker} : ∀ {entries : List (Text × Payload)},
    (∀ entry ∈ entries, entry.2.Clean masker) → redactEntries masker entries = entries
  | [], _ => rfl
  | (key, value) :: rest, clean => by
      rw [redactEntries, redact_of_clean (clean (key, value) List.mem_cons_self),
        redactEntries_of_clean fun other member => clean other (List.mem_cons_of_mem _ member)]

end

theorem redact_eq_self_iff {masker : Masker} {payload : Payload} :
    payload.redact masker = payload ↔ payload.Clean masker := by
  constructor
  · intro same route text found
    have redacted := at?_redact masker payload route
    rw [same, found] at redacted
    exact (Payload.text.inj (Option.some.inj redacted)).symm
  · exact redact_of_clean

end Payload

open Masker (ClearOfMarker)

theorem redacts_redacted {masker : Masker} (distinct : masker.lines.Nodup)
    (clear : ∀ line ∈ masker.lines, ClearOfMarker line) (text : Text) :
    masker.Redacts text.toList (masker.redacted text).toList := by
  rw [Masker.redacted, Text.toList_ofList]
  exact Masker.redacts distinct clear text.toList

/-- Whatever a masker was given to mask, none of the lines it then holds is left in a text that it
redacts, by itself or anywhere in structured data, unless a line could be taken for a part of the
marker. A second redaction changes nothing, a text without such a line is left alone, and a text
that is such a line becomes the marker. -/
theorem redaction_leaves_no_line (minLength : Nat) (values : List (List Code))
    (clear : ∀ line ∈ ((Masker.ofLength minLength).maskAll values).lines, ClearOfMarker line) :
    let masker := (Masker.ofLength minLength).maskAll values
    (∀ text, masker.Redacts text (masker.redact text)) ∧
    ∀ payload : Payload,
      (∀ route text, payload.at? route = some (.text text) →
        ∃ shown, (payload.redact masker).at? route = some (.text shown) ∧
          masker.Redacts text.toList shown.toList) ∧
      (∀ route shown, (payload.redact masker).at? route = some (.text shown) →
        ∃ text, payload.at? route = some (.text text) ∧
          masker.Redacts text.toList shown.toList) ∧
      (payload.redact masker).redact masker = payload.redact masker ∧
      (payload.redact masker = payload ↔ ∀ route text, payload.at? route = some (.text text) →
        ∀ line ∈ masker.lines, ¬ line <:+: text.toList) := by
  intro masker
  have distinct : masker.lines.Nodup := Masker.nodup_maskAll List.nodup_nil values
  have redacts : ∀ text : Text, masker.Redacts text.toList (masker.redacted text).toList :=
    redacts_redacted distinct clear
  refine ⟨Masker.redacts distinct clear, fun payload => ⟨?_, ?_, ?_, ?_⟩⟩
  · intro route text found
    exact ⟨_, Payload.at?_redact_text.mpr ⟨text, found, rfl⟩, redacts text⟩
  · intro route shown found
    rcases Payload.at?_redact_text.mp found with ⟨text, here, rfl⟩
    exact ⟨text, here, redacts text⟩
  · apply Payload.redact_of_clean
    intro route shown found
    rcases Payload.at?_redact_text.mp found with ⟨text, _, rfl⟩
    exact Text.toList_inj.mp (by rw [Masker.redacted, Text.toList_ofList, (redacts text).settled])
  · rw [Payload.redact_eq_self_iff]
    constructor
    · intro clean route text found
      exact (redacts text).unchanged.mp (congrArg Text.toList (clean route text found))
    · intro absent route text found
      exact Text.toList_inj.mp ((redacts text).unchanged.mpr (absent route text found))

/-- One line is a part of another, and both stand in nested data. -/
theorem redaction_leaves_no_line_nested :
    let values := [("pass\r\npassword\nab" : Text).toList, ("word" : Text).toList]
    let masker := (Masker.ofLength 3).maskAll values
    let payload : Payload := .mapping [("error", .list [.text "a password, a pass", .text "ab"])]
    (∀ line ∈ masker.lines, ClearOfMarker line) ∧
      masker.lines = [("pass" : Text).toList, ("password" : Text).toList, ("word" : Text).toList] ∧
      let shown : Text := "a ***REDACTED***, a ***REDACTED***"
      (payload.redact masker).at? [0, 0] = some (.text shown) ∧
        ∀ line ∈ masker.lines, ¬ line <:+: shown.toList := by
  intro values masker payload
  have clear : ∀ line ∈ masker.lines, ClearOfMarker line := by decide
  have lines : masker.lines = [("pass" : Text).toList, ("password" : Text).toList,
      ("word" : Text).toList] := by decide
  have sorted : masker.patterns = [("password" : Text).toList, ("pass" : Text).toList,
      ("word" : Text).toList] := by
    rw [Masker.patterns, lines]
    simp [List.mergeSort, List.MergeSort.Internal.splitInTwo]
  have redacted : masker.redacted "a password, a pass" = "a ***REDACTED***, a ***REDACTED***" := by
    rw [Masker.redacted, Masker.redact, sorted]
    decide +kernel
  have here : (payload.redact masker).at? [0, 0] =
      some (.text "a ***REDACTED***, a ***REDACTED***") :=
    Payload.at?_redact_text.mpr ⟨"a password, a pass", rfl, redacted.symm⟩
  rcases ((redaction_leaves_no_line 3 values clear).2 payload).2.1 [0, 0] _ here with
    ⟨text, _, redacts⟩
  exact ⟨clear, lines, here, redacts.hidden⟩

end SecretFill
