import SecretFill.Text.Code
/-!
Finding one text inside another. `dropPrefix? pattern text` is what follows `pattern` at the
start of `text`; `occursIn` says that it stands somewhere; `replaceAll` replaces every
occurrence, left to right and without overlap.
-/

namespace SecretFill.Text

def dropPrefix? : List Code → List Code → Option (List Code)
  | [], text => some text
  | _ :: _, [] => none
  | expected :: pattern, character :: text =>
      if expected = character then dropPrefix? pattern text else none

def startsWith (pattern text : List Code) : Bool := (dropPrefix? pattern text).isSome

def occursIn (pattern : List Code) : List Code → Bool
  | [] => pattern.isEmpty
  | character :: rest => startsWith pattern (character :: rest) || occursIn pattern rest

theorem dropPrefix?_eq_some_iff (pattern text rest : List Code) :
    dropPrefix? pattern text = some rest ↔ text = pattern ++ rest := by
  induction pattern generalizing text with
  | nil => simp [dropPrefix?, eq_comm]
  | cons expected pattern ih =>
      cases text with
      | nil => simp [dropPrefix?]
      | cons character text =>
          by_cases same : expected = character
          · subst same
            simp [dropPrefix?, ih]
          · simp [dropPrefix?, same, Ne.symm same]

theorem length_of_dropPrefix? {pattern text rest : List Code}
    (found : dropPrefix? pattern text = some rest) :
    text.length = pattern.length + rest.length := by
  rw [(dropPrefix?_eq_some_iff pattern text rest).mp found, List.length_append]

def replaceAll (head : Code) (tail replacement : List Code) (text : List Code) : List Code :=
  match text with
  | [] => []
  | character :: rest =>
      if head = character then
        match _found : dropPrefix? tail rest with
        | some after => replacement ++ replaceAll head tail replacement after
        | none => character :: replaceAll head tail replacement rest
      else character :: replaceAll head tail replacement rest
termination_by text.length
decreasing_by
  · have := length_of_dropPrefix? _found
    simp only [List.length_cons]
    omega
  · simp
  · simp

/-- `replaceAll` for a pattern that may be empty; an empty pattern replaces nothing. -/
def replacing (pattern replacement text : List Code) : List Code :=
  match pattern with
  | [] => text
  | head :: tail => replaceAll head tail replacement text

end SecretFill.Text
