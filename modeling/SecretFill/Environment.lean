import SecretFill.Text.Code
/-!
The environment of a process: variables and their values. Where a variable is given twice, the
later value counts.
-/

namespace SecretFill

abbrev Environment := List (Text × Text)

namespace Environment

def get? (name : Text) : Environment → Option Text
  | [] => none
  | (present, value) :: rest =>
      match get? name rest with
      | some later => some later
      | none => if present = name then some value else none

def getD (environment : Environment) (name : Text) : Text := (environment.get? name).getD ""

end Environment

end SecretFill
