import SecretFill.Data.Value
import SecretFill.Decimal.Notation
/-!
Paths of nodes: the keys from the root joined by points, and positions in lists in brackets. The
root of a single document is `$`, and those of several ones are numbered.
-/

namespace SecretFill.Path

open SecretFill.Data SecretFill.Decimal

def root : Text := "$"

def ofRoot (index count : Nat) : Text :=
  if count = 1 then root else root ++ Text.ofList (digitsText index)

def entry (parent label : Text) : Text :=
  if parent = root then label else parent ++ "." ++ label

def item (parent : Text) (index : Nat) : Text := parent ++ "[" ++ Text.ofList (digitsText index) ++ "]"

end SecretFill.Path
