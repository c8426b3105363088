import SecretFill.Decimal.Binary64
import SecretFill.Masker
/-!
Redaction inside structured data. Every text in it is redacted but the keys of mappings, and its
shape stays as it was.
-/

namespace SecretFill

open SecretFill.Decimal

inductive Payload
  | null
  | bool (value : Bool)
  | int (value : Int)
  | real (value : Binary64)
  | text (value : Text)
  | list (items : List Payload)
  | tuple (items : List Payload)
  | mapping (entries : List (Text × Payload))
  deriving Repr, Inhabited

namespace Payload

mutual

def redact (masker : Masker) : Payload → Payload
  | .null => .null
  | .bool value => .bool value
  | .int value => .int value
  | .real value => .real value
  | .text value => .text (masker.redacted value)
  | .list items => .list (redactAll masker items)
  | .tuple items => .tuple (redactAll masker items)
  | .mapping entries => .mapping (redactEntries masker entries)

def redactAll (masker : Masker) : List Payload → List Payload
  | [] => []
  | item :: rest => redact masker item :: redactAll masker rest

def redactEntries (masker : Masker) : List (Text × Payload) → List (Text × Payload)
  | [] => []
  | (key, value) :: rest => (key, redact masker value) :: redactEntries masker rest

end

end Payload

end SecretFill
