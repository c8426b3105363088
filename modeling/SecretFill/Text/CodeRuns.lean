import SecretFill.Text.Code
/-!
Classes of characters given by runs of code points: an increasing list in which each code point
begins a run or ends it, in turn.
-/

namespace SecretFill.Text

def insideRuns (bounds : List Nat) (character : Code) : Bool :=
  (bounds.takeWhile (· ≤ character.toNat)).length % 2 == 1

end SecretFill.Text
