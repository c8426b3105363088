import SecretFill.Text.Pieces
import SecretFill.Text.Search
/-!
Masking of secret values. A value is cut at its line breaks, and every line that is not empty and
not shorter than the least length is registered, so that texts can be redacted before anybody sees
them. Longer lines are redacted first: a line that is part of another never breaks it up.
-/

namespace SecretFill

open SecretFill.Text

structure Masker where
  minLength : Nat
  /-- The registered lines, in the order in which they were. -/
  lines : List (List Code)
  deriving DecidableEq, Repr

structure NegativeLength where
  length : Int
  deriving DecidableEq, Repr

def NegativeLength.message (fault : NegativeLength) : Text :=
  "min_length must be >= 0, got " ++ toString fault.length

structure Masking where
  masker : Masker
  /-- The lines that were not registered before. -/
  registered : List (List Code)
  /-- All lines of the value that are secret, repeats included: the log is told each of them. -/
  announced : List (List Code)
  deriving DecidableEq, Repr

namespace Masker

def marker : List Code := ("***REDACTED***" : Text).toList

def ofLength (minLength : Nat) : Masker := ⟨minLength, []⟩

def ofLength? (minLength : Int) : Except NegativeLength Masker :=
  if minLength < 0 then .error ⟨minLength⟩ else .ok (ofLength minLength.toNat)

def isSecret (masker : Masker) (line : List Code) : Bool :=
  !line.isEmpty && masker.minLength ≤ line.length

def secretLines (masker : Masker) (value : List Code) : List (List Code) :=
  (Text.lines value).filter masker.isSecret

/-- The lines of a list that `known` lacks, each once. -/
def additions (known : List (List Code)) : List (List Code) → List (List Code)
  | [] => []
  | line :: rest =>
      if line ∈ known then additions known rest
      else line :: additions (known ++ [line]) rest

def mask (masker : Masker) (value : List Code) : Masking :=
  let secrets := masker.secretLines value
  let registered := additions masker.lines secrets
  ⟨{ masker with lines := masker.lines ++ registered }, registered, secrets⟩

/-- The registered lines, longer ones first, lines of one length as they were registered. -/
def patterns (masker : Masker) : List (List Code) :=
  masker.lines.mergeSort fun first second => second.length ≤ first.length

def redact (masker : Masker) (text : List Code) : List Code :=
  masker.patterns.foldl (fun text line => replacing line marker text) text

def redacted (masker : Masker) (text : Text) : Text :=
  Text.ofList (masker.redact text.toList)

end Masker

end SecretFill
