import SecretFill.Text.Code
/-!
Log records, and computations that write some before they end, with a result or an error.
-/

namespace SecretFill

namespace Log

inductive Level
  | debug
  | info
  | warning
  | error
  deriving DecidableEq, Repr

def Level.name : Level → Text
  | .debug => "DEBUG"
  | .info => "INFO"
  | .warning => "WARNING"
  | .error => "ERROR"

structure Record where
  level : Level
  message : Text
  deriving DecidableEq, Repr

def debug (message : Text) : Record := ⟨.debug, message⟩
def info (message : Text) : Record := ⟨.info, message⟩
def warning (message : Text) : Record := ⟨.warning, message⟩
def error (message : Text) : Record := ⟨.error, message⟩

def progress (verbose : Bool) (message : Text) : Record :=
  ⟨if verbose then .info else .debug, message⟩

end Log

/-- An outcome and the records written on the way to it. -/
structure Logged (ε α : Type) where
  log : List Log.Record
  outcome : Except ε α

namespace Logged

variable {ε α β : Type}

def ok (value : α) : Logged ε α := ⟨[], .ok value⟩

def fail (error : ε) : Logged ε α := ⟨[], .error error⟩

def ofExcept (outcome : Except ε α) : Logged ε α := ⟨[], outcome⟩

def after (records : List Log.Record) (logged : Logged ε α) : Logged ε α :=
  { logged with log := records ++ logged.log }

def andThen (first : Logged ε α) (next : α → Logged ε β) : Logged ε β :=
  match first.outcome with
  | .ok value => (next value).after first.log
  | .error error => ⟨first.log, .error error⟩

def mapError {δ : Type} (change : ε → δ) (logged : Logged ε α) : Logged δ α :=
  ⟨logged.log, logged.outcome.mapError change⟩

end Logged

end SecretFill
