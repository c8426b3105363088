import SecretFill.Reference
import SecretFill.Text.Search
/-!
Placeholders. A key `K` is written in braces or bare; the bare form ends where no letter, digit
or underscore follows, so that `$DB_PASS` is no placeholder of `DB`. Any text may be a key.
-/

namespace SecretFill

open SecretFill.Text

namespace Placeholder

inductive Form
  | braced
  | bare
  deriving DecidableEq, Repr

def Form.written (key : List Code) : Form → List Code
  | .braced => Code.char '$' :: '\x7b' :: key ++ [Code.char '\x7d']
  | .bare => '$' :: key

/-- Whether a bare placeholder may end where `rest` follows. -/
def endsBefore (rest : List Code) : Bool :=
  match rest with
  | [] => true
  | next :: _ => !isKeyCharacter next

def Form.after? (form : Form) (key text : List Code) : Option (List Code) :=
  match form with
  | .braced => dropPrefix? (form.written key) text
  | .bare => (dropPrefix? (form.written key) text).filter endsBefore

def Form.startsAt (form : Form) (key text : List Code) : Bool := (form.after? key text).isSome

def Form.occurs (form : Form) (key : List Code) : List Code → Bool
  | [] => false
  | character :: rest =>
      form.startsAt key (character :: rest) || form.occurs key rest

/-- Start and end of every placeholder in a text that begins at `position`, left to right and
without overlap; `skip` characters still belong to the last one found. -/
def Form.spans (form : Form) (key : List Code) (position skip : Nat) :
    List Code → List (Nat × Nat)
  | [] => []
  | character :: rest =>
      match skip with
      | skip + 1 => form.spans key (position + 1) skip rest
      | 0 =>
          if form.startsAt key (character :: rest) then
            let size := (form.written key).length
            (position, position + size) :: form.spans key (position + 1) (size - 1) rest
          else form.spans key (position + 1) 0 rest

def occurs (key text : List Code) : Bool :=
  Form.braced.occurs key text || Form.bare.occurs key text

end Placeholder

end SecretFill
