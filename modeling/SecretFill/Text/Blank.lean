import SecretFill.Text.Code
/-!
White space: the controls from tab to carriage return, and the space and separator characters of
Unicode. Trimming also sees the four information separators as blanks; numbers do not have those
around them. `trim` leaves a text that neither begins nor ends with a blank.
-/

namespace SecretFill.Text

def isWhiteSpace (character : Code) : Bool :=
  let code := character.toNat
  (9 ≤ code && code ≤ 13) || code == 32 || code == 0x85 || code == 0xA0 || code == 0x1680 ||
    (0x2000 ≤ code && code ≤ 0x200A) || code == 0x2028 || code == 0x2029 || code == 0x202F ||
    code == 0x205F || code == 0x3000

/-- White space or an information separator. -/
def isBlank (character : Code) : Bool :=
  isWhiteSpace character || (28 ≤ character.toNat && character.toNat ≤ 31)

def dropEndWhile (drops : Code → Bool) (text : List Code) : List Code :=
  (text.reverse.dropWhile drops).reverse

def strip (drops : Code → Bool) (text : List Code) : List Code :=
  dropEndWhile drops (text.dropWhile drops)

def trim (text : List Code) : List Code := strip isBlank text

def trimNumber (text : List Code) : List Code := strip isWhiteSpace text

def trimmed (text : Text) : Text := Text.ofList (trim text.toList)

end SecretFill.Text
