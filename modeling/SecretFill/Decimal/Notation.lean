import SecretFill.Text.Code
import SecretFill.Decimal.Shortest
/-!
The text of a number: which exponents are written positionally, and how the exponent of the
others looks. `Notation.general` is the layout that log messages, paths and documents share.
-/

namespace SecretFill.Decimal

structure Layout where
  /-- The least exponent of the first digit that is written positionally. -/
  positionalFrom : Int
  /-- The first exponent that is not written positionally any more. -/
  positionalBelow : Int
  /-- The least number of digits of a written exponent. -/
  exponentWidth : Nat
  infinity : Text
  nan : Text

/-- Numbers from `1e-4` to below `1e16` are positional and keep a fraction digit; other exponents
have a sign and two digits. -/
def Layout.general : Layout := ⟨-4, 16, 2, "inf", "nan"⟩

def digitsText (number : Nat) : List Code := (Nat.toDigits 10 number).map Code.char

def integerText (number : Int) : List Code :=
  if number < 0 then '-' :: digitsText number.natAbs else digitsText number.natAbs

def padLeft (width : Nat) (filler : Code) (text : List Code) : List Code :=
  List.replicate (width - text.length) filler ++ text

def Layout.unsigned (layout : Layout) (digits : List Code) (leading : Int) : List Code :=
  if layout.positionalFrom ≤ leading ∧ leading < layout.positionalBelow then
    if leading < 0 then
      ("0." : Text).toList ++ List.replicate ((-leading).toNat - 1) (Code.char '0') ++ digits
    else
      let whole := leading.toNat + 1
      if digits.length ≤ whole then
        digits ++ List.replicate (whole - digits.length) (Code.char '0') ++ (".0" : Text).toList
      else digits.take whole ++ Code.char '.' :: digits.drop whole
  else
    let mantissa :=
      match digits with
      | first :: second :: rest => first :: '.' :: second :: rest
      | short => short
    let sign := if leading < 0 then '-' else '+'
    mantissa ++ Code.char 'e' :: sign :: padLeft layout.exponentWidth '0' (digitsText leading.natAbs)

def Layout.text (layout : Layout) (number : Binary64) : List Code :=
  if number.isNaN then layout.nan.toList
  else
    let body :=
      if number.isInfinite then layout.infinity.toList
      else if number.magnitude == 0 then ("0.0" : Text).toList
      else
        let (digits, scale) := number.shortest
        let shown := digitsText digits
        layout.unsigned shown (scale + Int.ofNat shown.length - 1)
    if number.negative then '-' :: body else body

def Binary64.text (number : Binary64) : Text := Text.ofList (Layout.general.text number)

end SecretFill.Decimal
