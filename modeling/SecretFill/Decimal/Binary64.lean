/-!
Double-precision numbers as their 64 bits. A finite number is `significand · 2 ^ exponent` up to
its sign; `ofRatio` rounds a quotient to the nearest number, a half going to the even one.
-/

namespace SecretFill.Decimal

def twoTo (exponent : Nat) : Nat := Nat.pow 2 exponent

def tenTo (exponent : Nat) : Nat := Nat.pow 10 exponent

structure Binary64 where
  bits : UInt64
  deriving DecidableEq, Repr, Inhabited

namespace Binary64

def negative (number : Binary64) : Bool := number.bits >>> 63 == 1

def magnitude (number : Binary64) : Nat := (number.bits &&& 0x7FFFFFFFFFFFFFFF).toNat

def isNaN (number : Binary64) : Bool := 0x7FF0000000000000 < number.magnitude

def isInfinite (number : Binary64) : Bool := number.magnitude == 0x7FF0000000000000

/-- The weight of the bit before the fraction, which only subnormal numbers lack. -/
def leadingBit : Nat := twoTo 52

def significand (number : Binary64) : Nat :=
  let fraction := number.magnitude % leadingBit
  if number.magnitude < leadingBit then fraction else fraction + leadingBit

def exponent (number : Binary64) : Int :=
  if number.magnitude < leadingBit then -1074
  else Int.ofNat (number.magnitude / leadingBit) - 1075

def zero : Binary64 := ⟨0⟩
def infinity : Binary64 := ⟨0x7FF0000000000000⟩
def nan : Binary64 := ⟨0x7FF8000000000000⟩

def negate (number : Binary64) : Binary64 := ⟨number.bits ^^^ 0x8000000000000000⟩

def signed (number : Binary64) (size : Nat) : Int :=
  if number.negative then -Int.ofNat size else Int.ofNat size

/-- A finite number, counted in the least positive one. -/
def steps (number : Binary64) : Int :=
  number.signed (number.significand * twoTo (number.exponent + 1074).toNat)

/-- The quotient of two numbers rounded to a whole number, a half going to the even one. -/
def roundQuotient (numerator denominator : Nat) : Nat :=
  let whole := numerator / denominator
  let twice := 2 * (numerator % denominator)
  if twice < denominator then whole
  else if denominator < twice then whole + 1
  else if whole % 2 == 0 then whole else whole + 1

def ofRatio (numerator denominator : Nat) : Binary64 :=
  if numerator == 0 || denominator == 0 then zero
  else
    let guess := Int.ofNat numerator.log2 - Int.ofNat denominator.log2
    let reaches :=
      if 0 ≤ guess then denominator * twoTo guess.toNat ≤ numerator
      else denominator ≤ numerator * twoTo (-guess).toNat
    let top := if reaches then guess else guess - 1
    -- The last binary place: 52 below the first one, but not below that of subnormal numbers.
    let unit := max (top - 52) (-1074)
    let rounded :=
      if 0 ≤ unit then roundQuotient numerator (denominator * twoTo unit.toNat)
      else roundQuotient (numerator * twoTo (-unit).toNat) denominator
    -- The leading bit carries into the exponent, and so does rounding up to a power of two.
    let magnitude := (unit + 1074).toNat * leadingBit + rounded
    if 0x7FF0000000000000 ≤ magnitude then infinity else ⟨magnitude.toUInt64⟩

/-- The number nearest to `digits · 10 ^ scale`. Exponents far outside the range of finite
numbers are answered without raising ten to them. -/
def ofDecimal (digits : Nat) (scale : Int) : Binary64 :=
  if digits == 0 then zero
  else
    let size := Int.ofNat (Nat.toDigits 10 digits).length + scale
    if 310 < size then infinity
    else if size < -330 then zero
    else if 0 ≤ scale then ofRatio (digits * tenTo scale.toNat) 1
    else ofRatio digits (tenTo (-scale).toNat)

def ofNat (count : Nat) : Binary64 := ofRatio count 1

def add (first second : Binary64) : Binary64 :=
  if first.isNaN || second.isNaN then nan
  else if first.isInfinite then
    if second.isInfinite && second != first then nan else first
  else if second.isInfinite then second
  else
    let sum := first.steps + second.steps
    if sum == 0 then if first.negative && second.negative then zero.negate else zero
    else
      let size := ofRatio sum.natAbs (twoTo 1074)
      if sum < 0 then size.negate else size

def mul (first second : Binary64) : Binary64 :=
  if first.isNaN || second.isNaN then nan
  else
    let size :=
      if first.isInfinite || second.isInfinite then
        if first.magnitude == 0 || second.magnitude == 0 then nan else infinity
      else ofRatio (first.steps.natAbs * second.steps.natAbs) (twoTo 2148)
    if first.negative == second.negative then size else size.negate

/-- Equality of numbers: the two zeros are equal. -/
def sameValue (first second : Binary64) : Bool :=
  first == second || (first.magnitude == 0 && second.magnitude == 0)

def isInteger (number : Binary64) (value : Int) : Bool :=
  if number.isNaN || number.isInfinite then false
  else
    let signed := number.signed number.significand
    if 0 ≤ number.exponent then signed * Int.ofNat (twoTo number.exponent.toNat) == value
    else signed == value * Int.ofNat (twoTo (-number.exponent).toNat)

end Binary64

end SecretFill.Decimal
