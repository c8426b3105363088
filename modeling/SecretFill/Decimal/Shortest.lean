import SecretFill.Decimal.Binary64
/-!
The fewest decimal digits that read back to a given number. On each grid of `count` digits only
the two neighbours of the value can lie nearest to it; the first grid on which one of them falls
into the interval of reals that round to the number wins, and the nearer one is taken.
-/

namespace SecretFill.Decimal.Binary64

/-- The reals that round to a number, in quarters of its last binary place, and the value. -/
structure Interval where
  low : Nat
  value : Nat
  high : Nat
  closed : Bool
  /-- A quarter of the last place is `unitTop / unitBottom`. -/
  unitTop : Nat
  unitBottom : Nat

def interval (number : Binary64) : Interval :=
  let significand := number.significand
  let quarter := number.exponent - 2
  -- Below a power of two numbers stand twice as close as above it.
  let narrow := significand == leadingBit && number.exponent != -1074
  { low := 4 * significand - (if narrow then 1 else 2)
    value := 4 * significand
    high := 4 * significand + 2
    closed := significand % 2 == 0
    unitTop := if 0 ≤ quarter then twoTo quarter.toNat else 1
    unitBottom := if 0 ≤ quarter then 1 else twoTo (-quarter).toNat }

def Interval.decimal (bounds : Interval) (digits : Nat) (scale : Int) : Nat :=
  digits * (if 0 ≤ scale then tenTo scale.toNat else 1) * bounds.unitBottom

def Interval.place (bounds : Interval) (quarters : Nat) (scale : Int) : Nat :=
  quarters * (if 0 ≤ scale then 1 else tenTo (-scale).toNat) * bounds.unitTop

def Interval.holds (bounds : Interval) (digits : Nat) (scale : Int) : Bool :=
  let point := bounds.decimal digits scale
  let low := bounds.place bounds.low scale
  let high := bounds.place bounds.high scale
  if bounds.closed then low ≤ point && point ≤ high else low < point && point < high

def Interval.leading (bounds : Interval) : Int :=
  let top := bounds.value * bounds.unitTop
  if bounds.unitBottom ≤ top then
    Int.ofNat (Nat.toDigits 10 (top / bounds.unitBottom)).length - 1
  else
    match (List.range 340).find? fun places => bounds.unitBottom ≤ top * tenTo places with
    | some places => -Int.ofNat places
    | none => -340

/-- The neighbour of the value on the grid of step `10 ^ scale` that reads back, if one does. -/
def Interval.pick (bounds : Interval) (scale : Int) : Option Nat :=
  let value := bounds.place bounds.value scale
  let step := bounds.decimal 1 scale
  let below := value / step
  let above := below + 1
  match bounds.holds below scale, bounds.holds above scale with
  | true, true =>
      let fromBelow := value - below * step
      let fromAbove := above * step - value
      if fromBelow < fromAbove then some below
      else if fromAbove < fromBelow then some above
      else if below % 2 == 0 then some below else some above
  | true, false => some below
  | false, true => some above
  | false, false => none

/-- Drops zeros at the end of the digits. The neighbour above `9…9` on its grid ends in one. -/
def dropZeros : Nat → Nat × Int → Nat × Int
  | 0, shown => shown
  | count + 1, (digits, scale) =>
      if digits != 0 && digits % 10 == 0 then dropZeros count (digits / 10, scale + 1)
      else (digits, scale)

def shortest (number : Binary64) : Nat × Int :=
  let bounds := number.interval
  let leading := bounds.leading
  let candidates := (List.range 17).filterMap fun count =>
    let scale := leading - Int.ofNat count
    (bounds.pick scale).map fun digits => (digits, scale)
  dropZeros 17 (candidates.headD (0, 0))

end SecretFill.Decimal.Binary64
