import SecretFill.Decimal.Notation
/-!
Dates and moments. A moment may carry the offset of its time zone from universal time; two moments
with offsets are the same when they are the same instant.
-/

namespace SecretFill.Data

open SecretFill.Decimal

structure Date where
  year : Nat
  month : Nat
  day : Nat
  deriving DecidableEq, Repr

structure Moment where
  date : Date
  hour : Nat
  minute : Nat
  second : Nat
  microsecond : Nat
  /-- Minutes ahead of universal time. -/
  offset : Option Int
  deriving DecidableEq, Repr

def isLeapYear (year : Nat) : Bool := (year % 4 == 0 && year % 100 != 0) || year % 400 == 0

def daysInMonth (year month : Nat) : Nat :=
  if month == 2 then (if isLeapYear year then 29 else 28)
  else if month == 4 || month == 6 || month == 9 || month == 11 then 30
  else 31

/-- The days in the first months of a year, as many months as are asked for. -/
def daysThrough (year : Nat) : Nat → Nat
  | 0 => 0
  | months + 1 => daysThrough year months + daysInMonth year (months + 1)

/-- The number of a date, where the first day of the first year has the number one. -/
def Date.dayNumber (date : Date) : Nat :=
  let past := date.year - 1
  past * 365 + past / 4 - past / 100 + past / 400 + daysThrough date.year (date.month - 1) +
    date.day

/-- Microseconds since the start of the first year, in the moment's own time zone. -/
def Moment.localTime (moment : Moment) : Int :=
  let seconds := ((moment.date.dayNumber * 24 + moment.hour) * 60 + moment.minute) * 60 +
    moment.second
  Int.ofNat (seconds * 1000000 + moment.microsecond)

def Moment.same (first second : Moment) : Bool :=
  match first.offset, second.offset with
  | none, none => first.localTime == second.localTime
  | some early, some late =>
      first.localTime - early * 60000000 == second.localTime - late * 60000000
  | _, _ => false

def padded (width number : Nat) : Text :=
  Text.ofList (padLeft width '0' (digitsText number))

def Date.text (date : Date) : Text :=
  padded 4 date.year ++ "-" ++ padded 2 date.month ++ "-" ++ padded 2 date.day

def offsetText (minutes : Int) : Text :=
  (if minutes < 0 then "-" else "+") ++ padded 2 (minutes.natAbs / 60) ++ ":" ++
    padded 2 (minutes.natAbs % 60)

def Moment.text (moment : Moment) : Text :=
  moment.date.text ++ " " ++ padded 2 moment.hour ++ ":" ++ padded 2 moment.minute ++ ":" ++
    padded 2 moment.second ++
    (if moment.microsecond = 0 then ("" : Text) else "." ++ padded 6 moment.microsecond) ++
    (moment.offset.map offsetText).getD ""

end SecretFill.Data
