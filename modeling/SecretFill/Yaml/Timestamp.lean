import SecretFill.Data.Calendar
import SecretFill.Yaml.Failure
/-!
The written form of dates and moments: year, month and day joined by hyphens, and then perhaps a
time of day with a fraction and a time zone.
-/

namespace SecretFill.Yaml.Timestamp

open SecretFill.Data SecretFill.Decimal

/-- The digits of a zone: its sign, hours and minutes; universal time has none of them. -/
inductive Zone
  | universal
  | shifted (behind : Bool) (hours minutes : List Code)
  deriving DecidableEq, Repr

structure Clock where
  hour : List Code
  minute : List Code
  second : List Code
  fraction : List Code
  zone : Option Zone
  deriving DecidableEq, Repr

structure Form where
  year : List Code
  month : List Code
  day : List Code
  clock : Option Clock
  deriving DecidableEq, Repr

def takeDigits (least most : Nat) (text : List Code) : Option (List Code × List Code) :=
  let digits := (text.take most).takeWhile Code.isDigit
  if least ≤ digits.length then some (digits, text.drop digits.length) else none

def takeMark (mark : Code) : List Code → Option (List Code)
  | character :: rest => if character = mark then some rest else none
  | [] => none

def zone? (text : List Code) : Option (Option Zone) :=
  if text.isEmpty then some none
  else
    match text.dropWhile isSpaceOrTab with
    | ['Z'] => some (some .universal)
    | sign :: rest =>
        if sign = '+' ∨ sign = '-' then do
          let (hours, rest) ← takeDigits 1 2 rest
          match rest with
          | [] => some (some (.shifted (sign = '-') hours []))
          | ':' :: rest =>
              let (minutes, rest) ← takeDigits 2 2 rest
              if rest.isEmpty then some (some (.shifted (sign = '-') hours minutes)) else none
          | _ => none
        else none
    | [] => none

def clock? (text : List Code) : Option Clock := do
  let (hour, rest) ← takeDigits 1 2 text
  let (minute, rest) ← takeDigits 2 2 (← takeMark ':' rest)
  let (second, rest) ← takeDigits 2 2 (← takeMark ':' rest)
  let (fraction, rest) :=
    match rest with
    | '.' :: rest => (rest.takeWhile Code.isDigit, rest.dropWhile Code.isDigit)
    | rest => ([], rest)
  let zone ← zone? rest
  some ⟨hour, minute, second, fraction, zone⟩

def afterGap? : List Code → Option (List Code)
  | [] => none
  | character :: rest =>
      if character = 'T' ∨ character = 't' then some rest
      else if isSpaceOrTab character then some (rest.dropWhile isSpaceOrTab)
      else none

def form? (text : List Code) : Option Form := do
  let (year, rest) ← takeDigits 4 4 text
  let (month, rest) ← takeDigits 1 2 (← takeMark '-' rest)
  let (day, rest) ← takeDigits 1 2 (← takeMark '-' rest)
  if rest.isEmpty then some ⟨year, month, day, none⟩
  else
    let clock ← clock? (← afterGap? rest)
    some ⟨year, month, day, some clock⟩

/-- Whether a plain scalar of this form is a timestamp: a date alone has two digits each for
month and day. -/
def Form.isImplicit (form : Form) : Bool :=
  form.clock.isSome || (form.month.length == 2 && form.day.length == 2)

def Form.date (form : Form) : Except ScalarFault Date :=
  let year := ofDigits 10 form.year
  let month := ofDigits 10 form.month
  let day := ofDigits 10 form.day
  if year = 0 then .error (.year year)
  else if month < 1 ∨ 12 < month then .error .month
  else if day < 1 ∨ daysInMonth year month < day then .error .day
  else .ok ⟨year, month, day⟩

def microseconds (fraction : List Code) : Nat :=
  let digits := fraction.take 6
  ofDigits 10 (digits ++ List.replicate (6 - digits.length) (Code.char '0'))

def Zone.offset : Zone → Except ScalarFault Int
  | .universal => .ok 0
  | .shifted behind hours minutes =>
      let size := Int.ofNat (ofDigits 10 hours * 60 + ofDigits 10 minutes)
      let offset := if behind then -size else size
      if size < 1440 then .ok offset else .error (.offset offset)

def Form.moment (form : Form) (clock : Clock) : Except ScalarFault Moment := do
  -- The zone is checked before the date and the time of day.
  let offset ←
    match clock.zone with
    | none => .ok none
    | some zone => (zone.offset).map some
  let date ← form.date
  let hour := ofDigits 10 clock.hour
  let minute := ofDigits 10 clock.minute
  let second := ofDigits 10 clock.second
  if 23 < hour then .error .hour
  else if 59 < minute then .error .minute
  else if 59 < second then .error .second
  else .ok ⟨date, hour, minute, second, microseconds clock.fraction, offset⟩

end SecretFill.Yaml.Timestamp
