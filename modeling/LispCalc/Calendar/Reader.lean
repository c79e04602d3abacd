import LispCalc.Calendar.Instant
import LispCalc.Text.Blank

namespace LispCalc.Calendar

def digits? (least most : Nat) (s : List Char) : Option (Nat × List Char) :=
  let ds := (s.take most).takeWhile Char.isDigit
  if ds.length < least then none else some (Decimal.value ds, s.drop ds.length)

def after? (c : Char) : List Char → Option (List Char)
  | d :: r => if d = c then some r else none
  | [] => none

def day? (year month day : Nat) : Option Day :=
  let d : Day := ⟨year, month, day⟩
  if d.isValid then some d else none

/-- A day in the order year, month, day, and what follows it. Month and day have two digits, or one
where `least` allows it. -/
def yearFirst? (sep : Char) (least : Nat) (s : List Char) : Option (Day × List Char) := do
  let (y, s) ← digits? 4 4 s
  let (m, s) ← digits? least 2 (← after? sep s)
  let (d, s) ← digits? least 2 (← after? sep s)
  return (← day? y m d, s)

def monthFirst? (sep : Char) (s : List Char) : Option (Day × List Char) := do
  let (m, s) ← digits? 1 2 s
  let (d, s) ← digits? 1 2 (← after? sep s)
  let (y, s) ← digits? 4 4 (← after? sep s)
  return (← day? y m d, s)

/-- The time a clock shows. Second 60 is a leap second. -/
structure Clock where
  hour : Nat
  minute : Nat
  second : Nat
  nanos : Nat

namespace Clock

def isValid (c : Clock) : Bool := c.hour < 24 && c.minute < 60 && c.second ≤ 60

def secondOfDay (c : Clock) : Nat := 3600 * c.hour + 60 * c.minute + min c.second 59

def leapNanos (c : Clock) : Nat := c.nanos + (if c.second = 60 then billion else 0)

end Clock

def instant? (d : Day) (c : Clock) (offset : Int) : Option Instant :=
  if c.isValid then some ⟨86400 * d.number + c.secondOfDay - offset, c.leapNanos, offset⟩ else none

/-- A point and at least one digit, in nanoseconds; digits beyond the ninth are passed over. Without
a point there is no fraction. -/
def fraction? : List Char → Option (Nat × List Char)
  | '.' :: s =>
    let ds := s.takeWhile Char.isDigit
    if ds.isEmpty then none
    else
      let nine := ds.take 9
      some (Decimal.value nine * 10 ^ (9 - nine.length), s.drop ds.length)
  | s => some (0, s)

def strictClock? (s : List Char) : Option (Clock × List Char) := do
  let (h, s) ← digits? 2 2 s
  let (m, s) ← digits? 2 2 (← after? ':' s)
  let (sec, s) ← digits? 2 2 (← after? ':' s)
  let (nanos, s) ← fraction? s
  return (⟨h, m, sec, nanos⟩, s)

def looseClock? (s : List Char) : Option (Clock × List Char) := do
  let (h, s) ← digits? 1 2 (Text.trimStart s)
  let (m, s) ← digits? 1 2 (Text.trimStart (← after? ':' s))
  match s with
  | ':' :: s =>
    let (sec, s) ← digits? 1 2 (Text.trimStart s)
    let (nanos, s) ← fraction? s
    return (⟨h, m, sec, nanos⟩, s)
  | s => return (⟨h, m, 0, 0⟩, s)

def offset? : List Char → Option Int
  | ['Z'] | ['z'] => some 0
  | sign :: s => do
    let (h, s) ← digits? 2 2 s
    let (m, s) ← digits? 2 2 (← after? ':' s)
    if s.isEmpty && h < 24 && m < 60 then
      let n : Int := 3600 * h + 60 * m
      if sign = '+' then return n
      else if sign = '-' || sign = '\u2212' then return -n
      else none
    else none
  | [] => none

def zoned? (s : List Char) : Option Instant := do
  let (d, s) ← yearFirst? '-' 2 s
  let (c, s) ← strictClock? (← after? 'T' s)
  instant? d c (← offset? s)

def unzoned? (s : List Char) : Option Instant := do
  let (d, s) ← yearFirst? '-' 1 s
  let s ← after? 'T' s
  if s.contains '\n' then none
  else
    let (c, s) ← looseClock? s
    if s.isEmpty then instant? d c 0 else none

def wholeDay? : Option (Day × List Char) → Option Instant
  | some (d, []) => some (.ofDay d)
  | _ => none

/-- A date literal: a timestamp or a day. Slashed days have the month first, unless they start with
a year of four digits. -/
def date? (s : List Char) : Option Instant :=
  zoned? s <|> unzoned? s <|> wholeDay? (yearFirst? '-' 1 s)
    <|> wholeDay? (monthFirst? '/' s) <|> wholeDay? (yearFirst? '/' 1 s)

end LispCalc.Calendar
