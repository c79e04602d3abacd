import LispCalc.Calendar.Day
import LispCalc.Decimal.Digits

namespace LispCalc.Calendar

open Decimal

/-- A point in time, with the offset of the clock that shows it. A billion nanoseconds or more are
inside a leap second, which follows the second they are counted from. -/
structure Instant where
  /-- Seconds since the start of 1970, universal time. -/
  seconds : Int
  nanos : Nat
  /-- Seconds by which the clock is ahead of universal time. -/
  offset : Int
deriving DecidableEq

def billion : Nat := 1000000000

namespace Instant

def ofDay (d : Day) : Instant := ⟨86400 * d.number, 0, 0⟩

def same (a b : Instant) : Bool := a.seconds == b.seconds && a.nanos == b.nanos

variable (t : Instant)

def clock : Int := t.seconds + t.offset

def day : Day := Day.ofNumber (t.clock / 86400)

def secondOfDay : Nat := (t.clock % 86400).toNat

def second : Nat := t.secondOfDay % 60 + (if t.nanos < billion then 0 else 1)

def fraction : Nat := if t.nanos < billion then t.nanos else t.nanos - billion

def yearText (y : Int) : List Char :=
  if 0 ≤ y ∧ y ≤ 9999 then padded 4 y.toNat
  else (if y < 0 then '-' else '+') :: padded 4 y.natAbs

def dateText : List Char :=
  let d := t.day
  yearText d.year ++ '-' :: padded 2 d.month ++ '-' :: padded 2 d.day

def timeText : List Char :=
  padded 2 (t.secondOfDay / 3600) ++ ':' :: padded 2 (t.secondOfDay / 60 % 60)
    ++ ':' :: padded 2 t.second

def sign (n : Int) : Char := if n < 0 then '-' else '+'

/-- The offset to the nearest minute, or `Z` if there is none. -/
def zoneText (offset : Int) : List Char :=
  if offset = 0 then ['Z']
  else
    let minutes := (offset.natAbs + 30) / 60
    sign offset :: padded 2 (minutes / 60) ++ ':' :: padded 2 (minutes % 60)

def render : String :=
  String.ofList (t.dateText ++ 'T' :: t.timeText ++ zoneText t.offset)

def fractionText (nanos : Nat) : List Char :=
  if nanos = 0 then []
  else if nanos % 1000000 = 0 then '.' :: lastDigits 3 (nanos / 1000000)
  else if nanos % 1000 = 0 then '.' :: lastDigits 6 (nanos / 1000)
  else '.' :: lastDigits 9 nanos

def offsetText (offset : Int) : List Char :=
  let s := offset.natAbs
  sign offset :: padded 2 (s / 3600) ++ ':' :: padded 2 (s / 60 % 60)
    ++ (if s % 60 = 0 then [] else ':' :: padded 2 (s % 60))

def exact : String :=
  String.ofList (t.dateText ++ 'T' :: t.timeText ++ fractionText t.fraction ++ offsetText t.offset)

end Instant

end LispCalc.Calendar
