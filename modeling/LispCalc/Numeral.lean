import LispCalc.Decimal.Reader

namespace LispCalc.Numeral

def digit? (c : Char) : Option Nat :=
  if c.isDigit then some (c.toNat - 48)
  else if 'a' ≤ c && c ≤ 'f' then some (c.toNat - 87)
  else if 'A' ≤ c && c ≤ 'F' then some (c.toNat - 55)
  else none

def digitIn? (radix : Nat) (c : Char) : Option Nat :=
  (digit? c).filter (· < radix)

def continue? (radix : Nat) : Nat → List Char → Option Nat
  | n, [] => some n
  | n, '_' :: c :: r => (digitIn? radix c).bind fun d => continue? radix (radix * n + d) r
  | n, c :: r => (digitIn? radix c).bind fun d => continue? radix (radix * n + d) r

def marked? (radix : Nat) (s : List Char) : Option Nat :=
  if s.isEmpty then none else continue? radix 0 s

/-- A number without a sign. A zero in front of further digits makes them octal. -/
def magnitude? : List Char → Option Nat
  | '0' :: 'x' :: r | '0' :: 'X' :: r => marked? 16 r
  | '0' :: 'b' :: r | '0' :: 'B' :: r => marked? 2 r
  | '0' :: 'o' :: r | '0' :: 'O' :: r => marked? 8 r
  | '0' :: r => continue? 8 0 r
  | c :: r => if c.isDigit then continue? 10 (c.toNat - 48) r else none
  | [] => none

/-- The integer that a numeral spells, however large it is. -/
def value? (s : List Char) : Option Int :=
  let (negative, r) := Decimal.splitSign s
  (magnitude? r).map fun n => if negative then -(n : Int) else n

def int64? (s : List Char) : Option Int64 :=
  (value? s).bind fun n =>
    if Int64.minValue.toInt ≤ n && n ≤ Int64.maxValue.toInt then some (Int64.ofInt n) else none

end LispCalc.Numeral
