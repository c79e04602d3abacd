import LispCalc.Decimal.Scientific

namespace LispCalc.Decimal

/-- The reals that round to one binary number, in units of a quarter of its last place. The ends
belong to it when its mantissa is even. -/
structure Interval where
  low : Nat
  middle : Nat
  high : Nat
  closed : Bool
  exponent : Int

/-- Below a power of two the neighbours lie twice as close as above it. -/
def Interval.around (f : Binary.Format) (m : Nat) (e : Int) : Interval :=
  let narrow := m == 2 ^ f.fractionBits && f.leastExponent < e
  { low := 4 * m - (if narrow then 1 else 2)
    middle := 4 * m
    high := 4 * m + 2
    closed := m % 2 == 0
    exponent := e - 2 }

namespace Interval

variable (i : Interval)

def unit (g : Int) : Ratio := ((Ratio.ofNat 1).scale 2 i.exponent).scale 10 (-g)

def has (g : Int) (d : Nat) : Bool :=
  let u := i.unit g
  let x := d * u.den
  if i.closed then i.low * u.num ≤ x && x ≤ i.high * u.num
  else i.low * u.num < x && x < i.high * u.num

/-- The multiple of `10 ^ g` nearest to the number among those that round to it; of two equally
near the greater. -/
def pick? (g : Int) : Option Nat :=
  let u := i.unit g
  let d := i.middle * u.num / u.den
  match i.has g d, i.has g (d + 1) with
  | true, true => some (if 2 * (i.middle * u.num) < (2 * d + 1) * u.den then d else d + 1)
  | true, false => some d
  | false, true => some (d + 1)
  | false, false => none

end Interval

def dropZeros (n : Nat) (e : Int) : Nat × Int :=
  if h : n ≠ 0 ∧ n % 10 = 0 then dropZeros (n / 10) (e + 1) else (n, e)
termination_by n
decreasing_by omega

def exact (m : Nat) (e : Int) : Nat × Int :=
  if 0 ≤ e then (m * 2 ^ e.toNat, 0) else (m * 5 ^ (-e).toNat, e)

/-- The fewest digits that round to `m * 2 ^ e` in its format, with their exponent of ten. Seventeen
are enough for a double. -/
def shortest (f : Binary.Format) (m : Nat) (e : Int) : Nat × Int :=
  let i := Interval.around f m e
  let k := leading ((Ratio.ofNat m).scale 2 e)
  let found := (List.range 17).findSome? fun (n : Nat) =>
    let g := k - n
    (i.pick? g).map fun d => (d, g)
  let (d, g) := found.getD (exact m e)
  dropZeros d g

def positional (ds : List Char) (e : Int) : List Char :=
  if 0 ≤ e then ds ++ List.replicate e.toNat '0'
  else
    let places := (-e).toNat
    if places < ds.length then ds.take (ds.length - places) ++ '.' :: ds.drop (ds.length - places)
    else '0' :: '.' :: List.replicate (places - ds.length) '0' ++ ds

def exponential (ds : List Char) (e : Int) : List Char :=
  let point := if ds.length = 1 then ds else ds.take 1 ++ '.' :: ds.drop 1
  point ++ 'e' :: integer (e + (ds.length - 1 : Nat))

/-- Numbers that get an exponent when they are written with a point: those of at least `10 ^ 16`,
and those below `10 ^ -4`. -/
def usesExponent (leadingExponent : Int) : Bool := leadingExponent < -4 || 16 ≤ leadingExponent

def minus (negative : Bool) (text : List Char) : String :=
  String.ofList (if negative then '-' :: text else text)

def special (f : Binary.Format) (write : Nat × Int → List Char) : Binary.Datum → String
  | .nan => "NaN"
  | .infinite negative => minus negative ['i', 'n', 'f']
  | .finite negative m e => minus negative (write (if m = 0 then (0, 0) else shortest f m e))

def plain (f : Binary.Format) : Binary.Datum → String :=
  special f fun (d, e) => positional (digits d) e

def pointed (x : Float) : String :=
  special Binary.double (fun (d, e) =>
    let ds := digits d
    if usesExponent (e + (ds.length - 1 : Nat)) then exponential ds e
    else if 0 ≤ e then positional ds e ++ ['.', '0']
    else positional ds e) (Binary.datum x)

end LispCalc.Decimal
