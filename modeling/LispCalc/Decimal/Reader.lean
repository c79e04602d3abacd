import LispCalc.Binary.Double
import LispCalc.Decimal.Digits

namespace LispCalc.Decimal

/-- The double nearest to `m * 10 ^ e`. Exponents that lie beyond every double are decided without
computing the power. -/
def nearestBits (m : Nat) (e : Int) : Nat :=
  if m = 0 then 0
  else if 0 ≤ e && 1024 ≤ (m.log2 : Int) + 3 * e then Binary.double.infinity
  else if e < 0 && (m.log2 : Int) + 1 + 3 * e ≤ -1076 then 0
  else Binary.double.nearest ((Ratio.ofNat m).scale 10 e)

def isWord (word : List Char) (s : List Char) : Bool := s.map Char.toLower == word

def splitSign : List Char → Bool × List Char
  | '-' :: r => (true, r)
  | '+' :: r => (false, r)
  | r => (false, r)

def exponent? : List Char → Option Int
  | [] => some 0
  | c :: r =>
    let (negative, ds) := splitSign r
    if (c == 'e' || c == 'E') && !ds.isEmpty && ds.all Char.isDigit then
      some (if negative then -(value ds : Int) else value ds)
    else none

def number? (s : List Char) : Option (Nat × Int) :=
  let whole := s.takeWhile Char.isDigit
  let (fraction, tail) : List Char × List Char :=
    match s.dropWhile Char.isDigit with
    | '.' :: r => (r.takeWhile Char.isDigit, r.dropWhile Char.isDigit)
    | r => ([], r)
  if whole.isEmpty && fraction.isEmpty then none
  else (exponent? tail).map fun e => (value (whole ++ fraction), e - fraction.length)

def float? (s : List Char) : Option Float :=
  let (negative, r) := splitSign s
  if isWord ['n', 'a', 'n'] r then some Binary.nan
  else if isWord ['i', 'n', 'f'] r || isWord ['i', 'n', 'f', 'i', 'n', 'i', 't', 'y'] r then
    some (Binary.infinite negative)
  else (number? r).map fun (m, e) => Binary.signed negative (nearestBits m e)

end LispCalc.Decimal
