import LispCalc.Binary.Double
import LispCalc.Decimal.Digits

namespace LispCalc.Decimal

def leading (r : Ratio) : Int :=
  if r.den ≤ r.num then (width (r.num / r.den) : Int) - 1
  else -(width ((r.den - 1) / r.num) : Int)

def sevenDigits (r : Ratio) : Nat × Int :=
  if r.num = 0 then (0, 0)
  else
    let k := leading r
    let n := (r.scale 10 (6 - k)).round
    if n < 10000000 then (n, k) else (1000000, k + 1)

def signedExponent (e : Int) : List Char :=
  (if e < 0 then '-' else '+') :: padded 2 e.natAbs

/-- One digit, a point, six digits, and a signed exponent of at least two digits. -/
def scientificText (negative : Bool) (r : Ratio) : List Char :=
  let (n, e) := sevenDigits r
  (if negative then ['-'] else []) ++ digitChar (n / 1000000) :: '.' :: lastDigits 6 n
    ++ 'e' :: signedExponent e

def scientific (x : Float) : String :=
  match Binary.datum x with
  | .nan => "NaN"
  | .infinite negative => if negative then "-Inf" else "+Inf"
  | .finite negative m e => String.ofList (scientificText negative ((Ratio.ofNat m).scale 2 e))

end LispCalc.Decimal
