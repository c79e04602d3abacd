import LispCalc.Ratio

namespace LispCalc.Binary

/-- An interchange format for floating-point numbers: below the sign bit a biased exponent, below
that a fraction. -/
structure Format where
  fractionBits : Nat
  exponentBits : Nat

def double : Format := ⟨52, 11⟩

def single : Format := ⟨23, 8⟩

/-- What a bit pattern stands for; a finite one is the mantissa times two to the exponent. -/
inductive Datum where
  | nan
  | infinite (negative : Bool)
  | finite (negative : Bool) (mantissa : Nat) (exponent : Int)

namespace Format

variable (f : Format)

def leastExponent : Int := 2 - 2 ^ (f.exponentBits - 1) - f.fractionBits

def infinity : Nat := (2 ^ f.exponentBits - 1) * 2 ^ f.fractionBits

def signBit : Nat := 2 ^ (f.fractionBits + f.exponentBits)

def decode (bits : Nat) : Datum :=
  let fraction := bits % 2 ^ f.fractionBits
  let biased := bits / 2 ^ f.fractionBits % 2 ^ f.exponentBits
  let negative := bits / f.signBit % 2 == 1
  if biased = 2 ^ f.exponentBits - 1 then
    if fraction = 0 then .infinite negative else .nan
  else if biased = 0 then .finite negative fraction f.leastExponent
  else .finite negative (2 ^ f.fractionBits + fraction) (f.leastExponent + biased - 1)

/-- The bits of the number nearest to a non-negative fraction, the even one of two that are equally
near. Consecutive numbers have consecutive bits, so a mantissa that rounds up to the next power of
two moves into the exponent by itself. -/
def nearest (r : Ratio) : Nat :=
  if r.num = 0 then 0
  else
    let e := max (r.log2 - f.fractionBits) f.leastExponent
    min ((e - f.leastExponent).toNat * 2 ^ f.fractionBits + (r.scale 2 (-e)).round) f.infinity

end Format

end LispCalc.Binary
