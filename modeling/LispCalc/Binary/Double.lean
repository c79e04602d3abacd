import LispCalc.Binary.Format

namespace LispCalc.Binary

def datum (x : Float) : Datum := double.decode x.toBits.toNat

def signed (negative : Bool) (bits : Nat) : Float :=
  Float.ofBits (UInt64.ofNat (if negative then double.signBit + bits else bits))

def nan : Float := Float.ofBits (UInt64.ofNat (double.infinity + 2 ^ (double.fractionBits - 1)))

def infinite (negative : Bool) : Float := signed negative double.infinity

def ofRatio (negative : Bool) (r : Ratio) : Float := signed negative (double.nearest r)

def ofInt (n : Int) : Float := ofRatio (n < 0) (.ofNat n.natAbs)

def ofSingle (x : Float32) : Float :=
  match single.decode x.toBits.toNat with
  | .nan => nan
  | .infinite negative => infinite negative
  | .finite negative m e => ofRatio negative ((Ratio.ofNat m).scale 2 e)

end LispCalc.Binary
