import LispCalc.Ratio

namespace LispCalc.Decimal

def width (n : Nat) : Nat := if n < 10 then 1 else width (n / 10) + 1

def digitChar (d : Nat) : Char := Char.ofNat (48 + d)

def lastDigits : Nat → Nat → List Char
  | 0, _ => []
  | k + 1, n => lastDigits k (n / 10) ++ [digitChar (n % 10)]

def padded (least n : Nat) : List Char := lastDigits (max least (width n)) n

def digits (n : Nat) : List Char := lastDigits (width n) n

def text (n : Nat) : String := String.ofList (digits n)

def integer (n : Int) : List Char :=
  if n < 0 then '-' :: digits n.natAbs else digits n.natAbs

def value (ds : List Char) : Nat := ds.foldl (fun n c => 10 * n + (c.toNat - 48)) 0

theorem width_pos (n : Nat) : 0 < width n := by
  unfold width
  split <;> omega

theorem lt_pow_width (n : Nat) : n < 10 ^ width n := by
  fun_induction width n with
  | case1 n h => simpa using h
  | case2 n _ ih => rw [Nat.pow_succ]; omega

theorem length_lastDigits (k n : Nat) : (lastDigits k n).length = k := by
  induction k generalizing n with
  | zero => rfl
  | succ k ih => simp [lastDigits, ih]

end LispCalc.Decimal
