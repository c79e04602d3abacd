namespace LispCalc

/-- Powers of numbers are those of the core library, whatever else is imported. -/
instance (priority := high) corePow {α : Type} [NatPow α] : Pow α Nat := instPowNat

/-- A non-negative fraction, not necessarily in lowest terms. -/
structure Ratio where
  num : Nat
  den : Nat

namespace Ratio

def ofNat (n : Nat) : Ratio := ⟨n, 1⟩

def scale (r : Ratio) (b : Nat) (e : Int) : Ratio :=
  ⟨r.num * b ^ e.toNat, r.den * b ^ (-e).toNat⟩

/-- The nearest natural number, the even one of two that are equally near. -/
def round (r : Ratio) : Nat :=
  let q := r.num / r.den
  let twice := 2 * (r.num % r.den)
  if twice < r.den then q
  else if r.den < twice then q + 1
  else q + q % 2

def log2 (r : Ratio) : Int :=
  let e : Int := (r.num.log2 : Int) - (r.den.log2 : Int)
  if r.num * 2 ^ (-e).toNat < r.den * 2 ^ e.toNat then e - 1 else e

theorem round_le (r : Ratio) (h : 0 < r.den) : 2 * (r.round * r.den) ≤ 2 * r.num + r.den := by
  have e := Nat.div_add_mod r.num r.den
  have l := Nat.mod_lt r.num h
  simp only [round]
  generalize r.num / r.den = q at *
  generalize r.num % r.den = t at *
  have hq : (q + 1) * r.den = r.den * q + r.den := by rw [Nat.mul_comm, Nat.mul_add, Nat.mul_one]
  have hc : q * r.den = r.den * q := Nat.mul_comm ..
  split
  · omega
  · split
    · omega
    · rcases Nat.mod_two_eq_zero_or_one q with h2 | h2 <;> simp only [h2, Nat.add_zero] <;> omega

theorem le_round (r : Ratio) (h : 0 < r.den) : 2 * r.num ≤ 2 * (r.round * r.den) + r.den := by
  have e := Nat.div_add_mod r.num r.den
  have l := Nat.mod_lt r.num h
  simp only [round]
  generalize r.num / r.den = q at *
  generalize r.num % r.den = t at *
  have hq : (q + 1) * r.den = r.den * q + r.den := by rw [Nat.mul_comm, Nat.mul_add, Nat.mul_one]
  have hc : q * r.den = r.den * q := Nat.mul_comm ..
  split
  · omega
  · split
    · omega
    · rcases Nat.mod_two_eq_zero_or_one q with h2 | h2 <;> simp only [h2, Nat.add_zero] <;> omega

end Ratio

end LispCalc
