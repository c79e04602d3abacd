import Mathlib
import LispCalc.Ratio

namespace LispCalc

namespace Ratio

variable {r : Ratio} {n : Nat}

def value (r : Ratio) : ℚ := r.num / r.den

theorem even_round (h : 2 * (r.round * r.den) = 2 * r.num + r.den ∨
    2 * r.num = 2 * (r.round * r.den) + r.den) (hd : 0 < r.den) : r.round % 2 = 0 := by
  have e := Nat.div_add_mod r.num r.den
  have l := Nat.mod_lt r.num hd
  simp only [round] at h ⊢
  generalize r.num / r.den = q at *
  generalize r.num % r.den = t at *
  have hq : (q + 1) * r.den = r.den * q + r.den := by rw [Nat.mul_comm, Nat.mul_add, Nat.mul_one]
  have hc : q * r.den = r.den * q := Nat.mul_comm ..
  split at h
  · omega
  · split at h
    · omega
    · rw [if_neg ‹_›, if_neg ‹_›]
      omega

theorem abs_round_sub_value (h : 0 < r.den) :
    |(r.round : ℚ) - r.value| ≤ 1 / 2 ∧
      (|(r.round : ℚ) - r.value| = 1 / 2 → r.round % 2 = 0) := by
  have hd : (0 : ℚ) < r.den := by exact_mod_cast h
  have hle : 2 * ((r.round : ℚ) * r.den) ≤ 2 * r.num + r.den := by exact_mod_cast r.round_le h
  have hge : 2 * (r.num : ℚ) ≤ 2 * (r.round * r.den) + r.den := by exact_mod_cast r.le_round h
  have hsub : (r.round : ℚ) - r.value = (r.round * r.den - r.num) / r.den := by
    rw [value]
    field_simp
  rw [hsub, abs_div, abs_of_pos hd]
  constructor
  · rw [div_le_iff₀ hd, abs_le]
    constructor <;> linarith
  · intro heq
    rw [div_eq_iff hd.ne'] at heq
    refine even_round ?_ h
    obtain hpos | hneg := abs_cases ((r.round : ℚ) * r.den - r.num)
    · left
      have : 2 * ((r.round : ℚ) * r.den) = 2 * r.num + r.den := by linarith [hpos.1]
      exact_mod_cast this
    · right
      have : 2 * (r.num : ℚ) = 2 * (r.round * r.den) + r.den := by linarith [hneg.1]
      exact_mod_cast this

theorem round_nearest (h : 0 < r.den) (n : ℤ) :
    |(r.round : ℚ) - r.value| ≤ |n - r.value| ∧
      (|(r.round : ℚ) - r.value| = |n - r.value| → n = r.round ∨ r.round % 2 = 0) := by
  obtain ⟨hle, heven⟩ := abs_round_sub_value h
  by_cases hn : n = r.round
  · subst hn
    exact ⟨le_rfl, fun _ => .inl rfl⟩
  · have hone : (1 : ℚ) ≤ |(n : ℚ) - r.round| := by
      have : (1 : ℤ) ≤ |n - r.round| := Int.one_le_abs (sub_ne_zero.mpr hn)
      exact_mod_cast this
    have htri : |(n : ℚ) - r.round| ≤ |n - r.value| + |(r.round : ℚ) - r.value| := by
      have := abs_sub_le (n : ℚ) r.value r.round
      rwa [abs_sub_comm r.value] at this
    exact ⟨by linarith, fun heq => .inr (heven (by linarith))⟩

theorem value_scale (r : Ratio) {b : Nat} (hb : 0 < b) (e : ℤ) :
    (r.scale b e).value = r.value * (b : ℚ) ^ e := by
  have hb' : (b : ℚ) ≠ 0 := by exact_mod_cast hb.ne'
  simp only [value, scale, Nat.cast_mul, Nat.cast_pow]
  obtain ⟨n, rfl | rfl⟩ := e.eq_nat_or_neg
  · simp
    ring
  · simp
    field_simp

theorem value_pos (hn : 0 < r.num) (hd : 0 < r.den) : 0 < r.value :=
  div_pos (by exact_mod_cast hn) (by exact_mod_cast hd)

theorem value_lt_one_iff (hd : 0 < r.den) : r.value < 1 ↔ r.num < r.den := by
  rw [value, div_lt_one (by exact_mod_cast hd), Nat.cast_lt]

theorem two_zpow_mul {i j k : ℤ} (h : i + j = k) : (2 : ℚ) ^ i * 2 ^ j = 2 ^ k := by
  rw [← zpow_add₀ two_ne_zero, h]

theorem log2_cast_spec (h : n ≠ 0) :
    (2 : ℚ) ^ (n.log2 : ℤ) ≤ n ∧ (n : ℚ) < (2 : ℚ) ^ ((n.log2 : ℤ) + 1) := by
  have hle : 2 ^ n.log2 ≤ n := Nat.log2_self_le h
  have hlt : n < 2 ^ (n.log2 + 1) := Nat.lt_log2_self
  rw [← Nat.cast_succ, zpow_natCast, zpow_natCast]
  exact ⟨by exact_mod_cast hle, by exact_mod_cast hlt⟩

theorem log2_spec (hn : 0 < r.num) (hd : 0 < r.den) :
    (2 : ℚ) ^ r.log2 ≤ r.value ∧ r.value < (2 : ℚ) ^ (r.log2 + 1) := by
  obtain ⟨hnum, hnum'⟩ := log2_cast_spec hn.ne'
  obtain ⟨hden, hden'⟩ := log2_cast_spec hd.ne'
  have hd' : (0 : ℚ) < r.den := by exact_mod_cast hd
  set e : ℤ := (r.num.log2 : ℤ) - r.den.log2 with he
  have hlow : (2 : ℚ) ^ (e - 1) < r.value := by
    rw [value, lt_div_iff₀ hd']
    calc (2 : ℚ) ^ (e - 1) * r.den < 2 ^ (e - 1) * 2 ^ ((r.den.log2 : ℤ) + 1) := by gcongr
      _ = 2 ^ (r.num.log2 : ℤ) := two_zpow_mul (by omega)
      _ ≤ r.num := hnum
  have hhigh : r.value < (2 : ℚ) ^ (e + 1) := by
    rw [value, div_lt_iff₀ hd']
    calc (r.num : ℚ) < 2 ^ ((r.num.log2 : ℤ) + 1) := hnum'
      _ = 2 ^ (e + 1) * 2 ^ (r.den.log2 : ℤ) := (two_zpow_mul (by omega)).symm
      _ ≤ 2 ^ (e + 1) * r.den := by gcongr
  have hscale : r.value < (2 : ℚ) ^ e ↔ (r.scale 2 (-e)).num < (r.scale 2 (-e)).den := by
    rw [← value_lt_one_iff (Nat.mul_pos hd (Nat.two_pow_pos _)), value_scale r two_pos, zpow_neg,
      Nat.cast_ofNat, ← div_eq_mul_inv, div_lt_one (zpow_pos two_pos _)]
  simp only [scale, neg_neg] at hscale
  rw [log2, ← he]
  split
  · rename_i h
    rw [sub_add_cancel]
    exact ⟨hlow.le, hscale.mpr h⟩
  · rename_i h
    exact ⟨not_lt.mp (mt hscale.mp h), hhigh⟩

theorem value_scale_neg_mul (r : Ratio) {b : Nat} (hb : 0 < b) (e : ℤ) :
    (r.scale b (-e)).value * (b : ℚ) ^ e = r.value := by
  have hb' : (b : ℚ) ≠ 0 := by exact_mod_cast hb.ne'
  rw [value_scale r hb, mul_assoc, ← zpow_add₀ hb', neg_add_cancel, zpow_zero, mul_one]

theorem abs_round_scale_sub_value_le (hd : 0 < r.den) {b : Nat} (hb : 0 < b) (e : ℤ) :
    |(r.scale b (-e)).round * (b : ℚ) ^ e - r.value| ≤ (b : ℚ) ^ e / 2 := by
  have hpow : (0 : ℚ) < (b : ℚ) ^ e := zpow_pos (by exact_mod_cast hb) e
  have hround := (abs_round_sub_value (r := r.scale b (-e))
    (Nat.mul_pos hd (Nat.pow_pos hb))).1
  rw [← value_scale_neg_mul r hb e, ← sub_mul, abs_mul, abs_of_pos hpow]
  linarith [mul_le_mul_of_nonneg_right hround hpow.le]

theorem round_scale_nearest (hd : 0 < r.den) (e : ℤ) (n : ℤ) :
    |r.value - (r.scale 2 (-e)).round * 2 ^ e| ≤ |r.value - n * 2 ^ e| ∧
      (|r.value - (r.scale 2 (-e)).round * 2 ^ e| = |r.value - n * 2 ^ e| →
        n = (r.scale 2 (-e)).round ∨ (r.scale 2 (-e)).round % 2 = 0) := by
  have hpow : (0 : ℚ) < 2 ^ e := zpow_pos two_pos e
  have hvalue : (r.scale 2 (-e)).value * 2 ^ e = r.value := value_scale_neg_mul r two_pos e
  have habs (k : ℚ) : |r.value - k * 2 ^ e| = |k - (r.scale 2 (-e)).value| * 2 ^ e := by
    rw [← hvalue, ← sub_mul, abs_mul, abs_of_pos hpow, abs_sub_comm]
  obtain ⟨hle, heven⟩ := round_nearest (r := r.scale 2 (-e))
    (Nat.mul_pos hd (Nat.two_pow_pos _)) n
  rw [habs, habs]
  refine ⟨by gcongr, fun heq => heven ?_⟩
  exact mul_right_cancel₀ hpow.ne' heq

end Ratio

end LispCalc
