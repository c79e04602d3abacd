import Mathlib.Data.List.Induction
import Mathlib.Data.List.TakeWhile
import LispCalc.Calendar.Reader

namespace LispCalc

namespace Decimal

variable {c : Char} {ds : List Char} {k n : Nat}

theorem value_concat (ds : List Char) (c : Char) :
    value (ds ++ [c]) = 10 * value ds + (c.toNat - 48) := by
  rw [value, List.foldl_append]
  rfl

theorem value_lt (h : ∀ c ∈ ds, c.isDigit = true) : value ds < 10 ^ ds.length := by
  induction ds using List.reverseRecOn with
  | nil => simp [value]
  | append_singleton ds c ih =>
    rw [List.forall_mem_append] at h
    have hc := (Char.isDigit_iff_toNat.mp (h.2 c List.mem_cons_self)).2
    have hds := ih h.1
    simp only [Char.reduceToNat] at hc
    rw [value_concat, List.length_append, List.length_singleton, Nat.pow_succ]
    omega

theorem value_mul_pow_lt (h : ∀ c ∈ ds, c.isDigit = true) (hlen : ds.length ≤ n) :
    value ds * 10 ^ (n - ds.length) < 10 ^ n := by
  calc value ds * 10 ^ (n - ds.length)
      < 10 ^ ds.length * 10 ^ (n - ds.length) :=
        Nat.mul_lt_mul_of_pos_right (value_lt h) (Nat.pow_pos (by decide))
    _ = 10 ^ n := by rw [← Nat.pow_add, Nat.add_sub_cancel' hlen]

theorem not_mem_of_isDigit (h : ∀ c ∈ ds, c.isDigit = true) (hc : c.isDigit = false) : c ∉ ds := by
  intro hmem
  rw [h c hmem] at hc
  cases hc

theorem toNat_digitChar (h : n < 10) : (digitChar n).toNat = 48 + n := by
  have hall : ∀ n < 10, (digitChar n).toNat = 48 + n := by decide
  exact hall n h

theorem isDigit_digitChar (h : n < 10) : (digitChar n).isDigit = true := by
  rw [Char.isDigit_iff_toNat, toNat_digitChar h]
  simp only [Char.reduceToNat]
  omega

theorem isDigit_of_mem_lastDigits (h : c ∈ lastDigits k n) : c.isDigit = true := by
  induction k generalizing n with
  | zero => simp [lastDigits] at h
  | succ k ih =>
    rw [lastDigits, List.mem_append, List.mem_singleton] at h
    obtain h | rfl := h
    · exact ih h
    · exact isDigit_digitChar (Nat.mod_lt n (by decide))

theorem value_lastDigits (k n : Nat) : value (lastDigits k n) = n % 10 ^ k := by
  induction k generalizing n with
  | zero => simp [lastDigits, value, Nat.mod_one]
  | succ k ih =>
    rw [lastDigits, value_concat, ih, toNat_digitChar (Nat.mod_lt n (by decide)), Nat.pow_succ',
      Nat.mod_mul]
    omega

theorem width_le (hk : 0 < k) (h : n < 10 ^ k) : width n ≤ k := by
  induction k generalizing n with
  | zero => simp at hk
  | succ k ih =>
    unfold width
    split
    · omega
    · rename_i hn
      have hk : 0 < k := by
        by_contra hzero
        obtain rfl : k = 0 := by omega
        omega
      have := ih hk (Nat.div_lt_of_lt_mul (by rwa [Nat.mul_comm, ← Nat.pow_succ]))
      omega

theorem padded_eq_lastDigits (hk : 0 < k) (h : n < 10 ^ k) : padded k n = lastDigits k n := by
  rw [padded, Nat.max_eq_left (width_le hk h)]

end Decimal

namespace Calendar

variable {least most n : Nat} {s rest : List Char}

structure Row (n : Nat) where
  digits : List Char
  length_digits : digits.length = n
  isDigit : ∀ c ∈ digits, c.isDigit = true

namespace Row

def value (r : Row n) : Nat := Decimal.value r.digits

def ofNat (n m : Nat) : Row n :=
  ⟨Decimal.lastDigits n m, Decimal.length_lastDigits n m,
    fun _ => Decimal.isDigit_of_mem_lastDigits⟩

theorem value_ofNat {m : Nat} (h : m < 10 ^ n) : (ofNat n m).value = m :=
  (Decimal.value_lastDigits n m).trans (Nat.mod_eq_of_lt h)

end Row

theorem digits?_row (r : Row most) (h : least ≤ most) :
    digits? least most (r.digits ++ rest) = some (r.value, rest) := by
  obtain ⟨ds, rfl, hds⟩ := r
  have hrow : ds.takeWhile Char.isDigit = ds := List.takeWhile_eq_self_iff.mpr hds
  simp only [digits?, List.take_left, hrow, if_neg (Nat.not_lt.mpr h), List.drop_left]
  rfl

theorem digits?_lt (h : digits? least most s = some (n, rest)) : n < 10 ^ most := by
  simp only [digits?] at h
  split at h
  · simp at h
  · obtain ⟨rfl, _⟩ := Prod.mk.inj (Option.some.inj h)
    refine (Decimal.value_lt fun c hc => List.mem_takeWhile_imp hc).trans_le ?_
    refine Nat.pow_le_pow_right (by decide) ?_
    exact (List.takeWhile_sublist _).length_le.trans (List.length_take_le most s)

theorem after?_cons (c : Char) : after? c (c :: rest) = some rest := if_pos rfl

theorem not_isBlank_digit {c : Char} (h : c.isDigit = true) : Text.isBlank c = false := by
  obtain ⟨hlo, hhi⟩ := Char.isDigit_iff_toNat.mp h
  simp only [Char.reduceToNat] at hlo hhi
  simp [Text.isBlank, Text.Ranges.has, Text.blankRanges]
  omega

theorem trimStart_row (r : Row n) (hn : 0 < n) :
    Text.trimStart (r.digits ++ rest) = r.digits ++ rest := by
  obtain ⟨ds, rfl, hds⟩ := r
  cases ds with
  | nil => simp at hn
  | cons c ds =>
    have hc := not_isBlank_digit (hds c List.mem_cons_self)
    simp [Text.trimStart, hc]

end Calendar

end LispCalc
