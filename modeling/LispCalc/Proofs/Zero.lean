import Mathlib
import LispCalc.Value.Coercion

namespace LispCalc

namespace Binary

variable {n : Nat} {negative : Bool} {bits : Nat}

theorem beq_zero_iff {x : Float} : (x == 0.0) = true ↔ x = 0.0 ∨ x = -0.0 := by
  have hp : (0.0 : Float) = 0 := by decide
  have hn : (-0.0 : Float) = -0 := by decide
  have hne : (0.0 : Float) ≠ -0.0 := by decide
  have hpn : (0.0 : Float) ≠ Float.nan := by decide
  have hnn : (-0.0 : Float) ≠ Float.nan := by decide
  rw [Float.beq_iff_ne_nan_and_eq]
  constructor
  · rintro ⟨_, _, h | ⟨_, h⟩ | ⟨h, _⟩⟩
    · exact .inl h
    · exact absurd (h.trans hn.symm) hne
    · exact .inr (h.trans hn.symm)
  · rintro (rfl | rfl)
    · exact ⟨hpn, hpn, .inl rfl⟩
    · exact ⟨hnn, hpn, .inr (.inr ⟨hn, hp⟩)⟩

theorem infinity_double : double.infinity = 2047 * 2 ^ 52 := by decide

theorem toBits_ofBits {b : UInt64} (h : b.toNat % 2 ^ 63 ≤ double.infinity) :
    (Float.ofBits b).toBits = b := by
  have hvalid : Float.Model.Format.binary64.Valid b.toBitVec := by
    constructor
    intro hexp hfraction
    rw [Float.Model.UnpackedFloat.unpackExponent_def] at hexp
    rw [Float.Model.UnpackedFloat.unpackMantissa_def] at hfraction
    have he : b.toNat / 2 ^ 52 % 2 ^ 11 = 2047 := by
      simpa [BitVec.extractLsb'_toNat, Nat.shiftRight_eq_div_pow] using congrArg BitVec.toNat hexp
    have hf : b.toNat % 2 ^ 52 ≠ 0 := by
      intro h0
      apply hfraction
      apply BitVec.eq_of_toNat_eq
      simpa [BitVec.extractLsb'_toNat] using h0
    rw [infinity_double] at h
    omega
  change UInt64.ofBitVec _ = b
  rw [Float.Model.UnpackedFloat.pack_unpack_of_valid hvalid]

theorem log2_ofNat (h : 0 < n) : (Ratio.ofNat n).log2 = n.log2 := by
  have hone : Nat.log2 1 = 0 := by decide
  have hle : 2 ^ n.log2 ≤ n := Nat.log2_self_le (by omega)
  have hexp : ((n.log2 : Int) - (0 : Nat)).toNat = n.log2 := by omega
  have hneg : (-((n.log2 : Int) - (0 : Nat))).toNat = 0 := by omega
  have hnot : ¬ n * 2 ^ 0 < 1 * 2 ^ n.log2 := by omega
  simp only [Ratio.log2, Ratio.ofNat, hone, hexp, hneg, if_neg hnot]
  omega

theorem nearest_ofNat (h : 0 < n) :
    0 < double.nearest (.ofNat n) ∧ double.nearest (.ofNat n) ≤ double.infinity := by
  have hnum : (Ratio.ofNat n).num ≠ 0 := by
    simp only [Ratio.ofNat]
    omega
  have hleast : double.leastExponent = -1074 := by decide
  have hbits : double.fractionBits = 52 := rfl
  have hinf : 0 < double.infinity := by decide
  have hshift : 0 < (max ((Ratio.ofNat n).log2 - double.fractionBits) double.leastExponent -
      double.leastExponent).toNat := by
    rw [hleast, hbits, log2_ofNat h]
    omega
  have hexp := Nat.mul_pos hshift (Nat.two_pow_pos double.fractionBits)
  rw [Format.nearest, if_neg hnum]
  refine ⟨?_, Nat.min_le_right _ _⟩
  simp only
  omega

theorem toBits_signed (h : bits ≤ double.infinity) :
    (signed negative bits).toBits.toNat = (if negative then 2 ^ 63 else 0) + bits := by
  have hsign : double.signBit = 2 ^ 63 := by decide
  rw [infinity_double] at h
  have hb : (UInt64.ofNat (if negative then double.signBit + bits else bits)).toNat =
      (if negative then 2 ^ 63 else 0) + bits := by
    rw [hsign]
    cases negative <;> simp <;> omega
  rw [signed, toBits_ofBits, hb]
  rw [hb, infinity_double]
  cases negative <;> simp <;> omega

theorem signed_beq_zero (hpos : 0 < bits) (h : bits ≤ double.infinity) :
    (signed negative bits == 0.0) = false := by
  have hbits : (signed negative bits).toBits.toNat = (if negative then 2 ^ 63 else 0) + bits :=
    toBits_signed h
  rw [Bool.eq_false_iff]
  intro hz
  -- the two zeros have no bit but perhaps the sign
  have hzero : (signed negative bits).toBits.toNat = 0 ∨
      (signed negative bits).toBits.toNat = 2 ^ 63 := by
    obtain hz | hz := beq_zero_iff.mp hz
    · left
      rw [hz]
      decide
    · right
      rw [hz]
      decide
  rw [hbits] at hzero
  rw [infinity_double] at h
  cases negative <;> simp at hzero <;> omega

theorem ofInt_beq_zero {n : Int} : (ofInt n == 0.0) = true ↔ n = 0 := by
  constructor
  · intro hz
    by_contra hn
    obtain ⟨hpos, hle⟩ := nearest_ofNat (n := n.natAbs) (by omega)
    rw [ofInt, ofRatio, signed_beq_zero hpos hle] at hz
    cases hz
  · rintro rfl
    decide

end Binary

namespace Value

def zeros : List Value := [.int 0, .bool false, .float 0.0, .float (-0.0)]

theorem toFloat_beq_zero {v : Value} {x : Float} (h : v.toFloat = .ok x) :
    (x == 0.0) = true ↔ v ∈ zeros := by
  cases v with
  | float y =>
    obtain rfl : y = x := by simpa [toFloat] using h
    simp [zeros, Binary.beq_zero_iff]
  | int n =>
    obtain rfl : Binary.ofInt n.toInt = x := by simpa [toFloat] using h
    have hn : n.toInt = 0 ↔ n = 0 := by rw [← Int64.toInt_inj, Int64.toInt_zero]
    simp [zeros, Binary.ofInt_beq_zero, hn]
  | bool b =>
    cases b with
    | false =>
      obtain rfl : (0.0 : Float) = x := by simpa [toFloat] using h
      exact iff_of_true (by decide) (by simp [zeros])
    | true =>
      obtain rfl : (1.0 : Float) = x := by simpa [toFloat] using h
      exact iff_of_false (by decide) (by simp [zeros])
  | _ => simp [toFloat] at h

end Value

end LispCalc
