import LispCalc.Builtin.Check
import LispCalc.Host
import LispCalc.Proofs.Nearest

namespace LispCalc

namespace Binary

theorem isNearest_ofInt {n : Int} (h : n ≠ 0) : IsNearest n (ofInt n) := by
  have hvalue : unitOf (n < 0) * (Ratio.ofNat n.natAbs).value = n := by
    obtain hneg | hpos := lt_or_ge n 0
    · simp [unitOf, Ratio.value, Ratio.ofNat, hneg, Nat.cast_natAbs, abs_of_neg hneg]
    · simp [unitOf, Ratio.value, Ratio.ofNat, not_lt.mpr hpos, Nat.cast_natAbs, abs_of_nonneg hpos]
  rw [← hvalue]
  exact isNearest_ofRatio (n < 0) (Int.natAbs_pos.mpr h) Nat.one_pos

end Binary

namespace HostValue

variable {p : HostValue} {i : Int}

def IsUpperHalf (p : HostValue) : Prop := ∃ u, p = .uint64 u ∧ 2 ^ 63 ≤ u.toNat

def FitsIn (p : HostValue) (kind : Kind) : Prop := ∃ v, Value.ofHost kind p = .ok v

theorem bounds_of_integer? (h : p.integer? = some i) (hp : ¬ p.IsUpperHalf) :
    -2 ^ 63 ≤ i ∧ i < 2 ^ 63 := by
  cases p with
  | int8 n | int16 n | int32 n | int64 n =>
    obtain rfl := Option.some.inj h
    have hlo := n.le_toInt
    have hhi := n.toInt_lt
    omega
  | uint8 n | uint16 n | uint32 n =>
    obtain rfl := Option.some.inj h
    have hhi := n.toNat_lt
    omega
  | uint64 u =>
    obtain rfl := Option.some.inj h
    have hhi : u.toNat < 2 ^ 63 := not_le.mp fun hu => hp ⟨u, rfl, hu⟩
    omega
  | _ => cases h

theorem ofHost_of_integer? (h : p.integer? = some i) :
    Value.ofHost .bool p = .ok (.bool (Int64.ofInt i != 0)) ∧
      Value.ofHost .int p = .ok (.int (Int64.ofInt i)) ∧
      Value.ofHost .float p = .ok (.float (Binary.ofInt i)) ∧
      Value.ofHost .string p = .ok (.string (String.ofList (Decimal.integer i))) := by
  cases p with
  | int8 | int16 | int32 | int64 | uint8 | uint16 | uint32 | uint64 =>
    obtain rfl := Option.some.inj h
    exact ⟨rfl, rfl, rfl, rfl⟩
  | _ => cases h

theorem fitsIn_iff_of_boolean {kind : Kind} (hk : kind ∈ booleanKinds) :
    p.FitsIn kind ↔ (∃ i, p.integer? = some i) ∨ ∃ b, p = .bool b := by
  have hkind : kind = .bool ∨ kind = .int := by simpa [booleanKinds] using hk
  constructor
  · rintro ⟨v, hv⟩
    cases p with
    | bool b => exact .inr ⟨b, rfl⟩
    | int8 | int16 | int32 | int64 | uint8 | uint16 | uint32 | uint64 => exact .inl ⟨_, rfl⟩
    | _ => obtain rfl | rfl := hkind <;> cases hv
  · rintro (⟨i, hi⟩ | ⟨b, rfl⟩)
    · obtain ⟨hbool, hint, _⟩ := ofHost_of_integer? hi
      obtain rfl | rfl := hkind
      · exact ⟨_, hbool⟩
      · exact ⟨_, hint⟩
    · obtain rfl | rfl := hkind <;> exact ⟨_, rfl⟩

theorem fitsIn_int_of_bool (h : p.FitsIn .bool) : p.FitsIn .int :=
  (fitsIn_iff_of_boolean (by decide)).mpr ((fitsIn_iff_of_boolean (by decide)).mp h)

theorem fitsIn_float_of_int (h : p.FitsIn .int) : p.FitsIn .float := by
  obtain ⟨i, hi⟩ | ⟨b, rfl⟩ := (fitsIn_iff_of_boolean (by decide)).mp h
  · exact ⟨_, (ofHost_of_integer? hi).2.2.1⟩
  · exact ⟨_, rfl⟩

theorem fitsIn_string_of_float (h : p.FitsIn .float) : p.FitsIn .string := by
  obtain ⟨v, hv⟩ := h
  cases p with
  | nil => cases hv
  | _ => exact ⟨_, rfl⟩

theorem kind_of_ofHost? {kind : Kind} {v : Value} (h : Value.ofHost? kind p = some v) :
    v.kind = kind := by
  unfold Value.ofHost? at h
  split at h <;> grind [Value.kind, Option.map_eq_some_iff]

theorem ofHost_cases (kind : Kind) (p : HostValue) :
    (∃ v, Value.ofHost kind p = .ok v ∧ v.kind = kind) ∨
      Value.ofHost kind p = .error (.inconsistentType p.display kind) := by
  rw [Value.ofHost]
  cases h : Value.ofHost? kind p with
  | some v => exact .inl ⟨v, rfl, kind_of_ofHost? h⟩
  | none => exact .inr rfl

theorem ofHost_of_bounds (h : p.integer? = some i) (hp : ¬ p.IsUpperHalf) :
    Value.ofHost .float p = (Value.int (Int64.ofInt i)).toFloat.map .float ∧
      Value.ofHost .string p = .ok (.string (Value.int (Int64.ofInt i)).text) := by
  obtain ⟨hlo, hhi⟩ := bounds_of_integer? h hp
  obtain ⟨_, _, hfloat, hstring⟩ := ofHost_of_integer? h
  have hi : (Int64.ofInt i).toInt = i := Int64.toInt_ofInt_of_le hlo hhi
  rw [hfloat, hstring, Value.text, Value.intText, Value.toFloat, hi]
  exact ⟨rfl, rfl⟩

theorem ofHost_of_bool (b : Bool) :
    Value.ofHost .bool (.bool b) = .ok (.bool ((if b then (1 : Int64) else 0) != 0)) ∧
      Value.ofHost .float (.bool b) = (Value.int (if b then 1 else 0)).toFloat.map .float := by
  have hfloat : (if b then 1.0 else 0.0) = Binary.ofInt (if b then (1 : Int64) else 0).toInt := by
    cases b <;> decide
  exact ⟨by cases b <;> rfl, congrArg (fun x => Except.ok (Value.float x)) hfloat⟩

theorem ofHost_of_upperHalf {u : UInt64} (hu : 2 ^ 63 ≤ u.toNat) :
    ∃ n x, Value.ofHost .int (.uint64 u) = .ok (.int n) ∧ n.toInt = u.toNat - 2 ^ 64 ∧
      Value.ofHost .float (.uint64 u) = .ok (.float x) ∧ Binary.IsNearest u.toNat x ∧
      Value.ofHost .string (.uint64 u) = .ok (.string (Decimal.text u.toNat)) := by
  have hlt := u.toNat_lt
  have hwrap : (Int64.ofInt u.toNat).toInt = u.toNat - 2 ^ 64 := by
    rw [Int64.toInt_ofInt, Int.bmod_def, show Int64.size = 2 ^ 64 from rfl]
    omega
  have hnear : Binary.IsNearest ((u.toNat : Int) : ℚ) (Binary.ofInt u.toNat) :=
    Binary.isNearest_ofInt (by omega)
  exact ⟨_, _, rfl, hwrap, rfl, by exact_mod_cast hnear, rfl⟩

/-- The kinds that hold host data agree on it as the coercions of the language do, but for unsigned
integers that wrap only in the kind of integers. What a kind cannot hold is shown in its error. -/
theorem ofHost_coerces (p : HostValue) :
    (∀ n, Value.ofHost .int p = .ok (.int n) →
      Value.ofHost .bool p = .ok (.bool (n != 0)) ∧
      (¬ p.IsUpperHalf →
        Value.ofHost .float p = (Value.int n).toFloat.map .float ∧
        ((∀ b, p ≠ .bool b) → Value.ofHost .string p = .ok (.string (Value.int n).text)))) ∧
    (∀ u, p = .uint64 u → 2 ^ 63 ≤ u.toNat → ∃ n x,
      Value.ofHost .int p = .ok (.int n) ∧ n.toInt = u.toNat - 2 ^ 64 ∧
      Value.ofHost .float p = .ok (.float x) ∧ Binary.IsNearest u.toNat x ∧
      Value.ofHost .string p = .ok (.string (Decimal.text u.toNat))) ∧
    (∀ kind, (∃ v, Value.ofHost kind p = .ok v ∧ v.kind = kind) ∨
      Value.ofHost kind p = .error (.inconsistentType p.display kind)) ∧
    (p.FitsIn .bool → p.FitsIn .int) ∧ (p.FitsIn .int → p.FitsIn .float) ∧
      (p.FitsIn .float → p.FitsIn .string) := by
  refine ⟨fun n hn => ?_, ?_, fun kind => ofHost_cases kind p, fitsIn_int_of_bool,
    fitsIn_float_of_int, fitsIn_string_of_float⟩
  · obtain ⟨i, hi⟩ | ⟨b, rfl⟩ := (fitsIn_iff_of_boolean (by decide)).mp ⟨_, hn⟩
    · obtain ⟨hbool, hint, _⟩ := ofHost_of_integer? hi
      rw [hint, Except.ok.injEq, Value.int.injEq] at hn
      subst hn
      refine ⟨hbool, fun hp => ?_⟩
      obtain ⟨hfloat, hstring⟩ := ofHost_of_bounds hi hp
      exact ⟨hfloat, fun _ => hstring⟩
    · cases hn
      obtain ⟨hbool, hfloat⟩ := ofHost_of_bool b
      exact ⟨hbool, fun _ => ⟨hfloat, fun hnot => absurd rfl (hnot b)⟩⟩
  · rintro u rfl hu
    exact ofHost_of_upperHalf hu

end HostValue

end LispCalc
