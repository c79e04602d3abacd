import LispCalc.Proofs.Rounding
import LispCalc.Proofs.Zero

namespace LispCalc

namespace Binary

open Ratio

variable {r : Ratio} {bits : Nat} {negative : Bool} {m : Nat} {e : Int}

def unitOf (negative : Bool) : ℚ := if negative then -1 else 1

def quantity (negative : Bool) (m : Nat) (e : Int) : ℚ := unitOf negative * (m * 2 ^ e)

/-- Half a unit beyond the greatest double. -/
def overflowBound : ℚ := 2 ^ (1024 : ℤ) - 2 ^ (970 : ℤ)

/-- The double nearest to a number, of two that are equally near the one with the even mantissa.
From half a unit beyond the greatest double on it is an infinity. -/
inductive IsNearest (v : ℚ) (x : Float) : Prop where
  | finite {negative : Bool} {m : Nat} {e : Int} : datum x = .finite negative m e →
      |v| < overflowBound →
      (∀ y negative' m' e', datum y = .finite negative' m' e' →
        |v - quantity negative m e| ≤ |v - quantity negative' m' e'| ∧
          (|v - quantity negative m e| = |v - quantity negative' m' e'| →
            quantity negative' m' e' = quantity negative m e ∨ m % 2 = 0)) →
      IsNearest v x
  | infinite : datum x = .infinite (v < 0) →
      overflowBound ≤ |v| → IsNearest v x

theorem decode_double (bits : Nat) :
    double.decode bits =
      if bits / 2 ^ 52 % 2 ^ 11 = 2047 then
        if bits % 2 ^ 52 = 0 then .infinite (bits / 2 ^ 63 % 2 == 1) else .nan
      else if bits / 2 ^ 52 % 2 ^ 11 = 0 then
        .finite (bits / 2 ^ 63 % 2 == 1) (bits % 2 ^ 52) (-1074)
      else
        .finite (bits / 2 ^ 63 % 2 == 1) (2 ^ 52 + bits % 2 ^ 52)
          (-1074 + (bits / 2 ^ 52 % 2 ^ 11 : Nat) - 1) := rfl

theorem bounds_of_finite (h : double.decode bits = .finite negative m e) :
    m < 2 ^ 53 ∧ -1074 ≤ e := by
  rw [decode_double] at h
  split at h
  · split at h <;> cases h
  · split at h
    · cases h
      omega
    · cases h
      omega

theorem datum_signed (h : bits ≤ double.infinity) :
    datum (signed negative bits) = double.decode ((if negative then 2 ^ 63 else 0) + bits) := by
  rw [datum, toBits_signed h]

/-- A mantissa that has been rounded up to the next power of two moves into the exponent. -/
theorem exists_decode_eq_finite {a q : Nat} (ha : a = 0 ∨ 2 ^ 52 ≤ q) (hq : q ≤ 2 ^ 53)
    (h : a * 2 ^ 52 + q < 2047 * 2 ^ 52) (negative : Bool) :
    ∃ m e, double.decode ((if negative then 2 ^ 63 else 0) + (a * 2 ^ 52 + q)) =
        .finite negative m e ∧
      (m : ℚ) * 2 ^ e = q * 2 ^ ((a : ℤ) - 1074) ∧ (q % 2 = 0 → m % 2 = 0) := by
  generalize hb : (if negative then 2 ^ 63 else 0) + (a * 2 ^ 52 + q) = b
  have hsign : (b / 2 ^ 63 % 2 == 1) = negative := by
    cases negative <;> simp at hb ⊢ <;> omega
  have hfield : b / 2 ^ 52 % 2 ^ 11 = a + q / 2 ^ 52 ∧ b % 2 ^ 52 = q % 2 ^ 52 := by
    cases negative <;> simp at hb <;> omega
  rw [decode_double, hsign, hfield.1, hfield.2, if_neg (by omega)]
  split
  · rename_i h0
    have ha0 : a = 0 := by omega
    have hq0 : q % 2 ^ 52 = q := Nat.mod_eq_of_lt (by omega)
    rw [hq0, ha0]
    exact ⟨_, _, rfl, rfl, id⟩
  · rename_i h0
    refine ⟨_, _, rfl, ?_, by omega⟩
    by_cases htop : q = 2 ^ 53
    · subst htop
      have hm : ((2 ^ 52 + 2 ^ 53 % 2 ^ 52 : Nat) : ℚ) = 2 ^ (52 : ℤ) := by norm_num
      have hq' : ((2 ^ 53 : Nat) : ℚ) = 2 ^ (53 : ℤ) := by norm_num
      rw [hm, hq', two_zpow_mul rfl, two_zpow_mul rfl]
      congr 1
      omega
    · have hm : 2 ^ 52 + q % 2 ^ 52 = q := by omega
      have he : -1074 + ((a + q / 2 ^ 52 : Nat) : ℤ) - 1 = a - 1074 := by omega
      rw [hm, he]

def placeExponent (r : Ratio) : ℤ := max (r.log2 - 52) (-1074)

def places (r : Ratio) : Nat := (r.scale 2 (-placeExponent r)).round

theorem value_lt_place (hn : 0 < r.num) (hd : 0 < r.den) :
    r.value < 2 ^ 53 * 2 ^ placeExponent r := by
  have hexp : r.log2 + 1 ≤ 53 + placeExponent r := by
    rw [placeExponent]
    omega
  calc r.value < 2 ^ (r.log2 + 1) := (log2_spec hn hd).2
    _ ≤ 2 ^ (53 + placeExponent r) := zpow_le_zpow_right₀ one_le_two hexp
    _ = 2 ^ 53 * 2 ^ placeExponent r := (two_zpow_mul rfl).symm

theorem place_le_value (hn : 0 < r.num) (hd : 0 < r.den) (h : -1074 < placeExponent r) :
    2 ^ 52 * 2 ^ placeExponent r ≤ r.value := by
  have hexp : 52 + placeExponent r = r.log2 := by
    rw [placeExponent] at h ⊢
    omega
  calc (2 : ℚ) ^ 52 * 2 ^ placeExponent r = 2 ^ r.log2 := two_zpow_mul hexp
    _ ≤ r.value := (log2_spec hn hd).1

theorem places_le (hn : 0 < r.num) (hd : 0 < r.den) : places r ≤ 2 ^ 53 := by
  by_contra hlt
  have hvalue := value_lt_place hn hd
  have hmul : 2 ^ 53 * 2 ^ placeExponent r < (places r : ℚ) * 2 ^ placeExponent r := by
    gcongr
    exact_mod_cast not_le.mp hlt
  have hnear := (round_scale_nearest hd (placeExponent r) (2 ^ 53)).1
  rw [← places, abs_of_neg (by linarith), Int.cast_pow, Int.cast_ofNat,
    abs_of_neg (by linarith)] at hnear
  linarith

theorem le_places (hn : 0 < r.num) (hd : 0 < r.den) (h : -1074 < placeExponent r) :
    2 ^ 52 ≤ places r := by
  by_contra hlt
  have hvalue := place_le_value hn hd h
  have hmul : (places r : ℚ) * 2 ^ placeExponent r < 2 ^ 52 * 2 ^ placeExponent r := by
    gcongr
    exact_mod_cast not_le.mp hlt
  have hnear := (round_scale_nearest hd (placeExponent r) (2 ^ 52)).1
  rw [← places, abs_of_pos (by linarith), Int.cast_pow, Int.cast_ofNat,
    abs_of_nonneg (by linarith)] at hnear
  linarith

theorem quantity_le (negative : Bool) (m : Nat) (e : Int) : quantity negative m e ≤ m * 2 ^ e := by
  have hpos : (0 : ℚ) ≤ m * 2 ^ e := by positivity
  rw [quantity, unitOf]
  split <;> linarith

theorem exists_quantity_eq {k : ℤ} (h : k ≤ e) (negative : Bool) (m : Nat) :
    ∃ n : ℤ, quantity negative m e = n * 2 ^ k := by
  obtain ⟨i, rfl⟩ := Int.le.dest h
  refine ⟨(if negative then -1 else 1) * (m * 2 ^ i), ?_⟩
  rw [quantity, unitOf, ← two_zpow_mul (Int.add_comm i k), zpow_natCast]
  cases negative <;> simp <;> ring

theorem places_nearest (hn : 0 < r.num) (hd : 0 < r.den) (negative : Bool) (hm : m < 2 ^ 53)
    (he : -1074 ≤ e) :
    |r.value - places r * 2 ^ placeExponent r| ≤ |r.value - quantity negative m e| ∧
      (|r.value - places r * 2 ^ placeExponent r| = |r.value - quantity negative m e| →
        quantity negative m e = places r * 2 ^ placeExponent r ∨ places r % 2 = 0) := by
  by_cases hfine : placeExponent r ≤ e
  · obtain ⟨n, hn⟩ := exists_quantity_eq hfine negative m
    obtain ⟨hle, heven⟩ := round_scale_nearest hd (placeExponent r) n
    rw [hn]
    refine ⟨hle, fun heq => (heven heq).imp (fun h => ?_) id⟩
    rw [h]
    rfl
  · -- too fine for a multiple, so below the power of two that is at or below the fraction
    have hvalue := place_le_value hn hd (by omega)
    have hquantity : quantity negative m e < 2 ^ 52 * 2 ^ placeExponent r := by
      calc quantity negative m e ≤ m * 2 ^ e := quantity_le negative m e
        _ < 2 ^ (53 : ℤ) * 2 ^ e := by
          gcongr
          exact_mod_cast hm
        _ = 2 ^ (53 + e) := two_zpow_mul rfl
        _ ≤ 2 ^ (52 + placeExponent r) := zpow_le_zpow_right₀ one_le_two (by omega)
        _ = 2 ^ 52 * 2 ^ placeExponent r := (two_zpow_mul rfl).symm
    have hnear := (round_scale_nearest hd (placeExponent r) (2 ^ 52)).1
    have hlt : |r.value - places r * 2 ^ placeExponent r| < |r.value - quantity negative m e| := by
      rw [← places, Int.cast_pow, Int.cast_ofNat, abs_of_nonneg (sub_nonneg.mpr hvalue)] at hnear
      rw [abs_of_pos (sub_pos.mpr (hquantity.trans_le hvalue))]
      linarith
    exact ⟨hlt.le, fun heq => absurd heq hlt.ne⟩

theorem nearest_eq (hn : 0 < r.num) :
    double.nearest r =
      min ((placeExponent r + 1074).toNat * 2 ^ 52 + places r) (2047 * 2 ^ 52) := by
  rw [Format.nearest, if_neg hn.ne']
  rfl

theorem overflowBound_eq : overflowBound = (2 ^ 54 - 1) * 2 ^ (970 : ℤ) := by
  have h : (2 : ℚ) ^ (1024 : ℤ) = 2 ^ 54 * 2 ^ (970 : ℤ) :=
    (two_zpow_mul (show (54 : ℤ) + 970 = 1024 from rfl)).symm
  rw [overflowBound, h, sub_mul, one_mul]

/-- Where the last place of the greatest doubles is, a number is below the bound exactly if it is
rounded to a number of 53 bits. -/
theorem lt_overflowBound_iff_places (hn : 0 < r.num) (hd : 0 < r.den)
    (h : placeExponent r = 971) : r.value < overflowBound ↔ places r < 2 ^ 53 := by
  have hplace : (2 : ℚ) ^ placeExponent r = 2 * 2 ^ (970 : ℤ) := by
    rw [h]
    exact (two_zpow_mul (show (1 : ℤ) + 970 = 971 from rfl)).symm
  have hpos : (0 : ℚ) < 2 ^ (970 : ℤ) := zpow_pos two_pos _
  have hvalue := value_lt_place hn hd
  have hnear := round_scale_nearest hd (placeExponent r)
  rw [← places, hplace] at hnear
  rw [hplace] at hvalue
  rw [overflowBound_eq]
  generalize (2 : ℚ) ^ (970 : ℤ) = unit at *
  constructor
  · intro hlt
    by_contra hge
    have hq : places r = 2 ^ 53 := le_antisymm (places_le hn hd) (not_lt.mp hge)
    have hle := (hnear (2 ^ 53 - 1)).1
    rw [hq, abs_of_neg (a := r.value - _) (by push_cast; linarith)] at hle
    obtain h | h := le_abs.mp hle
    · push_cast at h
      linarith
    · push_cast at h
      linarith
  · intro hlt
    by_contra hge
    have hmul {n : Nat} (h : places r ≤ n) : (places r : ℚ) * unit ≤ n * unit := by gcongr
    have hq := hmul (n := 2 ^ 53 - 1) (by omega)
    push_cast at hq
    obtain ⟨hle, heven⟩ := hnear (2 ^ 53)
    have hlow : |r.value - places r * (2 * unit)| = r.value - places r * (2 * unit) :=
      abs_of_nonneg (by linarith)
    have hhigh : |r.value - (2 ^ 53 : ℤ) * (2 * unit)| = (2 ^ 53 : ℤ) * (2 * unit) - r.value := by
      rw [abs_sub_comm]
      exact abs_of_nonneg (by push_cast; linarith)
    rw [hlow, hhigh] at hle heven
    push_cast at hle heven
    -- the bound is half way between two numbers, of which the lower one is odd
    obtain h | h := heven (by linarith)
    · omega
    · have hq' := hmul (n := 2 ^ 53 - 2) (by omega)
      push_cast at hq'
      linarith

theorem lt_overflowBound_iff (hn : 0 < r.num) (hd : 0 < r.den) :
    r.value < overflowBound ↔
      (placeExponent r + 1074).toNat * 2 ^ 52 + places r < 2047 * 2 ^ 52 := by
  have hq := places_le hn hd
  have hpos : (0 : ℚ) < 2 ^ (970 : ℤ) := zpow_pos two_pos _
  obtain hlt | heq | hgt := lt_trichotomy (placeExponent r) 971
  · refine iff_of_true ?_ (by omega)
    have hplace : (2 : ℚ) ^ placeExponent r ≤ 2 ^ (970 : ℤ) :=
      zpow_le_zpow_right₀ one_le_two (by omega)
    have hvalue := value_lt_place hn hd
    rw [overflowBound_eq]
    generalize (2 : ℚ) ^ (970 : ℤ) = unit at *
    linarith
  · rw [lt_overflowBound_iff_places hn hd heq, heq]
    omega
  · have hle := le_places hn hd (by omega)
    refine iff_of_false (not_lt.mpr ?_) (by omega)
    have hplace : 2 ^ (2 : ℤ) * 2 ^ (970 : ℤ) ≤ (2 : ℚ) ^ placeExponent r := by
      rw [two_zpow_mul rfl]
      exact zpow_le_zpow_right₀ one_le_two (by omega)
    have hvalue := place_le_value hn hd (by omega)
    rw [overflowBound_eq]
    generalize (2 : ℚ) ^ (970 : ℤ) = unit at *
    linarith

theorem abs_unitOf_mul_sub (negative negative' : Bool) (v : ℚ) (m : Nat) (e : Int) :
    |unitOf negative * v - quantity negative' m e| =
      |v - quantity (negative ^^ negative') m e| := by
  cases negative
  · simp [unitOf]
  · rw [← abs_neg]
    congr 1
    cases negative' <;> simp [quantity, unitOf] <;> ring

theorem abs_unitOf_mul_sub_self (negative : Bool) (v : ℚ) (m : Nat) (e : Int) :
    |unitOf negative * v - quantity negative m e| = |v - m * 2 ^ e| := by
  rw [abs_unitOf_mul_sub, Bool.xor_self, quantity, unitOf, if_neg Bool.false_ne_true, one_mul]

theorem unitOf_mul_quantity (negative negative' : Bool) (m : Nat) (e : Int) :
    unitOf negative * quantity (negative ^^ negative') m e = quantity negative' m e := by
  cases negative <;> cases negative' <;> simp [quantity, unitOf]

theorem abs_unitOf_mul (negative : Bool) {v : ℚ} (h : 0 < v) : |unitOf negative * v| = v := by
  cases negative <;> simp [unitOf, abs_of_pos h]

theorem isNearest_infinite (negative : Bool) {v : ℚ} (h : overflowBound ≤ v) (hv : 0 < v) :
    IsNearest (unitOf negative * v) (infinite negative) := by
  refine .infinite ?_ (by rwa [abs_unitOf_mul negative hv])
  have hsign : decide (unitOf negative * v < 0) = negative := by
    cases negative <;> simp [unitOf, hv, hv.le]
  rw [hsign, infinite, datum_signed le_rfl]
  cases negative <;> rfl

theorem exists_datum_ofRatio (negative : Bool) (hn : 0 < r.num) (hd : 0 < r.den)
    (h : r.value < overflowBound) :
    ∃ m e, datum (ofRatio negative r) = .finite negative m e ∧
      (m : ℚ) * 2 ^ e = places r * 2 ^ placeExponent r ∧ (places r % 2 = 0 → m % 2 = 0) := by
  have hexp : (((placeExponent r + 1074).toNat : ℤ)) - 1074 = placeExponent r := by
    rw [placeExponent]
    omega
  have hleast : (placeExponent r + 1074).toNat = 0 ∨ 2 ^ 52 ≤ places r := by
    obtain h | h := Nat.eq_zero_or_pos (placeExponent r + 1074).toNat
    · exact .inl h
    · exact .inr (le_places hn hd (by omega))
  have hbits := (lt_overflowBound_iff hn hd).mp h
  obtain ⟨m, e, hdatum, hvalue, heven⟩ :=
    exists_decode_eq_finite hleast (places_le hn hd) hbits negative
  rw [hexp] at hvalue
  refine ⟨m, e, ?_, hvalue, heven⟩
  have hle : (placeExponent r + 1074).toNat * 2 ^ 52 + places r ≤ double.infinity := by
    rw [infinity_double]
    exact hbits.le
  rw [ofRatio, nearest_eq hn, min_eq_left hbits.le, datum_signed hle]
  exact hdatum

theorem isNearest_ofRatio (negative : Bool) (hn : 0 < r.num) (hd : 0 < r.den) :
    IsNearest (unitOf negative * r.value) (ofRatio negative r) := by
  have hv := value_pos hn hd
  by_cases hlt : r.value < overflowBound
  · obtain ⟨m, e, hdatum, hvalue, heven⟩ := exists_datum_ofRatio negative hn hd hlt
    refine .finite hdatum (by rwa [abs_unitOf_mul negative hv]) fun y negative' m' e' hy => ?_
    obtain ⟨hm, he⟩ := bounds_of_finite hy
    obtain ⟨hle, htie⟩ := places_nearest hn hd (negative ^^ negative') hm he
    rw [abs_unitOf_mul_sub_self, hvalue, abs_unitOf_mul_sub]
    refine ⟨hle, fun heq => (htie heq).imp (fun h => ?_) heven⟩
    rw [← unitOf_mul_quantity negative, h, quantity, hvalue]
  · have hbits := mt (lt_overflowBound_iff hn hd).mpr hlt
    rw [ofRatio, nearest_eq hn, min_eq_right (by omega), ← infinity_double]
    exact isNearest_infinite negative (not_lt.mp hlt) hv

theorem IsNearest.abs_sub_lt {x : Float} (h : IsNearest (unitOf negative * r.value) x)
    (hn : 0 < r.num) (hd : 0 < r.den) (hone : 1 ≤ r.value) {negative' : Bool}
    (hx : datum x = .finite negative' m e) :
    |unitOf negative * r.value - quantity negative' m e| < r.value / 2 := by
  have hv := value_pos hn hd
  cases h with
  | infinite hx' => simp [hx] at hx'
  | finite hx' hlt hnear =>
    obtain ⟨rfl, rfl, rfl⟩ := Datum.finite.inj (hx.symm.trans hx')
    rw [abs_unitOf_mul negative hv] at hlt
    obtain ⟨m', e', hdatum, hvalue, _⟩ := exists_datum_ofRatio negative hn hd hlt
    obtain ⟨hlow, hhigh⟩ := log2_spec hn hd
    have hlog : -1074 ≤ r.log2 := by
      by_contra hneg
      have hpow : (2 : ℚ) ^ (r.log2 + 1) ≤ 2 ^ (0 : ℤ) := zpow_le_zpow_right₀ one_le_two (by omega)
      rw [zpow_zero] at hpow
      linarith
    have hpower : quantity false 1 r.log2 = 2 ^ r.log2 := by simp [quantity, unitOf]
    rw [zpow_add_one₀ two_ne_zero] at hhigh
    calc |unitOf negative * r.value - quantity negative' m e|
        ≤ |unitOf negative * r.value - quantity negative m' e'| := (hnear _ _ _ _ hdatum).1
      _ = |r.value - places r * 2 ^ placeExponent r| := by rw [abs_unitOf_mul_sub_self, hvalue]
      _ ≤ |r.value - quantity false 1 r.log2| := (places_nearest hn hd false (by omega) hlog).1
      _ < r.value / 2 := by
        rw [hpower, abs_of_nonneg (by linarith)]
        linarith

theorem IsNearest.not_of_triple {q : Ratio} {x : Float}
    (h : IsNearest (unitOf negative * q.value) x)
    (hn : 0 < r.num) (hd : 0 < r.den) (hone : 1 ≤ r.value) (hqn : 0 < q.num) (hqd : 0 < q.den)
    (hq : 3 * r.value ≤ q.value) (hlt : r.value < overflowBound) :
    ¬ IsNearest (unitOf negative * r.value) x := by
  intro hx
  cases hx with
  | infinite _ hle =>
    rw [abs_unitOf_mul negative (by linarith)] at hle
    linarith
  | finite hdatum habs hnear =>
    have hr := (IsNearest.finite hdatum habs hnear).abs_sub_lt hn hd hone hdatum
    have hq' := h.abs_sub_lt hqn hqd (by linarith) hdatum
    obtain ⟨hr₁, hr₂⟩ := abs_lt.mp hr
    obtain ⟨hq₁, hq₂⟩ := abs_lt.mp hq'
    cases negative
    · rw [unitOf, if_neg Bool.false_ne_true, one_mul] at hr₁ hr₂ hq₁ hq₂
      linarith
    · rw [unitOf, if_pos rfl, neg_one_mul] at hr₁ hr₂ hq₁ hq₂
      linarith

end Binary

end LispCalc
