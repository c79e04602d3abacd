import LispCalc.Decimal.Scientific
import LispCalc.Proofs.DaySpelling

namespace LispCalc

namespace Calendar

theorem date?_short (x : Short) {c : Char} (hc : c.isDigit = false) (hslash : c ≠ '/')
    (rest : List Char) : date? (x.digits ++ c :: rest) = none := by
  have hdigits : digits? 1 2 (x.digits ++ c :: rest) = some (x.value, c :: rest) :=
    digits?_short x (by simpa using hc)
  have hmonth : monthFirst? '/' (x.digits ++ c :: rest) = none := by
    simp [monthFirst?, hdigits, after?, hslash]
  simp [date?, zoned?, unzoned?, wholeDay?, yearFirst?_short x hc, hmonth]

end Calendar

namespace Decimal

open Binary Ratio

variable {n k : Nat} {e : Int} {r : Ratio} {negative : Bool}

theorem pow_le_of_ne_zero (h : n ≠ 0) : 10 ^ (width n - 1) ≤ n := by
  by_contra hlt
  have hpos : 0 < width n - 1 := by
    by_contra hzero
    rw [show width n - 1 = 0 by omega] at hlt
    omega
  have := width_le hpos (not_le.mp hlt)
  omega

theorem leading_spec (hn : 0 < r.num) (hd : 0 < r.den) :
    (10 : ℚ) ^ leading r ≤ r.value ∧ r.value < (10 : ℚ) ^ (leading r + 1) := by
  have hn' : (0 : ℚ) < r.num := by exact_mod_cast hn
  have hd' : (0 : ℚ) < r.den := by exact_mod_cast hd
  rw [leading]
  split
  · rename_i h
    set q := r.num / r.den
    have hq : q ≠ 0 := (Nat.div_pos h hd).ne'
    have hlow : 10 ^ (width q - 1) * r.den ≤ r.num :=
      (Nat.mul_le_mul_right _ (pow_le_of_ne_zero hq)).trans (Nat.div_mul_le_self _ _)
    have hhigh : r.num < 10 ^ width q * r.den :=
      (Nat.div_lt_iff_lt_mul hd).mp (lt_pow_width q)
    have hexp : ((width q : ℤ) - 1) = (width q - 1 : Nat) := by
      have := width_pos q
      omega
    rw [sub_add_cancel, hexp, zpow_natCast, zpow_natCast, Ratio.value, le_div_iff₀ hd',
      div_lt_iff₀ hd']
    exact ⟨by exact_mod_cast hlow, by exact_mod_cast hhigh⟩
  · rename_i h
    -- the inverse, rounded down where it is a power of ten itself
    set q := (r.den - 1) / r.num
    have hq : q ≠ 0 := (Nat.div_pos (by omega) hn).ne'
    have hlow : r.num * 10 ^ (width q - 1) < 1 * r.den := by
      have hmul := (Nat.mul_le_mul_left r.num (pow_le_of_ne_zero hq)).trans
        (Nat.mul_div_le (r.den - 1) r.num)
      omega
    have hhigh : 1 * r.den ≤ r.num * 10 ^ width q := by
      have hmul := (Nat.div_lt_iff_lt_mul hn).mp (lt_pow_width q)
      rw [Nat.mul_comm] at hmul
      omega
    have hexp : -(width q : ℤ) + 1 = -(width q - 1 : Nat) := by
      have := width_pos q
      omega
    rw [hexp, zpow_neg, zpow_neg, zpow_natCast, zpow_natCast, inv_eq_one_div, inv_eq_one_div,
      Ratio.value, div_le_div_iff₀ (by positivity) hd', div_lt_div_iff₀ hd' (by positivity)]
    exact ⟨by exact_mod_cast hhigh, by exact_mod_cast hlow⟩

theorem between_of_near {q i j : Nat} {unit v : ℚ} (hunit : 0 < unit)
    (hnear : |q * unit - v| ≤ unit / 2) (hlow : i * unit ≤ v) (hhigh : v ≤ j * unit) :
    i ≤ q ∧ q ≤ j := by
  obtain ⟨habove, hbelow⟩ := abs_le.mp hnear
  have hmul {a b : Nat} (h : a < b) : (a : ℚ) * unit + unit ≤ b * unit := by
    rw [← add_one_mul]
    gcongr
    exact_mod_cast h
  constructor
  · by_contra hlt
    linarith [hmul (not_le.mp hlt)]
  · by_contra hlt
    linarith [hmul (not_le.mp hlt)]

/-- Seven digits without a zero in front. Where rounding gives an eighth digit, the power of ten
above is taken, and that is still within half a unit. -/
theorem sevenDigits_of_pos (hn : 0 < r.num) (hd : 0 < r.den) (h : sevenDigits r = (n, e)) :
    10 ^ 6 ≤ n ∧ n < 10 ^ 7 ∧ |n * (10 : ℚ) ^ (e - 6) - r.value| ≤ (10 : ℚ) ^ (e - 6) / 2 := by
  obtain ⟨hlow, hhigh⟩ := leading_spec hn hd
  have hround := abs_round_scale_sub_value_le hd (show 0 < 10 by decide) (leading r - 6)
  have hunit : (0 : ℚ) < 10 ^ (leading r - 6) := zpow_pos (by norm_num) _
  have hpow (j : Nat) : (10 : ℚ) ^ (leading r - 6 + j) = (10 ^ j : Nat) * 10 ^ (leading r - 6) := by
    rw [zpow_add₀ (by norm_num), zpow_natCast, mul_comm, Nat.cast_pow, Nat.cast_ofNat]
  rw [show leading r = leading r - 6 + (6 : Nat) by omega, hpow] at hlow
  rw [show leading r + 1 = leading r - 6 + (7 : Nat) by omega, hpow] at hhigh
  rw [sevenDigits, if_neg hn.ne'] at h
  simp only [← neg_sub (leading r)] at h
  rw [Nat.cast_ofNat] at hround
  set q := (r.scale 10 (-(leading r - 6))).round
  set unit := (10 : ℚ) ^ (leading r - 6)
  obtain ⟨hle, hge⟩ := between_of_near hunit hround hlow hhigh.le
  split at h
  · rename_i hlt
    obtain ⟨rfl, rfl⟩ := Prod.mk.inj h
    exact ⟨hle, hlt, hround⟩
  · rename_i hnot
    obtain ⟨rfl, rfl⟩ := Prod.mk.inj h
    -- an eighth digit comes only from rounding up to a power of ten
    have hq : q = 10 ^ 7 := by omega
    have hcarry : ((1000000 : Nat) : ℚ) * ((10 ^ 1 : Nat) * unit) = q * unit := by
      rw [hq]
      push_cast
      ring
    rw [show leading r + 1 - 6 = leading r - 6 + (1 : Nat) by omega, hpow, hcarry]
    refine ⟨by decide, by decide, hround.trans ?_⟩
    push_cast
    linarith

theorem sevenDigits_spec (hd : 0 < r.den) (h : sevenDigits r = (n, e)) :
    n < 10 ^ 7 ∧ (n < 10 ^ 6 ↔ r.num = 0) ∧
      |n * (10 : ℚ) ^ (e - 6) - r.value| ≤ (10 : ℚ) ^ (e - 6) / 2 := by
  obtain hn | hn := Nat.eq_zero_or_pos r.num
  · rw [sevenDigits, if_pos hn] at h
    obtain ⟨rfl, rfl⟩ := Prod.mk.inj h
    refine ⟨by decide, iff_of_true (by decide) hn, ?_⟩
    rw [Ratio.value, hn, Nat.cast_zero, zero_mul, zero_div, sub_zero, abs_zero]
    positivity
  · obtain ⟨hle, hlt, hnear⟩ := sevenDigits_of_pos hn hd h
    exact ⟨hlt, iff_of_false (not_lt.mpr hle) hn.ne', hnear⟩

theorem head?_lastDigits (k n : Nat) :
    (lastDigits (k + 1) n).head? = some (digitChar (n / 10 ^ k % 10)) := by
  induction k generalizing n with
  | zero => simp [lastDigits]
  | succ k ih =>
    rw [lastDigits, List.head?_append, ih, Nat.div_div_eq_div_mul, Nat.pow_succ']
    rfl

theorem head?_padded_ne (hk : 0 < k) (h : k < (padded k n).length) :
    (padded k n).head? ≠ some '0' := by
  rw [padded, length_lastDigits] at h
  have hn : n ≠ 0 := by
    rintro rfl
    have := width_le (k := 1) Nat.one_pos (n := 0) (by decide)
    omega
  have hwidth : max k (width n) = width n - 1 + 1 := by omega
  have hpos : 1 ≤ n / 10 ^ (width n - 1) :=
    (Nat.one_le_div_iff (Nat.pow_pos (by decide))).mpr (pow_le_of_ne_zero hn)
  have hlt : n / 10 ^ (width n - 1) < 10 := by
    refine Nat.div_lt_of_lt_mul ?_
    rw [← Nat.pow_succ, show (width n - 1).succ = width n by omega]
    exact lt_pow_width n
  rw [padded, hwidth, head?_lastDigits, Nat.mod_eq_of_lt hlt]
  intro hhead
  have hchar := congrArg Char.toNat (Option.some.inj hhead)
  rw [toNat_digitChar hlt] at hchar
  simp only [Char.reduceToNat] at hchar
  omega

/-- A number in scientific notation: a digit, a point, six digits, and an exponent of at least two
digits, with no zero in front if there are more. -/
structure Written where
  negative : Bool
  lead : Calendar.Row 1
  fraction : Calendar.Row 6
  negativeExponent : Bool
  exponent : List Char
  two_le_length : 2 ≤ exponent.length
  isDigit_exponent : ∀ c ∈ exponent, c.isDigit = true
  head?_exponent : 2 < exponent.length → exponent.head? ≠ some '0'

namespace Written

variable (w : Written)

def exponentText : List Char := (if w.negativeExponent then '-' else '+') :: w.exponent

def magnitudeText : List Char :=
  w.lead.digits ++ '.' :: (w.fraction.digits ++ 'e' :: w.exponentText)

def text : List Char := (if w.negative then ['-'] else []) ++ w.magnitudeText

def mantissa : Nat := value (w.lead.digits ++ w.fraction.digits)

def power : Int := if w.negativeExponent then -(value w.exponent) else value w.exponent

def unit : ℚ := 10 ^ (w.power - 6)

def number : ℚ := unitOf w.negative * (w.mantissa * w.unit)

theorem exists_lead : ∃ a, w.lead.digits = [a] ∧ a.isDigit = true := by
  obtain ⟨a, ha⟩ := List.length_eq_one_iff.mp w.lead.length_digits
  exact ⟨a, ha, w.lead.isDigit a (ha ▸ List.mem_cons_self)⟩

theorem splitSign_text : splitSign w.text = (w.negative, w.magnitudeText) := by
  obtain ⟨a, hlead, ha⟩ := w.exists_lead
  rw [text, magnitudeText, hlead]
  split
  · rename_i hneg
    rw [hneg]
    rfl
  · rename_i hneg
    rw [Bool.not_eq_true] at hneg
    rw [hneg]
    exact Numeral.splitSign_digit ha

theorem exponent?_text : exponent? ('e' :: w.exponentText) = some w.power := by
  have hne : w.exponent ≠ [] := by
    rw [← List.length_pos_iff]
    exact Nat.lt_of_lt_of_le (by decide) w.two_le_length
  have hsplit : splitSign w.exponentText = (w.negativeExponent, w.exponent) := by
    rw [exponentText]
    cases w.negativeExponent <;> rfl
  have hall : w.exponent.all Char.isDigit = true := List.all_eq_true.mpr w.isDigit_exponent
  simp [exponent?, hsplit, hne, hall, power]

theorem number?_magnitudeText : number? w.magnitudeText = some (w.mantissa, w.power - 6) := by
  obtain ⟨a, hlead, ha⟩ := w.exists_lead
  have hfraction := takeWhile_dropWhile_eq_iff.mpr
    ⟨rfl, w.fraction.isDigit, show ∀ c ∈ ('e' :: w.exponentText).head?, c.isDigit = false by simp⟩
  simp [number?, magnitudeText, mantissa, hlead, ha, hfraction.1, hfraction.2, w.exponent?_text,
    w.fraction.length_digits]

theorem date?_text : Calendar.date? w.text = none := by
  rw [text]
  split
  · refine Calendar.date?_eq_none fun c hc hdigit => ?_
    obtain rfl := Option.some.inj hc
    cases hdigit
  · exact Calendar.date?_short ⟨w.lead.digits, .inl w.lead.length_digits, w.lead.isDigit⟩ rfl
      (by decide) _

theorem int64?_text : Numeral.int64? w.text = none := by
  refine Literal.int64?_eq_none (c := '.') (by decide) ?_
  rw [splitSign_text]
  exact List.mem_append_right _ List.mem_cons_self

theorem float?_text : float? w.text =
    some (signed w.negative (nearestBits w.mantissa (w.power - 6))) := by
  obtain ⟨a, hlead, ha⟩ := w.exists_lead
  have hmagnitude : w.magnitudeText = a :: '.' :: (w.fraction.digits ++ 'e' :: w.exponentText) := by
    rw [magnitudeText, hlead]
    rfl
  have hsplit := w.splitSign_text
  have hnumber := w.number?_magnitudeText
  rw [hmagnitude] at hsplit hnumber
  rw [float?_of_digit hsplit ha, hnumber]
  rfl

theorem classify_text : Literal.classify w.text =
    .float (signed w.negative (nearestBits w.mantissa (w.power - 6))) := by
  rw [Literal.classify, w.date?_text, w.int64?_text, w.float?_text]

end Written

def written (negative : Bool) (n : Nat) (e : Int) : Written where
  negative := negative
  lead := .ofNat 1 (n / 10 ^ 6)
  fraction := .ofNat 6 n
  negativeExponent := e < 0
  exponent := padded 2 e.natAbs
  two_le_length := by
    rw [padded, length_lastDigits]
    exact Nat.le_max_left _ _
  isDigit_exponent := fun _ => isDigit_of_mem_lastDigits
  head?_exponent := head?_padded_ne (by decide)

theorem lastDigits_add (j k n : Nat) :
    lastDigits (j + k) n = lastDigits j (n / 10 ^ k) ++ lastDigits k n := by
  induction k generalizing n with
  | zero => simp [lastDigits]
  | succ k ih =>
    rw [← Nat.add_assoc, lastDigits, lastDigits, ih, Nat.div_div_eq_div_mul, Nat.pow_succ',
      List.append_assoc]

theorem mantissa_written (negative : Bool) (e : Int) (h : n < 10 ^ 7) :
    (written negative n e).mantissa = n := by
  calc value (lastDigits 1 (n / 10 ^ 6) ++ lastDigits 6 n) = value (lastDigits (1 + 6) n) := by
        rw [lastDigits_add]
    _ = n % 10 ^ 7 := value_lastDigits 7 n
    _ = n := Nat.mod_eq_of_lt h

theorem lead_written (negative : Bool) (e : Int) (h : n < 10 ^ 7) :
    (written negative n e).lead.value = 0 ↔ n < 10 ^ 6 := by
  have hvalue : (written negative n e).lead.value = n / 10 ^ 6 :=
    Calendar.Row.value_ofNat (by omega)
  rw [hvalue, Nat.div_eq_zero_iff_lt (Nat.pow_pos (by decide))]

theorem power_written (negative : Bool) (n : Nat) (e : Int) : (written negative n e).power = e := by
  have hvalue : value (padded 2 e.natAbs) = e.natAbs := by
    rw [padded, value_lastDigits, Nat.mod_eq_of_lt]
    exact (lt_pow_width _).trans_le (Nat.pow_le_pow_right (by decide) (Nat.le_max_right _ _))
  rw [Written.power, written, hvalue]
  simp only [decide_eq_true_eq]
  split <;> omega

theorem scientificText_eq (negative : Bool) (h : sevenDigits r = (n, e)) (hn : n < 10 ^ 7) :
    scientificText negative r = (written negative n e).text := by
  have hlead : lastDigits 1 (n / 1000000) = [digitChar (n / 1000000)] := by
    rw [lastDigits, lastDigits, Nat.mod_eq_of_lt (by omega)]
    rfl
  simp [scientificText, h, Written.text, Written.magnitudeText, Written.exponentText, written,
    Calendar.Row.ofNat, hlead, signedExponent]

theorem negative_iff_of_finite {x : Float} {m : Nat} (h : datum x = .finite negative m e) :
    negative = true ↔ 2 ^ 63 ≤ x.toBits.toNat := by
  have hlt := x.toBits.toNat_lt
  rw [datum, decode_double] at h
  split at h
  · split at h <;> cases h
  · split at h <;> cases h <;> simp <;> omega

/-- The number that is written has the sign bit's sign and is off by at most half a unit of its last
digit, and only zero has a zero in front. -/
theorem scientific_within_half_unit {x : Float} {m : Nat} (h : datum x = .finite negative m e) :
    ∃ w : Written, (scientific x).toList = w.text ∧
      (w.negative = true ↔ 2 ^ 63 ≤ x.toBits.toNat) ∧
      (w.lead.value = 0 ↔ quantity negative m e = 0) ∧
      |w.number - quantity negative m e| ≤ w.unit / 2 ∧
      Literal.classify (scientific x).toList =
        .float (signed w.negative (nearestBits w.mantissa (w.power - 6))) := by
  set r := (Ratio.ofNat m).scale 2 e
  have hvalue : r.value = m * 2 ^ e := by
    rw [value_scale _ two_pos]
    simp [Ratio.value, Ratio.ofNat]
  have hzero : r.num = 0 ↔ quantity negative m e = 0 := by
    have hunit : unitOf negative ≠ 0 := by cases negative <;> simp [unitOf]
    simp [r, scale, Ratio.ofNat, quantity, hunit, zpow_ne_zero]
  obtain ⟨n, k, hseven⟩ : ∃ n k, sevenDigits r = (n, k) := ⟨_, _, rfl⟩
  obtain ⟨hlt, hlead, hnear⟩ :=
    sevenDigits_spec (Nat.mul_pos Nat.one_pos (Nat.two_pow_pos _)) hseven
  have htext : (scientific x).toList = (written negative n k).text := by
    rw [scientific, h]
    exact String.toList_ofList.trans (scientificText_eq negative hseven hlt)
  refine ⟨written negative n k, htext, negative_iff_of_finite h, ?_, ?_, ?_⟩
  · rw [lead_written negative k hlt, hlead, hzero]
  · rw [Written.number, mantissa_written negative k hlt, Written.unit, power_written]
    rw [hvalue] at hnear
    exact (abs_unitOf_mul_sub_self negative _ m e).trans_le hnear
  · rw [htext, Written.classify_text]

/-- The number next below ten, with its sign, is carried to the next power of ten. -/
theorem scientific_within_half_unit_carry :
    datum (signed true 0x4023ffffffffffff) = .finite true 0x13ffffffffffff (-49) ∧
      scientific (signed true 0x4023ffffffffffff) = "-1.000000e+01" ∧
      ∃ w : Written, (scientific (signed true 0x4023ffffffffffff)).toList = w.text ∧
        (w.negative = true ↔ 2 ^ 63 ≤ (signed true 0x4023ffffffffffff).toBits.toNat) ∧
        (w.lead.value = 0 ↔ quantity true 0x13ffffffffffff (-49) = 0) ∧
        |w.number - quantity true 0x13ffffffffffff (-49)| ≤ w.unit / 2 ∧
        Literal.classify (scientific (signed true 0x4023ffffffffffff)).toList =
          .float (signed w.negative (nearestBits w.mantissa (w.power - 6))) := by
  have hdatum : datum (signed true 0x4023ffffffffffff) = .finite true 0x13ffffffffffff (-49) := by
    rw [datum_signed (by decide)]
    rfl
  refine ⟨hdatum, ?_, scientific_within_half_unit hdatum⟩
  rw [scientific, hdatum]
  decide +kernel

end Decimal

end LispCalc
