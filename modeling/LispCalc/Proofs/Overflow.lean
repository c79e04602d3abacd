import LispCalc.Literal
import LispCalc.Proofs.IntegerLiteral
import LispCalc.Proofs.Nearest

namespace LispCalc

namespace Calendar

variable {c sep : Char} {s t u : List Char} {least most n : Nat} {d : Day}

theorem digits?_eq_some (h : digits? least most s = some (n, t)) (hleast : 0 < least) :
    (∃ c ∈ s.head?, c.isDigit = true) ∧ t <:+ s := by
  simp only [digits?] at h
  split at h
  · cases h
  · rename_i hlength
    simp only [Option.some.injEq, Prod.mk.injEq] at h
    refine ⟨?_, h.2 ▸ List.drop_suffix _ _⟩
    cases s with
    | nil =>
      rw [List.take_nil, List.takeWhile_nil, List.length_nil] at hlength
      omega
    | cons c s =>
      refine ⟨c, rfl, ?_⟩
      by_contra hc
      cases most <;> simp [hc] at hlength <;> omega

theorem after?_eq_some (h : after? c s = some t) : s = c :: t := by
  unfold after? at h
  split at h
  · split at h
    · simp_all
    · cases h
  · cases h

theorem digits?_after?_eq_some (hdigits : digits? least most s = some (n, t)) (hleast : 0 < least)
    (hafter : after? sep t = some u) : (∃ c ∈ s.head?, c.isDigit = true) ∧ sep ∈ s := by
  obtain ⟨hhead, hsuffix⟩ := digits?_eq_some hdigits hleast
  refine ⟨hhead, hsuffix.subset ?_⟩
  rw [after?_eq_some hafter]
  exact List.mem_cons_self

theorem yearFirst?_eq_some (h : yearFirst? sep least s = some (d, u)) :
    (∃ c ∈ s.head?, c.isDigit = true) ∧ sep ∈ s := by
  simp only [yearFirst?, Option.bind_eq_bind, Option.bind_eq_some_iff, Prod.exists] at h
  obtain ⟨_, _, hdigits, _, hafter, _⟩ := h
  exact digits?_after?_eq_some hdigits (by omega) hafter

theorem monthFirst?_eq_some (h : monthFirst? sep s = some (d, u)) :
    (∃ c ∈ s.head?, c.isDigit = true) ∧ sep ∈ s := by
  simp only [monthFirst?, Option.bind_eq_bind, Option.bind_eq_some_iff, Prod.exists] at h
  obtain ⟨_, _, hdigits, _, hafter, _⟩ := h
  exact digits?_after?_eq_some hdigits (by omega) hafter

theorem date?_eq_none (h : ∀ c ∈ s.head?, c.isDigit = true → '-' ∉ s ∧ '/' ∉ s) :
    date? s = none := by
  have hnot {sep : Char} (hsep : sep = '-' ∨ sep = '/') :
      ¬ ((∃ c ∈ s.head?, c.isDigit = true) ∧ sep ∈ s) := by
    rintro ⟨⟨c, hc, hdigit⟩, hmem⟩
    obtain ⟨hdash, hslash⟩ := h c hc hdigit
    obtain rfl | rfl := hsep
    · exact hdash hmem
    · exact hslash hmem
  have hyear {sep : Char} {least : Nat} (hsep : sep = '-' ∨ sep = '/') :
      yearFirst? sep least s = none :=
    Option.eq_none_iff_forall_ne_some.mpr fun _ hd => hnot hsep (yearFirst?_eq_some hd)
  have hmonth : monthFirst? '/' s = none :=
    Option.eq_none_iff_forall_ne_some.mpr fun _ hd => hnot (.inr rfl) (monthFirst?_eq_some hd)
  simp [date?, zoned?, unzoned?, wholeDay?, hyear, hmonth]

end Calendar

namespace Decimal

variable {c w : Char} {s t r : List Char}

theorem not_isWord_digit {word : List Char} (hc : c.isDigit = true)
    (hw : ∀ w ∈ word.head?, w.isDigit = false) : isWord word (c :: s) = false := by
  have hlower : c.toLower = c := by
    have hhi := (Char.isDigit_iff_toNat.mp hc).2
    rw [Char.toLower, dif_neg]
    rintro ⟨h, _⟩
    have hlo : 'A'.toNat ≤ c.toNat := UInt32.le_iff_toNat_le.mp h
    simp only [Char.reduceToNat] at hlo hhi
    omega
  cases word with
  | nil => rfl
  | cons w word =>
    have hne : c ≠ w := by
      rintro rfl
      simp [hw c rfl] at hc
    simp [isWord, hlower, hne]

theorem float?_of_digit {negative : Bool} (hsign : splitSign s = (negative, c :: r))
    (hc : c.isDigit = true) : float? s =
      (number? (c :: r)).map fun (m, e) => Binary.signed negative (nearestBits m e) := by
  have hword {w : Char} {word : List Char} (hw : w.isDigit = false) :
      isWord (w :: word) (c :: r) = false :=
    not_isWord_digit hc (by simpa using hw)
  simp only [float?, hsign, hword (show 'n'.isDigit = false from rfl),
    hword (show 'i'.isDigit = false from rfl)]
  rfl

theorem number?_of_all_isDigit (h : s.all Char.isDigit = true) (hne : s ≠ []) :
    number? s = some (value s, 0) := by
  have hall : ∀ c ∈ s, c.isDigit = true := List.all_eq_true.mp h
  have htake : s.takeWhile Char.isDigit = s := List.takeWhile_eq_self_iff.mpr hall
  have hdrop : s.dropWhile Char.isDigit = [] := List.dropWhile_eq_nil_iff.mpr hall
  simp [number?, htake, hdrop, hne, exponent?]

theorem number?_eq_none (h : s.dropWhile Char.isDigit = c :: t) (hc : c ∉ ['.', 'e', 'E']) :
    number? s = none := by
  simp only [List.mem_cons, List.not_mem_nil, or_false, not_or] at hc
  simp [number?, h, hc, exponent?]

theorem isNearest_nearestBits {m : Nat} (hm : 0 < m) (negative : Bool) :
    Binary.IsNearest (Binary.unitOf negative * m) (Binary.signed negative (nearestBits m 0)) := by
  by_cases hlog : 1024 ≤ m.log2
  · have hbound : Binary.overflowBound ≤ m := by
      have hpos : (0 : ℚ) < 2 ^ (970 : ℤ) := zpow_pos two_pos _
      have hpow : (2 : ℚ) ^ (1024 : ℤ) ≤ 2 ^ (m.log2 : ℤ) :=
        zpow_le_zpow_right₀ one_le_two (by omega)
      have hle := (Ratio.log2_cast_spec hm.ne').1
      exact (sub_le_self _ hpos.le).trans (hpow.trans hle)
    rw [nearestBits, if_neg hm.ne', if_pos (by simp; omega)]
    exact Binary.isNearest_infinite negative hbound (by exact_mod_cast hm)
  · have hvalue : ((Ratio.ofNat m).scale 10 0).value = m := by
      rw [Ratio.value_scale _ (by norm_num)]
      simp [Ratio.value, Ratio.ofNat]
    rw [nearestBits, if_neg hm.ne', if_neg (by simp; omega), if_neg (by simp), ← hvalue]
    exact Binary.isNearest_ofRatio negative (by simpa [Ratio.scale, Ratio.ofNat] using hm)
      (by simp [Ratio.scale, Ratio.ofNat])

end Decimal

namespace Numeral

variable {c : Char} {radix : Nat} {s r sign : List Char} {ds : List Nat} {k v : Int}

theorem DigitRow.mem (h : DigitRow radix s ds) :
    ∀ c ∈ s, c = '_' ∨ c ∈ lowerDigits ∨ c ∈ upperDigits := by
  induction h with
  | nil => simp
  | plain hd _ ih =>
    rw [List.forall_mem_cons]
    exact ⟨.inr (hd.2.imp List.mem_of_getElem? List.mem_of_getElem?), ih⟩
  | marked hd _ ih =>
    rw [List.forall_mem_cons, List.forall_mem_cons]
    exact ⟨.inl rfl, .inr (hd.2.imp List.mem_of_getElem? List.mem_of_getElem?), ih⟩

theorem DigitRow.not_mem (h : DigitRow radix s ds) (hc : c ≠ '_')
    (hlower : c ∉ lowerDigits) (hupper : c ∉ upperDigits) : c ∉ s := by
  intro hmem
  obtain h | h | h := h.mem c hmem
  · exact hc h
  · exact hlower h
  · exact hupper h

theorem Unsigned.not_mem (h : Unsigned r radix ds) (hmark : c ∉ '_' :: radixMarks)
    (hlower : c ∉ lowerDigits) (hupper : c ∉ upperDigits) : c ∉ r := by
  have hzero : c ≠ '0' := by
    rintro rfl
    exact hlower (by decide)
  simp only [radixMarks, List.mem_cons, List.not_mem_nil, or_false, not_or] at hmark
  cases h with
  | hexadecimal hx _ hds | binary hx _ hds | octal hx _ hds =>
    have hrow := hds.not_mem hmark.1 hlower hupper
    obtain rfl | rfl := hx <;> simp [hzero, hmark, hrow]
  | legacyOctal hds =>
    have hrow := hds.not_mem hmark.1 hlower hupper
    simp [hzero, hrow]
  | decimal hd _ hds =>
    have hrow := hds.not_mem hmark.1 hlower hupper
    rw [List.mem_cons, not_or]
    refine ⟨?_, hrow⟩
    rintro rfl
    obtain hm | hm := hd.2
    · exact hlower (List.mem_of_getElem? hm)
    · exact hupper (List.mem_of_getElem? hm)

theorem DigitRow.value_eq (h : DigitRow radix s ds) (hs : s.all Char.isDigit = true) (n : Nat) :
    s.foldl (fun n c => 10 * n + (c.toNat - 48)) n = ds.foldl (fun n d => 10 * n + d) n := by
  induction h generalizing n with
  | nil => rfl
  | plain hd _ ih =>
    rw [List.all_cons, Bool.and_eq_true] at hs
    rw [List.foldl_cons, List.foldl_cons, hd.toNat_sub hs.1, ih hs.2]
  | marked => simp at hs

theorem DigitRow.lt (h : DigitRow radix s ds) : ∀ d ∈ ds, d < radix := by
  induction h with
  | nil => simp
  | plain hd _ ih | marked hd _ ih => exact List.forall_mem_cons.mpr ⟨hd.1, ih⟩

theorem Unsigned.lt (h : Unsigned r radix ds) : ∀ d ∈ ds, d < radix := by
  cases h with
  | hexadecimal _ _ hds | binary _ _ hds | octal _ _ hds | legacyOctal hds => exact hds.lt
  | decimal hd _ hds => exact List.forall_mem_cons.mpr ⟨hd.1, hds.lt⟩

theorem triple_ofDigits_le (hds : ∀ d ∈ ds, d < 8) (h : 2 ^ 63 ≤ ofDigits 8 ds) :
    3 * ofDigits 8 ds ≤ ofDigits 10 ds := by
  rw [ofDigits] at h ⊢
  rw [ofDigits]
  generalize hl : ds.reverse = l at *
  have hl' : ∀ d ∈ l, d < 8 := by
    rw [← hl]
    simpa using hds
  have hlength : 21 ≤ l.length := by
    by_contra hlt
    have hpow : 8 ^ l.length ≤ 8 ^ 21 := Nat.pow_le_pow_right (by omega) (by omega)
    have := Nat.ofDigits_lt_base_pow_length (by omega) hl'
    omega
  have htake : (l.take 21).length = 21 := List.length_take_of_le hlength
  have hsplit (b : Nat) : Nat.ofDigits b l =
      Nat.ofDigits b (l.take 21) + b ^ 21 * Nat.ofDigits b (l.drop 21) := by
    have happend := @Nat.ofDigits_append b (l.take 21) (l.drop 21)
    rwa [List.take_append_drop, htake] at happend
  have hlow : Nat.ofDigits 8 (l.take 21) < 8 ^ (l.take 21).length :=
    Nat.ofDigits_lt_base_pow_length (by omega) fun d hd => hl' d (List.mem_of_mem_take hd)
  have hhigh := Nat.ofDigits_monotone (l.drop 21) (show 8 ≤ 10 by omega)
  rw [htake] at hlow
  rw [hsplit 8] at h
  rw [hsplit 8, hsplit 10]
  omega

theorem DigitRow.dropWhile_eq (h : DigitRow radix s ds) (hradix : radix ≤ 10)
    (hs : ¬ s.all Char.isDigit = true) : ∃ t, s.dropWhile Char.isDigit = '_' :: t := by
  induction h with
  | nil => simp at hs
  | plain hd _ ih =>
    have hc := hd.isDigit hradix
    obtain ⟨t, ht⟩ := ih (by simpa [hc] using hs)
    exact ⟨t, by rw [List.dropWhile_cons_of_pos hc, ht]⟩
  | marked => exact ⟨_, rfl⟩

theorem Unsigned.radix_eq (h : Unsigned r radix ds) (hr : r.all Char.isDigit = true) :
    radix = 10 ∨ radix = 8 := by
  cases h with
  | hexadecimal hx | binary hx => obtain rfl | rfl := hx <;> simp at hr
  | octal | legacyOctal => exact .inr rfl
  | decimal => exact .inl rfl

theorem Unsigned.value_eq (h : Unsigned r radix ds) (hr : r.all Char.isDigit = true) :
    Decimal.value r = ofDigits 10 ds := by
  rw [ofDigits_eq_foldl]
  cases h with
  | hexadecimal hx | binary hx | octal hx => obtain rfl | rfl := hx <;> simp at hr
  | legacyOctal hds =>
    rw [List.all_cons, Bool.and_eq_true] at hr
    exact hds.value_eq hr.2 0
  | decimal hd _ hds =>
    rw [List.all_cons, Bool.and_eq_true] at hr
    rw [Decimal.value, List.foldl_cons, List.foldl_cons, hd.toNat_sub hr.1, hds.value_eq hr.2]

theorem Unsigned.dropWhile_eq (h : Unsigned r radix ds) (hr : ¬ r.all Char.isDigit = true) :
    ∃ c t, r.dropWhile Char.isDigit = c :: t ∧ c ∉ ['.', 'e', 'E'] := by
  cases h with
  | hexadecimal hx | binary hx | octal hx =>
    obtain rfl | rfl := hx <;> exact ⟨_, _, rfl, by decide⟩
  | legacyOctal hds =>
    obtain ⟨t, ht⟩ := hds.dropWhile_eq (by omega) (by simpa using hr)
    exact ⟨'_', t, by rw [List.dropWhile_cons_of_pos rfl, ht], by decide⟩
  | decimal hd _ hds =>
    have hc := hd.isDigit le_rfl
    obtain ⟨t, ht⟩ := hds.dropWhile_eq le_rfl (by simpa [hc] using hr)
    exact ⟨'_', t, by rw [List.dropWhile_cons_of_pos hc, ht], by decide⟩

theorem date?_of_unsigned (hk : IsSign sign k) (h : Unsigned r radix ds) :
    Calendar.date? (sign ++ r) = none := by
  apply Calendar.date?_eq_none
  intro c hc hdigit
  cases hk with
  | missing =>
    exact ⟨h.not_mem (by decide) (by decide) (by decide),
      h.not_mem (by decide) (by decide) (by decide)⟩
  | plus | minus =>
    obtain rfl := Option.some.inj hc
    cases hdigit

/-- As a float a numeral is read in decimal, whatever its radix, and only without underscores and
letters. -/
theorem float?_of_unsigned (hk : IsSign sign k) (h : Unsigned r radix ds) :
    Decimal.float? (sign ++ r) =
      if r.all Char.isDigit then
        some (Binary.signed (k < 0) (Decimal.nearestBits (ofDigits 10 ds) 0))
      else none := by
  obtain ⟨c, t, rfl, hc⟩ := h.exists_cons
  rw [Decimal.float?_of_digit (splitSign_of_unsigned hk h) hc]
  by_cases hall : (c :: t).all Char.isDigit = true
  · rw [if_pos hall, Decimal.number?_of_all_isDigit hall (List.cons_ne_nil c t), h.value_eq hall]
    rfl
  · obtain ⟨_, _, hdrop, hmark⟩ := h.dropWhile_eq hall
    rw [if_neg hall, Decimal.number?_eq_none hdrop hmark]
    rfl

end Numeral

namespace Literal

open Numeral

variable {radix : Nat} {s r sign : List Char} {ds : List Nat} {k v : Int}

theorem bool?_of_not_mem (h : String.ofList s ∉ trueWords ++ falseWords) : bool? s = none := by
  rw [List.mem_append, not_or] at h
  simp [bool?, h]

theorem bool?_eq_none (h : value? s = some v) (hv : ¬ Fits v) : bool? s = none := by
  have hwords : ∀ w ∈ trueWords ++ falseWords, ∀ v ∈ value? w.toList, Fits v := by decide
  refine bool?_of_not_mem fun hmem => hv (hwords _ hmem v ?_)
  rwa [String.toList_ofList]

/-- How a numeral is read. One that fits in 64 bits is that integer. A greater one without letters
and underscores is a float: the nearest one to its number if it is decimal, but the digits of an
octal are read in decimal there, which gives the float of another number as long as its own has
one that is finite. Any other is a name. -/
inductive Reads (sign r : List Char) (k : Int) (radix : Nat) (ds : List Nat) : Value → Prop where
  | integer {n : Int64} : n.toInt = k * ofDigits radix ds → Reads sign r k radix ds (.int n)
  | decimal {x : Float} : ¬ Fits (k * ofDigits radix ds) → r.all Char.isDigit = true →
      radix = 10 → Binary.IsNearest (k * ofDigits radix ds) x → Reads sign r k radix ds (.float x)
  | legacyOctal {x : Float} : ¬ Fits (k * ofDigits radix ds) → r.all Char.isDigit = true →
      radix = 8 → Binary.IsNearest (k * ofDigits 10 ds) x →
      (ofDigits radix ds < Binary.overflowBound → ¬ Binary.IsNearest (k * ofDigits radix ds) x) →
      Reads sign r k radix ds (.float x)
  | name : ¬ Fits (k * ofDigits radix ds) → ¬ r.all Char.isDigit = true →
      Reads sign r k radix ds (.identifier (String.ofList (sign ++ r)))

theorem le_of_not_fits {m : Nat} (hk : IsSign sign k) (h : ¬ Fits (k * m)) : 2 ^ 63 ≤ m := by
  rw [Fits] at h
  cases hk <;> omega

theorem unitOf_of_isSign (hk : IsSign sign k) : Binary.unitOf (k < 0) = k := by
  cases hk <;> simp [Binary.unitOf]

theorem not_isNearest_octal {x : Float} (hk : IsSign sign k) (hds : ∀ d ∈ ds, d < 8)
    (h : 2 ^ 63 ≤ ofDigits 8 ds) (hx : Binary.IsNearest (k * ofDigits 10 ds) x)
    (hbound : ofDigits 8 ds < Binary.overflowBound) :
    ¬ Binary.IsNearest (k * ofDigits 8 ds) x := by
  have htriple := triple_ofDigits_le hds h
  have hvalue (n : Nat) : (Ratio.ofNat n).value = n := by simp [Ratio.value, Ratio.ofNat]
  rw [← unitOf_of_isSign hk, ← hvalue (ofDigits 10 ds)] at hx
  rw [← unitOf_of_isSign hk, ← hvalue (ofDigits 8 ds)]
  refine hx.not_of_triple (by simp [Ratio.ofNat]; omega) Nat.one_pos ?_
    (by simp [Ratio.ofNat]; omega) Nat.one_pos ?_ (by rwa [hvalue])
  · rw [hvalue]
    exact_mod_cast (show 1 ≤ ofDigits 8 ds by omega)
  · rw [hvalue, hvalue]
    exact_mod_cast htriple

theorem classify_of_fits (hk : IsSign sign k) (h : Unsigned r radix ds)
    (hfits : Fits (k * ofDigits radix ds)) :
    classify (sign ++ r) = .int (Int64.ofInt (k * ofDigits radix ds)) := by
  rw [classify, date?_of_unsigned hk h, int64?_of_value? (value?_of_unsigned hk h), if_pos hfits]

theorem classify_of_not_fits (hk : IsSign sign k) (h : Unsigned r radix ds)
    (hfits : ¬ Fits (k * ofDigits radix ds)) :
    classify (sign ++ r) =
      if r.all Char.isDigit then
        .float (Binary.signed (k < 0) (Decimal.nearestBits (ofDigits 10 ds) 0))
      else .identifier (String.ofList (sign ++ r)) := by
  have hvalue := value?_of_unsigned hk h
  rw [classify, date?_of_unsigned hk h, int64?_of_value? hvalue, if_neg hfits,
    float?_of_unsigned hk h, bool?_eq_none hvalue hfits]
  by_cases hall : r.all Char.isDigit = true
  · rw [if_pos hall, if_pos hall]
  · rw [if_neg hall, if_neg hall]

theorem isNearest_of_isSign {m : Nat} (hk : IsSign sign k) (hm : 0 < m) :
    Binary.IsNearest (k * m) (Binary.signed (k < 0) (Decimal.nearestBits m 0)) := by
  rw [← unitOf_of_isSign hk]
  exact Decimal.isNearest_nearestBits hm (k < 0)

/-- Every numeral keeps its number, becomes the nearest float or is a name, but for the octals that
are too great and have no letter. -/
theorem reads_classify (hk : IsSign sign k) (h : Unsigned r radix ds) :
    Reads sign r k radix ds (classify (sign ++ r)) := by
  by_cases hfits : Fits (k * ofDigits radix ds)
  · rw [classify_of_fits hk h hfits]
    exact .integer (Int64.toInt_ofInt_of_le hfits.1 hfits.2)
  · have hbig := le_of_not_fits hk hfits
    rw [classify_of_not_fits hk h hfits]
    by_cases hall : r.all Char.isDigit = true
    · rw [if_pos hall]
      obtain rfl | rfl := h.radix_eq hall
      · exact .decimal hfits hall rfl (isNearest_of_isSign hk (by omega))
      · have hdecimal := triple_ofDigits_le h.lt hbig
        have hnear := isNearest_of_isSign hk (show 0 < ofDigits 10 ds by omega)
        exact .legacyOctal hfits hall rfl hnear (not_isNearest_octal hk h.lt hbig hnear)
    · rw [if_neg hall]
      exact .name hfits hall

def octalBeyond : List Char := "01000000000000000000000".toList

theorem exists_unsigned_octalBeyond :
    ∃ ds, Unsigned octalBeyond 8 ds ∧ ofDigits 8 ds = 2 ^ 63 := by
  have hcontinue : continue? 8 0 "1000000000000000000000".toList = some (2 ^ 63) := by decide
  obtain ⟨ds, hds, hvalue⟩ := continue?_eq_some_iff.mp hcontinue
  exact ⟨ds, .legacyOctal hds, by rw [ofDigits_eq_foldl, hvalue]⟩

theorem reads_classify_octalBeyond :
    ∃ ds, IsSign ['-'] (-1) ∧ Unsigned octalBeyond 8 ds ∧
      Reads ['-'] octalBeyond (-1) 8 ds (classify ('-' :: octalBeyond)) := by
  obtain ⟨ds, h, _⟩ := exists_unsigned_octalBeyond
  exact ⟨ds, .minus, h, reads_classify .minus h⟩

/-- One octal digit too many, and the number is read in decimal. -/
theorem octalBeyond_changes : Spells octalBeyond (2 ^ 63) ∧
    ∃ x, classify octalBeyond = .float x ∧ ¬ Binary.IsNearest (2 ^ 63) x := by
  obtain ⟨ds, h, hvalue⟩ := exists_unsigned_octalBeyond
  have hdecimal := triple_ofDigits_le h.lt hvalue.ge
  have hnear := isNearest_of_isSign .missing (show 0 < ofDigits 10 ds by omega)
  have hfloat := classify_of_not_fits .missing h (by rw [Fits]; omega)
  have hbound : (ofDigits 8 ds : ℚ) < Binary.overflowBound := by
    have hunit : (2 : ℚ) ^ (10 : ℤ) ≤ 2 ^ (970 : ℤ) := zpow_le_zpow_right₀ one_le_two (by omega)
    rw [hvalue, Binary.overflowBound_eq]
    generalize (2 : ℚ) ^ (970 : ℤ) = unit at *
    push_cast
    linarith
  have hnot := not_isNearest_octal .missing h.lt hvalue.ge hnear hbound
  rw [hvalue, Int.cast_one, one_mul, Nat.cast_pow, Nat.cast_ofNat] at hnot
  exact ⟨⟨[], 1, _, 8, ds, .missing, h, rfl, by rw [hvalue]; rfl⟩, _, hfloat, hnot⟩

end Literal

end LispCalc
