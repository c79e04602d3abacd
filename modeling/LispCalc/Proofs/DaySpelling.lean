import LispCalc.Proofs.Overflow
import LispCalc.Proofs.Succession
import LispCalc.Proofs.Timestamp

namespace LispCalc

namespace Calendar

variable {c sep : Char} {s rest : List Char} {least : Nat} {d : Day}

/-- A month or a day of the month, with or without a zero in front. -/
structure Short where
  digits : List Char
  length_digits : digits.length = 1 ∨ digits.length = 2
  isDigit : ∀ c ∈ digits, c.isDigit = true

def Short.value (x : Short) : Nat := Decimal.value x.digits

/-- Digits for a day. The day may not exist. -/
structure DayDigits where
  year : Row 4
  month : Short
  day : Short

inductive DayOrder where
  | yearDashed
  | monthSlashed
  | yearSlashed

namespace DayDigits

variable (x : DayDigits)

def text : DayOrder → List Char
  | .yearDashed => x.year.digits ++ '-' :: (x.month.digits ++ '-' :: x.day.digits)
  | .monthSlashed => x.month.digits ++ '/' :: (x.day.digits ++ '/' :: x.year.digits)
  | .yearSlashed => x.year.digits ++ '/' :: (x.month.digits ++ '/' :: x.day.digits)

def named : Day := ⟨x.year.value, x.month.value, x.day.value⟩

end DayDigits

theorem digits?_short (x : Short) (hrest : ∀ c ∈ rest.head?, c.isDigit = false) :
    digits? 1 2 (x.digits ++ rest) = some (x.value, rest) := by
  obtain ⟨ds, hlen | hlen, hds⟩ := x
  · obtain ⟨c, rfl⟩ := List.length_eq_one_iff.mp hlen
    have hc := hds c List.mem_cons_self
    cases rest with
    | nil => simp [digits?, hc, Short.value]
    | cons a rest => simp [digits?, hc, hrest a rfl, Short.value]
  · exact digits?_row ⟨ds, hlen, hds⟩ (by decide)

theorem digits?_short_nil (x : Short) : digits? 1 2 x.digits = some (x.value, []) := by
  have h : digits? 1 2 (x.digits ++ []) = some (x.value, []) := digits?_short x (by simp)
  rwa [List.append_nil] at h

theorem yearFirst?_short (x : Short) (hc : c.isDigit = false) (sep : Char) (least : Nat)
    (rest : List Char) : yearFirst? sep least (x.digits ++ c :: rest) = none := by
  have hdigits : digits? 4 4 (x.digits ++ c :: rest) = none := by
    obtain ⟨ds, hlen | hlen, hds⟩ := x
    · obtain ⟨a, rfl⟩ := List.length_eq_one_iff.mp hlen
      have ha := hds a List.mem_cons_self
      simp [digits?, ha, hc]
    · obtain ⟨a, b, rfl⟩ := List.length_eq_two.mp hlen
      have ha := hds a List.mem_cons_self
      have hb := hds b (List.mem_cons_of_mem a List.mem_cons_self)
      simp [digits?, ha, hb, hc]
  rw [yearFirst?, hdigits]
  rfl

theorem yearFirst?_row_of_ne (year : Row 4) (hc : c ≠ sep) (least : Nat) (rest : List Char) :
    yearFirst? sep least (year.digits ++ c :: rest) = none := by
  simp [yearFirst?, digits?_row, after?, hc]

theorem yearFirst?_suffix (hleast : 0 < least) (h : yearFirst? sep least s = some (d, rest)) :
    rest <:+ s := by
  simp only [yearFirst?, Option.bind_eq_bind, Option.bind_eq_some_iff, Prod.exists] at h
  obtain ⟨_, s₁, hyear, s₂, hsep, _, s₃, hmonth, s₄, hsep', _, s₅, hday, _, _, hd⟩ := h
  obtain ⟨_, rfl⟩ := Prod.mk.inj (Option.some.inj hd)
  have hsuffix {sep : Char} {t u : List Char} (h : after? sep t = some u) : u <:+ t := by
    rw [after?_eq_some h]
    exact List.suffix_cons sep u
  calc s₅ <:+ s₄ := (digits?_eq_some hday hleast).2
    _ <:+ s₃ := hsuffix hsep'
    _ <:+ s₂ := (digits?_eq_some hmonth hleast).2
    _ <:+ s₁ := hsuffix hsep
    _ <:+ s := (digits?_eq_some hyear (by decide)).2

theorem yearFirst?_after?_T (hleast : 0 < least) (hT : 'T' ∉ s)
    (h : yearFirst? sep least s = some (d, rest)) : after? 'T' rest = none := by
  refine Option.eq_none_iff_forall_ne_some.mpr fun t ht => hT ?_
  rw [after?_eq_some ht] at h
  exact (yearFirst?_suffix hleast h).subset List.mem_cons_self

theorem zoned?_eq_none (hT : 'T' ∉ s) : zoned? s = none := by
  rw [zoned?]
  cases h : yearFirst? '-' 2 s with
  | none => rfl
  | some r => simp [yearFirst?_after?_T (by decide) hT h]

theorem unzoned?_eq_none (hT : 'T' ∉ s) : unzoned? s = none := by
  rw [unzoned?]
  cases h : yearFirst? '-' 1 s with
  | none => rfl
  | some r => simp [yearFirst?_after?_T (by decide) hT h]

theorem day?_eq_some_iff {year month day : Nat} :
    day? year month day = some d ↔ d = ⟨year, month, day⟩ ∧ d.isValid = true := by
  rw [day?]
  constructor
  · intro h
    split at h
    · rename_i hvalid
      obtain rfl := Option.some.inj h
      exact ⟨rfl, hvalid⟩
    · cases h
  · rintro ⟨rfl, hvalid⟩
    exact if_pos hvalid

namespace DayDigits

variable (x : DayDigits) (order : DayOrder)

def day? : Option Day := Calendar.day? x.year.value x.month.value x.day.value

theorem T_not_mem_text : 'T' ∉ x.text order := by
  have hT : 'T'.isDigit = false := rfl
  cases order <;> simp [text, Decimal.not_mem_of_isDigit x.year.isDigit hT,
    Decimal.not_mem_of_isDigit x.month.isDigit hT, Decimal.not_mem_of_isDigit x.day.isDigit hT]

theorem yearFirst?_text (hsep : sep.isDigit = false) :
    yearFirst? sep 1 (x.year.digits ++ sep :: (x.month.digits ++ sep :: x.day.digits)) =
      x.day?.map fun d => (d, []) := by
  have hmonth : digits? 1 2 (x.month.digits ++ sep :: x.day.digits) = _ :=
    digits?_short x.month (by simpa using hsep)
  simp only [yearFirst?, digits?_row, after?_cons, hmonth, digits?_short_nil, Nat.le_refl,
    Option.bind_eq_bind, Option.bind_some]
  rw [← day?]
  cases x.day? <;> rfl

theorem monthFirst?_text (hsep : sep.isDigit = false) :
    monthFirst? sep (x.month.digits ++ sep :: (x.day.digits ++ sep :: x.year.digits)) =
      x.day?.map fun d => (d, []) := by
  have hmonth : digits? 1 2 (x.month.digits ++ sep :: (x.day.digits ++ sep :: x.year.digits)) = _ :=
    digits?_short x.month (by simpa using hsep)
  have hday : digits? 1 2 (x.day.digits ++ sep :: x.year.digits) = _ :=
    digits?_short x.day (by simpa using hsep)
  have hyear : digits? 4 4 (x.year.digits ++ []) = _ := digits?_row x.year le_rfl
  rw [List.append_nil] at hyear
  simp only [monthFirst?, after?_cons, hmonth, hday, hyear, Option.bind_eq_bind, Option.bind_some]
  rw [← day?]
  cases x.day? <;> rfl

theorem date?_text_eq : date? (x.text order) = x.day?.map Instant.ofDay := by
  have hT := x.T_not_mem_text order
  have hwhole : wholeDay? (x.day?.map fun d => (d, [])) = x.day?.map Instant.ofDay := by
    cases x.day? <;> rfl
  have hdash : '-'.isDigit = false := rfl
  have hslash : '/'.isDigit = false := rfl
  rw [date?, zoned?_eq_none hT, unzoned?_eq_none hT]
  cases order with
  | yearDashed =>
    rw [text, x.yearFirst?_text hdash, monthFirst?_row x.year hslash,
      yearFirst?_row_of_ne x.year (by decide), hwhole]
    simp [wholeDay?]
  | monthSlashed =>
    rw [text, yearFirst?_short x.month hslash, yearFirst?_short x.month hslash,
      x.monthFirst?_text hslash, hwhole]
    simp [wholeDay?]
  | yearSlashed =>
    rw [text, yearFirst?_row_of_ne x.year (by decide), monthFirst?_row x.year hslash,
      x.yearFirst?_text hslash, hwhole]
    simp [wholeDay?]

theorem exists_text_eq : ∃ ds c rest, x.text order = ds ++ c :: rest ∧ ds ≠ [] ∧
    (∀ c ∈ ds, c.isDigit = true) ∧ (c = '-' ∨ c = '/') := by
  have hyear : x.year.digits ≠ [] := by
    rw [← List.length_pos_iff, x.year.length_digits]
    decide
  have hmonth : x.month.digits ≠ [] := by
    rw [← List.length_pos_iff]
    obtain h | h := x.month.length_digits <;> omega
  cases order with
  | yearDashed => exact ⟨_, _, _, rfl, hyear, x.year.isDigit, .inl rfl⟩
  | monthSlashed => exact ⟨_, _, _, rfl, hmonth, x.month.isDigit, .inr rfl⟩
  | yearSlashed => exact ⟨_, _, _, rfl, hyear, x.year.isDigit, .inr rfl⟩

end DayDigits

end Calendar

namespace Literal

open Calendar Numeral

variable {a c : Char} {ds rest : List Char}

theorem value?_eq_none (hc : c ∈ ['-', '/', '.']) (hmem : c ∈ (Decimal.splitSign ds).2) :
    value? ds = none := by
  rw [value?_eq, Option.map_eq_none_iff, Option.eq_none_iff_forall_ne_some]
  intro n hn
  obtain ⟨radix, digits, hr, _⟩ := magnitude?_eq_some hn
  simp only [List.mem_cons, List.not_mem_nil, or_false] at hc
  refine absurd hmem ?_
  obtain rfl | rfl | rfl := hc <;> exact hr.not_mem (by decide) (by decide) (by decide)

theorem int64?_eq_none (hc : c ∈ ['-', '/', '.']) (hmem : c ∈ (Decimal.splitSign ds).2) :
    int64? ds = none := by
  rw [int64?, value?_eq_none hc hmem]
  rfl

theorem float?_of_mark (ha : a.isDigit = true) (hds : ∀ c ∈ ds, c.isDigit = true)
    (hc : c = '-' ∨ c = '/') : Decimal.float? (a :: (ds ++ c :: rest)) = none := by
  have hdrop : (a :: (ds ++ c :: rest)).dropWhile Char.isDigit = c :: rest := by
    rw [List.dropWhile_cons_of_pos ha, List.dropWhile_append_of_pos hds]
    obtain rfl | rfl := hc <;> rfl
  rw [Decimal.float?_of_digit (splitSign_digit ha) ha,
    Decimal.number?_eq_none hdrop (by obtain rfl | rfl := hc <;> decide)]
  rfl

theorem bool?_of_mark (hc : c = '-' ∨ c = '/') (hmem : c ∈ ds) : bool? ds = none := by
  have hwords : ∀ w ∈ trueWords ++ falseWords, '-' ∉ w.toList ∧ '/' ∉ w.toList := by decide
  refine bool?_of_not_mem fun hw => ?_
  obtain ⟨hdash, hslash⟩ := hwords _ hw
  rw [String.toList_ofList] at hdash hslash
  obtain rfl | rfl := hc
  · exact hdash hmem
  · exact hslash hmem

theorem classify_of_mark (hne : ds ≠ []) (hds : ∀ c ∈ ds, c.isDigit = true)
    (hc : c = '-' ∨ c = '/') (hdate : date? (ds ++ c :: rest) = none) :
    classify (ds ++ c :: rest) = .identifier (String.ofList (ds ++ c :: rest)) := by
  obtain ⟨a, ds, rfl⟩ := List.exists_cons_of_ne_nil hne
  rw [List.forall_mem_cons] at hds
  have hmem : c ∈ ds ++ c :: rest := by simp
  have hint : int64? (a :: (ds ++ c :: rest)) = none := by
    refine int64?_eq_none (c := c) (by grind) ?_
    rw [splitSign_digit hds.1]
    exact List.mem_cons_of_mem a hmem
  rw [List.cons_append] at hdate ⊢
  rw [classify, hdate, hint, float?_of_mark hds.1 hds.2 hc,
    bool?_of_mark hc (List.mem_cons_of_mem a hmem)]

/-- A day is read in all its spellings, as the midnight that so many days of 86400 seconds lead to.
A day that does not exist is read as a name. -/
theorem classify_day (x : DayDigits) (order : DayOrder) :
    (x.named.IsReal → ∃ n : Int, (∀ k, Day.Counted k x.named ↔ k = n) ∧
      date? (x.text order) = some ⟨86400 * n, 0, 0⟩ ∧
      classify (x.text order) = .date ⟨86400 * n, 0, 0⟩) ∧
    (¬ x.named.IsReal → date? (x.text order) = none ∧
      classify (x.text order) = .identifier (String.ofList (x.text order))) := by
  constructor
  · intro h
    have hdate : date? (x.text order) = some (.ofDay x.named) := by
      rw [x.date?_text_eq, DayDigits.day?, day?_eq_some_iff.mpr ⟨rfl, Day.isValid_iff_isReal.mpr h⟩]
      rfl
    refine ⟨x.named.number, fun k => ?_, hdate, ?_⟩
    · rw [Day.counted_iff, and_iff_right h]
    · rw [classify, hdate]
      rfl
  · intro h
    have hdate : date? (x.text order) = none := by
      rw [x.date?_text_eq, Option.map_eq_none_iff, Option.eq_none_iff_forall_ne_some]
      intro d hd
      obtain ⟨rfl, hvalid⟩ := day?_eq_some_iff.mp hd
      exact h (Day.isValid_iff_isReal.mp hvalid)
    obtain ⟨ds, c, rest, htext, hne, hds, hc⟩ := x.exists_text_eq order
    rw [htext] at hdate ⊢
    exact ⟨hdate, classify_of_mark hne hds hc hdate⟩

example : date? "2/29/2000".toList = some ⟨951782400, 0, 0⟩ ∧ date? "1900-02-29".toList = none := by
  decide

end Literal

end LispCalc
