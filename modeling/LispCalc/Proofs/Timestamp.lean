import Mathlib.Data.List.Basic
import LispCalc.Proofs.Digits
import LispCalc.Proofs.Lexeme

namespace LispCalc.Calendar

variable {least most n : Nat} {s rest : List Char} {k : Int}

/-- The digits of a timestamp without an offset. A fraction of a second without digits is none. -/
structure Stamp where
  year : Row 4
  month : Row 2
  day : Row 2
  hour : Row 2
  minute : Row 2
  second : Row 2
  fraction : List Char
  isDigit_fraction : ∀ c ∈ fraction, c.isDigit = true

theorem monthFirst?_row (year : Row 4) {sep : Char} (hsep : sep.isDigit = false)
    (rest : List Char) : monthFirst? sep (year.digits ++ rest) = none := by
  obtain ⟨a, b, c, d, hyear⟩ := List.length_eq_four.mp year.length_digits
  have hall := year.isDigit
  simp only [hyear, List.forall_mem_cons] at hall
  obtain ⟨ha, hb, hc, -⟩ := hall
  have hmonth : ∀ s, digits? 1 2 (a :: b :: s) = some (_, s) :=
    fun s => digits?_row ⟨[a, b], rfl, by simp [ha, hb]⟩ (Nat.le_succ 1)
  have hne : c ≠ sep := by
    rintro rfl
    simp [hc] at hsep
  simp [monthFirst?, hyear, hmonth, after?, hne]

namespace Stamp

variable (x : Stamp)

def fractionText : List Char := if x.fraction = [] then [] else '.' :: x.fraction

def timeText : List Char :=
  x.hour.digits ++ ':' :: (x.minute.digits ++ ':' :: (x.second.digits ++ x.fractionText))

def text : List Char :=
  x.year.digits ++ '-' :: (x.month.digits ++ '-' :: (x.day.digits ++ 'T' :: x.timeText))

def day? : Option Day := Calendar.day? x.year.value x.month.value x.day.value

def nanos : Nat :=
  Decimal.value (x.fraction.take 9) * 10 ^ (9 - (x.fraction.take 9).length)

def clock : Clock := ⟨x.hour.value, x.minute.value, x.second.value, x.nanos⟩

theorem yearFirst?_append (h : least ≤ 2) (rest : List Char) :
    yearFirst? '-' least (x.text ++ rest) =
      x.day?.map fun d => (d, 'T' :: (x.timeText ++ rest)) := by
  simp only [yearFirst?, text, List.append_assoc, List.cons_append, digits?_row, after?_cons, h,
    Nat.le_refl, Option.bind_eq_bind, Option.bind_some]
  rw [← day?]
  cases x.day? <;> rfl

def Ends (rest : List Char) : Prop := ∀ c ∈ rest.head?, c.isDigit = false ∧ c ≠ '.'

theorem ends_nil : Ends [] := by
  simp [Ends]

theorem fraction?_append (hrest : Ends rest) :
    fraction? (x.fractionText ++ rest) = some (x.nanos, rest) := by
  by_cases hf : x.fraction = []
  · have hne : ∀ s, rest ≠ '.' :: s := by
      rintro s rfl
      exact (hrest '.' rfl).2 rfl
    rw [fractionText, if_pos hf, List.nil_append, fraction?.eq_def]
    split
    · exact absurd rfl (hne _)
    · simp [nanos, hf, Decimal.value]
  · have hrow : (x.fraction ++ rest).takeWhile Char.isDigit = x.fraction :=
      (takeWhile_dropWhile_eq_iff.mpr
        ⟨rfl, x.isDigit_fraction, fun c hc => (hrest c hc).1⟩).1
    rw [fractionText, if_neg hf, List.cons_append, fraction?]
    simp [hrow, hf, nanos]

theorem strictClock?_append (hrest : Ends rest) :
    strictClock? (x.timeText ++ rest) = some (x.clock, rest) := by
  simp [strictClock?, timeText, digits?_row, after?_cons, x.fraction?_append hrest, clock]

theorem looseClock?_append (hrest : Ends rest) :
    looseClock? (x.timeText ++ rest) = some (x.clock, rest) := by
  simp [looseClock?, timeText, digits?_row, after?_cons, trimStart_row, x.fraction?_append hrest,
    clock]

theorem zoned?_append (hrest : Ends rest) : zoned? (x.text ++ rest) =
    x.day?.bind fun d => (offset? rest).bind fun k => instant? d x.clock k := by
  rw [zoned?, x.yearFirst?_append (Nat.le_refl 2)]
  cases x.day? with
  | none => rfl
  | some d => simp [after?_cons, x.strictClock?_append hrest]

theorem unzoned?_append (hrest : Ends rest) (hne : rest ≠ []) :
    unzoned? (x.text ++ rest) = none := by
  rw [unzoned?, x.yearFirst?_append (by decide)]
  cases x.day? with
  | none => rfl
  | some d => simp [after?_cons, x.looseClock?_append hrest, hne]

theorem newline_not_mem_timeText : '\n' ∉ x.timeText := by
  have hn : '\n'.isDigit = false := rfl
  have hfraction : '\n' ∉ x.fractionText := by
    rw [fractionText]
    split
    · simp
    · simpa using Decimal.not_mem_of_isDigit x.isDigit_fraction hn
  simp [timeText, Decimal.not_mem_of_isDigit x.hour.isDigit hn,
    Decimal.not_mem_of_isDigit x.minute.isDigit hn, Decimal.not_mem_of_isDigit x.second.isDigit hn,
    hfraction]

theorem unzoned?_text : unzoned? x.text = x.day?.bind fun d => instant? d x.clock 0 := by
  have hyear : yearFirst? '-' 1 (x.text ++ []) = _ := x.yearFirst?_append (by decide) []
  have htime := x.looseClock?_append ends_nil
  rw [List.append_nil] at hyear htime
  rw [unzoned?, hyear]
  cases x.day? with
  | none => rfl
  | some d => simp [after?_cons, htime, x.newline_not_mem_timeText]

theorem wholeDays_append (rest : List Char) :
    wholeDay? (yearFirst? '-' 1 (x.text ++ rest)) = none ∧
      monthFirst? '/' (x.text ++ rest) = none ∧ yearFirst? '/' 1 (x.text ++ rest) = none := by
  refine ⟨?_, ?_, ?_⟩
  · rw [x.yearFirst?_append (by decide)]
    cases x.day? <;> rfl
  · rw [text, List.append_assoc]
    exact monthFirst?_row x.year (by decide) _
  · simp [yearFirst?, text, digits?_row, after?]

theorem date?_append_eq (rest : List Char) :
    date? (x.text ++ rest) = (zoned? (x.text ++ rest) <|> unzoned? (x.text ++ rest)) := by
  obtain ⟨hdashes, hmonth, hslashes⟩ := x.wholeDays_append rest
  rw [date?, hdashes, hmonth, hslashes]
  simp [wholeDay?]

/-- A timestamp without an offset is a time of its day in universal time, or nothing. -/
theorem date?_text : date? x.text = x.day?.bind fun d => instant? d x.clock 0 := by
  have heq := x.date?_append_eq []
  have hzoned := x.zoned?_append ends_nil
  simp only [List.append_nil] at heq hzoned
  rw [heq, hzoned, x.unzoned?_text]
  cases x.day? <;> simp [offset?]

end Stamp

def IsOffset (k : Int) : Prop :=
  ∃ hour minute : Nat, hour < 24 ∧ minute < 60 ∧
    (k = 3600 * hour + 60 * minute ∨ k = -(3600 * hour + 60 * minute))

theorem isOffset_zero : IsOffset 0 := ⟨0, 0, by decide, by decide, .inl rfl⟩

theorem offset?_eq_some (h : offset? s = some k) :
    IsOffset k ∧ ∃ c r, s = c :: r ∧ c ∈ ['Z', 'z', '+', '-', '\u2212'] := by
  unfold offset? at h
  split at h
  · obtain rfl : 0 = k := by simpa using h
    exact ⟨isOffset_zero, 'Z', [], rfl, by simp⟩
  · obtain rfl : 0 = k := by simpa using h
    exact ⟨isOffset_zero, 'z', [], rfl, by simp⟩
  · rename_i sign r _ _
    simp only [Option.bind_eq_bind, Option.bind_eq_some_iff, Prod.exists] at h
    obtain ⟨hour, s₁, _, s₂, _, minute, s₃, _, hk⟩ := h
    split at hk
    · rename_i hvalid
      simp only [Bool.and_eq_true, decide_eq_true_eq] at hvalid
      obtain ⟨⟨_, hhour⟩, hminute⟩ := hvalid
      split at hk
      · rename_i hplus
        obtain rfl := Option.some.inj hk
        exact ⟨⟨hour, minute, hhour, hminute, .inl rfl⟩, sign, r, rfl, by simp [hplus]⟩
      · split at hk
        · rename_i hminus
          obtain rfl := Option.some.inj hk
          refine ⟨⟨hour, minute, hhour, hminute, .inr rfl⟩, sign, r, rfl, ?_⟩
          simp only [Bool.or_eq_true, decide_eq_true_eq] at hminus
          simp [hminus]
        · simp at hk
    · simp at hk
  · simp at h

theorem Stamp.date?_append (x : Stamp) (h : offset? rest = some k) :
    date? (x.text ++ rest) = x.day?.bind fun d => instant? d x.clock k := by
  obtain ⟨_, c, r, rfl, hc⟩ := offset?_eq_some h
  have hmarks : ∀ c ∈ ['Z', 'z', '+', '-', '\u2212'], c.isDigit = false ∧ c ≠ '.' := by simp
  have hends : Ends (c :: r) := by
    rintro _ ⟨⟩
    exact hmarks c hc
  rw [x.date?_append_eq, x.zoned?_append hends, x.unzoned?_append hends (List.cons_ne_nil c r), h]
  cases x.day? <;> simp

theorem offset?_signed {hour minute : Row 2} (hh : hour.value < 24) (hm : minute.value < 60) :
    offset? ('+' :: (hour.digits ++ ':' :: minute.digits)) =
        some (3600 * hour.value + 60 * minute.value) ∧
      offset? ('-' :: (hour.digits ++ ':' :: minute.digits)) =
        some (-(3600 * hour.value + 60 * minute.value : Int)) := by
  have hlast : digits? 2 2 (minute.digits ++ []) = _ := digits?_row minute (Nat.le_refl 2)
  rw [List.append_nil] at hlast
  constructor <;> simp [offset?, digits?_row, after?_cons, hlast, hh, hm]

/-- When a clock that is ahead of universal time shows what one in universal time shows at an
instant. -/
def Instant.shownAhead (t : Instant) (offset : Int) : Instant :=
  ⟨t.seconds - offset, t.nanos, offset⟩

theorem instant?_eq_map (d : Day) (c : Clock) (k : Int) :
    instant? d c k = (instant? d c 0).map (·.shownAhead k) := by
  rw [instant?, instant?]
  split
  · simp [Instant.shownAhead]
  · rfl

namespace Stamp

/-- A timestamp is read alike with an offset and without one, but for the offset itself. -/
theorem date?_append_offset (x : Stamp) (hour minute : Row 2) (hh : hour.value < 24)
    (hm : minute.value < 60) :
    date? (x.text ++ ['Z']) = date? x.text ∧ (∀ t, date? x.text = some t → t.offset = 0) ∧
      date? (x.text ++ '+' :: (hour.digits ++ ':' :: minute.digits)) =
        (date? x.text).map (·.shownAhead (3600 * hour.value + 60 * minute.value)) ∧
      date? (x.text ++ '-' :: (hour.digits ++ ':' :: minute.digits)) =
        (date? x.text).map (·.shownAhead (-(3600 * hour.value + 60 * minute.value : Int))) := by
  have hahead {rest : List Char} {k : Int} (h : offset? rest = some k) :
      date? (x.text ++ rest) = (date? x.text).map (·.shownAhead k) := by
    rw [x.date?_append h, x.date?_text]
    cases x.day? with
    | none => rfl
    | some d => exact instant?_eq_map d x.clock k
  obtain ⟨hplus, hminus⟩ := offset?_signed hh hm
  refine ⟨?_, fun t ht => ?_, hahead hplus, hahead hminus⟩
  · rw [x.date?_append rfl, x.date?_text]
  · rw [x.date?_text, Option.bind_eq_some_iff] at ht
    obtain ⟨d, _, ht⟩ := ht
    rw [instant?] at ht
    split at ht
    · rw [← Option.some.inj ht]
    · simp at ht

def endOf2016 : Stamp where
  year := ⟨"2016".toList, rfl, List.all_eq_true.mp rfl⟩
  month := ⟨"12".toList, rfl, List.all_eq_true.mp rfl⟩
  day := ⟨"31".toList, rfl, List.all_eq_true.mp rfl⟩
  hour := ⟨"23".toList, rfl, List.all_eq_true.mp rfl⟩
  minute := ⟨"59".toList, rfl, List.all_eq_true.mp rfl⟩
  second := ⟨"60".toList, rfl, List.all_eq_true.mp rfl⟩
  fraction := "1234567890123".toList
  isDigit_fraction := List.all_eq_true.mp rfl

theorem date?_append_offset_endOf2016 :
    date? "2016-12-31T23:59:60.1234567890123Z".toList = some ⟨1483228799, 1123456789, 0⟩ ∧
      date? "2016-12-31T23:59:60.1234567890123-05:30".toList =
        some ⟨1483248599, 1123456789, -19800⟩ := by
  have hread : date? endOf2016.text = some ⟨1483228799, 1123456789, 0⟩ := by decide
  obtain ⟨hz, _, _, hminus⟩ := endOf2016.date?_append_offset
    ⟨"05".toList, rfl, List.all_eq_true.mp rfl⟩ ⟨"30".toList, rfl, List.all_eq_true.mp rfl⟩
    (by decide) (by decide)
  rw [hread] at hz hminus
  exact ⟨hz, hminus⟩

end Stamp

end LispCalc.Calendar
