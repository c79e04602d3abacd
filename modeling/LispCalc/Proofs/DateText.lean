import LispCalc.Proofs.DayCount
import LispCalc.Proofs.Timestamp
import LispCalc.Value.Coercion

namespace LispCalc.Calendar

open Decimal

variable {s rest : List Char} {d : Day} {c : Clock} {k : Int} {t : Instant}

theorem Clock.isValid_iff : c.isValid = true ↔ c.hour < 24 ∧ c.minute < 60 ∧ c.second ≤ 60 := by
  simp [Clock.isValid, and_assoc]

theorem Clock.secondOfDay_lt (h : c.isValid = true) : c.secondOfDay < 86400 := by
  obtain ⟨hh, hm, hs⟩ := isValid_iff.mp h
  rw [secondOfDay]
  omega

structure Day.IsPlain (d : Day) : Prop where
  isValid : d.isValid = true
  year_nonneg : 0 ≤ d.year
  year_lt : d.year < 10000

/-- What a date literal says: a day, the time of a clock on it, and the offset of the clock. -/
structure Reading where
  day : Day
  clock : Clock
  offset : Int
  isPlain_day : day.IsPlain
  isValid_clock : clock.isValid = true
  nanos_lt : clock.nanos < billion
  isOffset : IsOffset offset

namespace Reading

variable (r : Reading)

def instant : Instant :=
  ⟨86400 * r.day.number + r.clock.secondOfDay - r.offset, r.clock.leapNanos, r.offset⟩

def whole : Reading :=
  { r with clock := { r.clock with nanos := 0 }, nanos_lt := (by decide : 0 < billion) }

theorem clock_instant : r.instant.clock = 86400 * r.day.number + r.clock.secondOfDay := by
  rw [Instant.clock, instant, Int.sub_add_cancel]

theorem day_instant : r.instant.day = r.day := by
  have hlt := Clock.secondOfDay_lt r.isValid_clock
  have hnumber : r.instant.clock / 86400 = r.day.number := by
    rw [clock_instant]
    omega
  rw [Instant.day, hnumber, ofNumber_number r.isPlain_day.isValid]

theorem secondOfDay_instant : r.instant.secondOfDay = r.clock.secondOfDay := by
  have hlt := Clock.secondOfDay_lt r.isValid_clock
  rw [Instant.secondOfDay, clock_instant]
  omega

theorem hour_instant : r.instant.secondOfDay / 3600 = r.clock.hour := by
  obtain ⟨_, hm, _⟩ := Clock.isValid_iff.mp r.isValid_clock
  rw [secondOfDay_instant, Clock.secondOfDay]
  omega

theorem minute_instant : r.instant.secondOfDay / 60 % 60 = r.clock.minute := by
  obtain ⟨_, hm, _⟩ := Clock.isValid_iff.mp r.isValid_clock
  rw [secondOfDay_instant, Clock.secondOfDay]
  omega

theorem nanos_instant_lt_iff : r.instant.nanos < billion ↔ r.clock.second ≠ 60 := by
  have hlt := r.nanos_lt
  have hnanos : r.instant.nanos = r.clock.nanos + if r.clock.second = 60 then billion else 0 := rfl
  rw [hnanos]
  split <;> omega

theorem second_instant : r.instant.second = r.clock.second := by
  obtain ⟨_, hm, hs⟩ := Clock.isValid_iff.mp r.isValid_clock
  rw [Instant.second, secondOfDay_instant, Clock.secondOfDay]
  -- a leap second is counted as the one before it and told from it by its nanoseconds
  by_cases hleap : r.clock.second = 60
  · rw [if_neg (by simpa [nanos_instant_lt_iff] using hleap)]
    omega
  · rw [if_pos (r.nanos_instant_lt_iff.mpr hleap)]
    omega

def stamp : Stamp where
  year := .ofNat 4 r.day.year.toNat
  month := .ofNat 2 r.day.month
  day := .ofNat 2 r.day.day
  hour := .ofNat 2 r.clock.hour
  minute := .ofNat 2 r.clock.minute
  second := .ofNat 2 r.clock.second
  fraction := []
  isDigit_fraction := by simp

theorem render_instant :
    r.instant.render.toList = r.stamp.text ++ Instant.zoneText r.offset := by
  obtain ⟨hh, hm, hs⟩ := Clock.isValid_iff.mp r.isValid_clock
  obtain ⟨hmonth, hday⟩ := month_le_of_isValid r.isPlain_day.isValid
  have hnonneg := r.isPlain_day.year_nonneg
  have hlt := r.isPlain_day.year_lt
  have hyear : Instant.yearText r.day.year = lastDigits 4 r.day.year.toNat := by
    rw [Instant.yearText, if_pos (by omega), padded_eq_lastDigits (by decide) (by omega)]
  have hpair {n : Nat} (h : n < 100) : padded 2 n = lastDigits 2 n :=
    padded_eq_lastDigits (by decide) h
  rw [Instant.render, String.toList_ofList, Instant.dateText, Instant.timeText, day_instant,
    hour_instant, minute_instant, second_instant, hyear, hpair (by omega), hpair (by omega),
    hpair (by omega), hpair (by omega), hpair (by omega)]
  simp [stamp, Stamp.text, Stamp.timeText, Stamp.fractionText, Row.ofNat, instant]

theorem day?_stamp : r.stamp.day? = some r.day := by
  obtain ⟨hmonth, hday⟩ := month_le_of_isValid r.isPlain_day.isValid
  have hnonneg := r.isPlain_day.year_nonneg
  have hlt := r.isPlain_day.year_lt
  have hyear : r.stamp.year.value = r.day.year.toNat := Row.value_ofNat (by omega)
  have hd : (⟨r.stamp.year.value, r.stamp.month.value, r.stamp.day.value⟩ : Day) = r.day := by
    have hm : r.stamp.month.value = r.day.month := Row.value_ofNat (by omega)
    have hd : r.stamp.day.value = r.day.day := Row.value_ofNat (by omega)
    rw [hm, hd, hyear, Int.toNat_of_nonneg hnonneg]
  rw [Stamp.day?, Calendar.day?, hd]
  exact if_pos r.isPlain_day.isValid

theorem clock_stamp : r.stamp.clock = r.whole.clock := by
  obtain ⟨hhour, hminute, hsecond⟩ := Clock.isValid_iff.mp r.isValid_clock
  have hh : r.stamp.hour.value = r.clock.hour := Row.value_ofNat (by omega)
  have hm : r.stamp.minute.value = r.clock.minute := Row.value_ofNat (by omega)
  have hs : r.stamp.second.value = r.clock.second := Row.value_ofNat (by omega)
  have hn : r.stamp.nanos = 0 := by simp [Stamp.nanos, stamp, value]
  rw [Stamp.clock, hh, hm, hs, hn]
  rfl

end Reading

theorem offset?_zoneText (h : IsOffset k) : offset? (Instant.zoneText k) = some k := by
  obtain ⟨hour, minute, hh, hm, hk⟩ := h
  by_cases hzero : k = 0
  · rw [Instant.zoneText, if_pos hzero, hzero]
    rfl
  -- whole minutes are shown as they are, though an offset is shown to the nearest minute
  have hminutes : (k.natAbs + 30) / 60 = 60 * hour + minute := by omega
  have hhour : (60 * hour + minute) / 60 = hour := by omega
  have hminute : (60 * hour + minute) % 60 = minute := by omega
  have hvalue {n : Nat} (h : n < 60) : (Row.ofNat 2 n).value = n := Row.value_ofNat (by omega)
  have hpair {n : Nat} (h : n < 60) : padded 2 n = (Row.ofNat 2 n).digits :=
    padded_eq_lastDigits (by decide) (by omega)
  have hsigned : offset? _ = _ ∧ offset? _ = _ :=
    offset?_signed ((hvalue (by omega)).trans_lt hh) ((hvalue hm).trans_lt hm)
  rw [hvalue hm, hvalue (by omega : hour < 60)] at hsigned
  rw [Instant.zoneText, if_neg hzero]
  simp only [hminutes, hhour, hminute, hpair hm, hpair (by omega : hour < 60), List.cons_append]
  obtain rfl | rfl := hk
  · rw [Instant.sign, if_neg (by omega)]
    exact hsigned.1
  · rw [Instant.sign, if_pos (by omega)]
    exact hsigned.2

namespace Reading

variable (r : Reading)

theorem date?_render_instant : date? r.instant.render.toList = some r.whole.instant := by
  rw [render_instant, r.stamp.date?_append (offset?_zoneText r.isOffset), day?_stamp, clock_stamp]
  exact if_pos r.whole.isValid_clock

theorem render_whole : r.whole.instant.render = r.instant.render := by
  apply String.toList_inj.mp
  rw [render_instant, render_instant]
  rfl

end Reading

/-- The instant without its fraction of a second. A leap second stays one. -/
def Instant.whole (t : Instant) : Instant :=
  { t with nanos := if t.nanos < billion then 0 else billion }

theorem Reading.whole_instant (r : Reading) : r.instant.whole = r.whole.instant := by
  have hwhole : r.whole.instant.nanos = 0 + if r.clock.second = 60 then billion else 0 := rfl
  have heq : (if r.instant.nanos < billion then 0 else billion) = r.whole.instant.nanos := by
    rw [hwhole]
    by_cases hleap : r.clock.second = 60
    · rw [if_neg (by simpa [nanos_instant_lt_iff] using hleap), if_pos hleap, Nat.zero_add]
    · rw [if_pos (r.nanos_instant_lt_iff.mpr hleap), if_neg hleap]
  rw [Instant.whole, heq]
  rfl

theorem fraction?_lt {n : Nat} (h : fraction? s = some (n, rest)) : n < billion := by
  unfold fraction? at h
  split at h
  · rename_i s
    dsimp only at h
    split at h
    · simp at h
    · obtain ⟨rfl, _⟩ := Prod.mk.inj (Option.some.inj h)
      have hdigits : ∀ c ∈ (s.takeWhile Char.isDigit).take 9, c.isDigit = true :=
        fun c hc => List.mem_takeWhile_imp (List.mem_of_mem_take hc)
      exact value_mul_pow_lt hdigits (List.length_take_le 9 _)
  · obtain ⟨rfl, _⟩ := Prod.mk.inj (Option.some.inj h)
    decide

theorem strictClock?_nanos_lt (h : strictClock? s = some (c, rest)) : c.nanos < billion := by
  simp only [strictClock?, Option.bind_eq_bind, Option.bind_eq_some_iff, Prod.exists] at h
  obtain ⟨_, _, _, _, _, _, _, _, _, _, _, _, _, _, _, hfraction, hc⟩ := h
  obtain ⟨rfl, _⟩ := Prod.mk.inj (Option.some.inj hc)
  exact fraction?_lt hfraction

theorem looseClock?_nanos_lt (h : looseClock? s = some (c, rest)) : c.nanos < billion := by
  simp only [looseClock?, Option.bind_eq_bind, Option.bind_eq_some_iff, Prod.exists] at h
  obtain ⟨_, _, _, _, _, _, _, _, hc⟩ := h
  split at hc
  · simp only [Option.bind_eq_some_iff, Prod.exists] at hc
    obtain ⟨_, _, _, _, _, hfraction, hc⟩ := hc
    obtain ⟨rfl, _⟩ := Prod.mk.inj (Option.some.inj hc)
    exact fraction?_lt hfraction
  · obtain ⟨rfl, _⟩ := Prod.mk.inj (Option.some.inj hc)
    exact (by decide : 0 < billion)

theorem isPlain_of_day? {year month day : Nat} (hyear : year < 10000)
    (h : day? year month day = some d) : d.IsPlain := by
  unfold day? at h
  simp only at h
  split at h
  · rename_i hvalid
    obtain rfl := Option.some.inj h
    exact ⟨hvalid, Int.natCast_nonneg year, Int.ofNat_lt.mpr hyear⟩
  · simp at h

theorem yearFirst?_isPlain {sep : Char} {least : Nat}
    (h : yearFirst? sep least s = some (d, rest)) :
    d.IsPlain := by
  simp only [yearFirst?, Option.bind_eq_bind, Option.bind_eq_some_iff, Prod.exists] at h
  obtain ⟨_, _, hyear, _, _, _, _, _, _, _, _, _, _, _, hday, hd⟩ := h
  obtain ⟨rfl, _⟩ := Prod.mk.inj (Option.some.inj hd)
  exact isPlain_of_day? (digits?_lt hyear) hday

theorem monthFirst?_isPlain {sep : Char} (h : monthFirst? sep s = some (d, rest)) : d.IsPlain := by
  simp only [monthFirst?, Option.bind_eq_bind, Option.bind_eq_some_iff, Prod.exists] at h
  obtain ⟨_, _, _, _, _, _, _, _, _, _, _, _, hyear, _, hday, hd⟩ := h
  obtain ⟨rfl, _⟩ := Prod.mk.inj (Option.some.inj hd)
  exact isPlain_of_day? (digits?_lt hyear) hday

theorem exists_reading (hd : d.IsPlain) (hc : c.nanos < billion) (hk : IsOffset k)
    (h : instant? d c k = some t) : ∃ r : Reading, r.instant = t := by
  unfold instant? at h
  split at h
  · rename_i hvalid
    exact ⟨⟨d, c, k, hd, hvalid, hc, hk⟩, Option.some.inj h⟩
  · simp at h

theorem exists_reading_of_zoned? (h : zoned? s = some t) : ∃ r : Reading, r.instant = t := by
  simp only [zoned?, Option.bind_eq_bind, Option.bind_eq_some_iff, Prod.exists] at h
  obtain ⟨d, _, hd, _, _, c, _, hc, k, hk, ht⟩ := h
  exact exists_reading (yearFirst?_isPlain hd) (strictClock?_nanos_lt hc) (offset?_eq_some hk).1 ht

theorem exists_reading_of_unzoned? (h : unzoned? s = some t) : ∃ r : Reading, r.instant = t := by
  simp only [unzoned?, Option.bind_eq_bind, Option.bind_eq_some_iff, Prod.exists] at h
  obtain ⟨d, _, hd, s, _, h⟩ := h
  split at h
  · simp at h
  · simp only [Option.bind_eq_some_iff, Prod.exists] at h
    obtain ⟨c, _, hc, h⟩ := h
    split at h
    · exact exists_reading (yearFirst?_isPlain hd) (looseClock?_nanos_lt hc) isOffset_zero h
    · simp at h

theorem exists_reading_of_wholeDay? {o : Option (Day × List Char)}
    (ho : ∀ d rest, o = some (d, rest) → d.IsPlain) (h : wholeDay? o = some t) :
    ∃ r : Reading, r.instant = t := by
  unfold wholeDay? at h
  split at h
  · rename_i d
    have hmidnight : instant? d ⟨0, 0, 0, 0⟩ 0 = some (.ofDay d) := by
      simp [instant?, Clock.isValid, Clock.secondOfDay, Clock.leapNanos, Instant.ofDay]
    rw [← Option.some.inj h]
    exact exists_reading (ho d [] rfl) (by decide) isOffset_zero hmidnight
  · simp at h

/-- Only days in years of four digits and times on a clock are read. -/
theorem exists_reading_of_date? (h : date? s = some t) : ∃ r : Reading, r.instant = t := by
  simp only [date?, Option.orElse_eq_orElse, Option.orElse_eq_or, Option.or_eq_some_iff] at h
  rcases h with hzoned | ⟨-, hunzoned | ⟨-, hdashes | ⟨-, hmonth | ⟨-, hslashes⟩⟩⟩⟩
  · exact exists_reading_of_zoned? hzoned
  · exact exists_reading_of_unzoned? hunzoned
  · exact exists_reading_of_wholeDay? (fun _ _ => yearFirst?_isPlain) hdashes
  · exact exists_reading_of_wholeDay? (fun _ _ => monthFirst?_isPlain) hmonth
  · exact exists_reading_of_wholeDay? (fun _ _ => yearFirst?_isPlain) hslashes

/-- What a date is shown as is read as that date without its fraction of a second, which is shown
as the date is. -/
theorem date?_text_of_date? (h : date? s = some t) :
    date? (Value.date t).text.toList = some t.whole ∧
      (Value.date t.whole).text = (Value.date t).text ∧
      t.whole.offset = t.offset ∧ t.whole.seconds = t.seconds ∧
      t.whole.second = t.second ∧ t.whole.fraction = 0 := by
  obtain ⟨r, rfl⟩ := exists_reading_of_date? h
  have hsecond : r.instant.whole.second = r.instant.second := by
    rw [r.whole_instant, Reading.second_instant, Reading.second_instant]
    rfl
  have hfraction : r.instant.whole.fraction = 0 := by
    rw [Instant.fraction, Instant.whole]
    split <;> simp
  refine ⟨?_, ?_, rfl, rfl, hsecond, hfraction⟩
  · rw [r.whole_instant]
    exact r.date?_render_instant
  · rw [r.whole_instant]
    exact r.render_whole

/-- A leap second in the first minute of year 0, on a clock a day ahead, which is in year -1 of
universal time. -/
theorem date?_text_of_date?_year_zero :
    date? "0000-01-01T00:00:60.75+23:59".toList =
        some ⟨-62167305481, 1750000000, 86340⟩ ∧
      date? (Value.date ⟨-62167305481, 1750000000, 86340⟩).text.toList =
        some ⟨-62167305481, 1000000000, 86340⟩ := by
  have h : date? "0000-01-01T00:00:60.75+23:59".toList =
      some ⟨-62167305481, 1750000000, 86340⟩ := by decide
  exact ⟨h, (date?_text_of_date? h).1⟩

end LispCalc.Calendar
