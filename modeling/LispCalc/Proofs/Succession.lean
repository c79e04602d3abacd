import Mathlib.Data.Int.Init
import LispCalc.Proofs.DayCount

namespace LispCalc.Calendar

def monthLength (year : Int) (month : Nat) : Nat :=
  if month = 2 then if isLeap year then 29 else 28
  else if month ∈ [4, 6, 9, 11] then 30
  else 31

namespace Day

variable {d d' : Day} {n : Int}

def IsReal (d : Day) : Prop :=
  (1 ≤ d.month ∧ d.month ≤ 12) ∧ 1 ≤ d.day ∧ d.day ≤ monthLength d.year d.month

def next (d : Day) : Day :=
  if d.day < monthLength d.year d.month then { d with day := d.day + 1 }
  else if d.month < 12 then ⟨d.year, d.month + 1, 1⟩
  else ⟨d.year + 1, 1, 1⟩

def epoch : Day := ⟨1970, 1, 1⟩

/-- A day that is some number of days away from the first of January 1970, counted one by one,
onwards or back. -/
inductive Counted : Int → Day → Prop where
  | epoch : Counted 0 epoch
  | next {n : Int} {d : Day} : Counted n d → Counted (n + 1) d.next
  | previous {n : Int} {d : Day} : d.IsReal → Counted (n + 1) d.next → Counted n d

theorem getD_monthLengths (year : Int) {month : Nat} (hlo : 1 ≤ month) (hhi : month ≤ 12) :
    (monthLengths (isLeap year)).getD (month - 1) 0 = monthLength year month := by
  have hmonths : ∀ leap, ∀ i < 12, (monthLengths leap).getD i 0 =
      if i + 1 = 2 then if leap then 29 else 28 else if i + 1 ∈ [4, 6, 9, 11] then 30 else 31 := by
    decide
  have hmonth := hmonths (isLeap year) (month - 1) (by omega)
  rwa [Nat.sub_add_cancel hlo] at hmonth

theorem isValid_iff_isReal : d.isValid = true ↔ d.IsReal := by
  constructor
  · intro h
    obtain ⟨hm, hd, hlen⟩ := isValid_iff.mp h
    have hm' := (month_le_of_isValid h).1
    rw [getD_monthLengths d.year hm hm'] at hlen
    exact ⟨⟨hm, hm'⟩, hd, hlen⟩
  · rintro ⟨⟨hm, hm'⟩, hd, hlen⟩
    rw [← getD_monthLengths d.year hm hm'] at hlen
    exact isValid_iff.mpr ⟨hm, hd, hlen⟩

theorem number_inj (h : d.IsReal) (h' : d'.IsReal) (heq : d.number = d'.number) : d = d' := by
  rw [← ofNumber_number (isValid_iff_isReal.mpr h), heq,
    ofNumber_number (isValid_iff_isReal.mpr h')]

theorem monthLength_pos (year : Int) (month : Nat) : 1 ≤ monthLength year month := by
  unfold monthLength
  split
  · split <;> omega
  · split <;> omega

theorem monthLength_december (year : Int) : monthLength year 12 = 31 := by
  simp [monthLength]

theorem isReal_next (h : d.IsReal) : d.next.IsReal := by
  obtain ⟨⟨hm, hm'⟩, hd, hlen⟩ := h
  rw [next]
  split
  · rename_i hlt
    exact ⟨⟨hm, hm'⟩, Nat.le_add_left 1 d.day, hlt⟩
  · split
    · rename_i hlt
      exact ⟨⟨Nat.le_add_left 1 d.month, hlt⟩, le_rfl, monthLength_pos d.year (d.month + 1)⟩
    · exact ⟨⟨le_rfl, (by decide : 1 ≤ 12)⟩, le_rfl, monthLength_pos (d.year + 1) 1⟩

theorem daysBeforeMonth_succ (year : Int) {month : Nat} (hlo : 1 ≤ month) (hhi : month < 12) :
    daysBeforeMonth (isLeap year) (month + 1) =
      daysBeforeMonth (isLeap year) month + monthLength year month := by
  have hmonths : ∀ leap, ∀ m < 12, 1 ≤ m → daysBeforeMonth leap (m + 1) =
      daysBeforeMonth leap m + (monthLengths leap).getD (m - 1) 0 := by
    decide
  rw [hmonths (isLeap year) month hhi hlo, getD_monthLengths year hlo (by omega)]

theorem daysBeforeYear_succ_eq (year : Int) :
    daysBeforeYear (year + 1) = daysBeforeYear year + (daysBeforeMonth (isLeap year) 12 + 31) := by
  have hdecember : ∀ leap, daysBeforeMonth leap 12 + 31 = if leap then 366 else 365 := by decide
  have hyear := hdecember (isLeap year)
  rw [daysBeforeYear_succ]
  by_cases hleap : isLeap year = true
  · rw [if_pos hleap] at hyear ⊢
    omega
  · rw [if_neg hleap] at hyear ⊢
    omega

theorem number_next (h : d.IsReal) : d.next.number = d.number + 1 := by
  obtain ⟨⟨hm, hm'⟩, hd, hlen⟩ := h
  rw [next]
  split
  · simp only [number]
    omega
  · split
    · have hmonth := daysBeforeMonth_succ d.year hm ‹_›
      simp only [number]
      omega
    · have hmonth : d.month = 12 := by omega
      have hday : d.day = 31 := by
        have hdecember := monthLength_december d.year
        rw [← hmonth] at hdecember
        omega
      have hjanuary : ∀ leap, daysBeforeMonth leap 1 = 0 := by decide
      have hyear := daysBeforeYear_succ_eq d.year
      simp only [number, hmonth, hday, hjanuary]
      omega

theorem exists_next_eq (h : d.IsReal) : ∃ d' : Day, d'.IsReal ∧ d'.next = d := by
  obtain ⟨year, month, day⟩ := d
  obtain ⟨⟨hm, hm'⟩, hd, hlen⟩ := h
  dsimp only at hm hm' hd hlen
  obtain rfl | ⟨day, rfl, hday⟩ : day = 1 ∨ ∃ n, day = n + 1 ∧ 1 ≤ n := by
    obtain rfl | hlt := hd.eq_or_lt
    · exact .inl rfl
    · exact .inr ⟨day - 1, by omega, by omega⟩
  · obtain rfl | ⟨month, rfl, hmonth⟩ : month = 1 ∨ ∃ n, month = n + 1 ∧ 1 ≤ n := by
      obtain rfl | hlt := hm.eq_or_lt
      · exact .inl rfl
      · exact .inr ⟨month - 1, by omega, by omega⟩
    · have hdecember := monthLength_december (year - 1)
      refine ⟨⟨year - 1, 12, 31⟩,
        ⟨(by decide : 1 ≤ 12 ∧ 12 ≤ 12), (by decide : 1 ≤ 31), hdecember.ge⟩, ?_⟩
      simp [next, hdecember]
    · refine ⟨⟨year, month, monthLength year month⟩, ⟨⟨hmonth, by dsimp only; omega⟩,
        monthLength_pos year month, le_rfl⟩, ?_⟩
      simp only [next, Nat.lt_irrefl, if_false]
      exact if_pos (by omega)
  · refine ⟨⟨year, month, day⟩, ⟨⟨hm, hm'⟩, hday, Nat.le_of_succ_le hlen⟩, ?_⟩
    exact if_pos hlen

theorem Counted.isReal_and_eq (h : Counted n d) : d.IsReal ∧ n = d.number := by
  induction h with
  | epoch => exact ⟨isValid_iff_isReal.mp (by decide), by decide⟩
  | next _ ih =>
    obtain ⟨hreal, rfl⟩ := ih
    exact ⟨isReal_next hreal, (number_next hreal).symm⟩
  | previous hreal _ ih =>
    refine ⟨hreal, ?_⟩
    have hn := ih.2
    rw [number_next hreal] at hn
    omega

theorem counted_of_number (h : d.IsReal) (hn : d.number = n) : Counted n d := by
  induction n using Int.induction_on generalizing d with
  | zero =>
    have hepoch : epoch.IsReal ∧ epoch.number = 0 := ⟨isValid_iff_isReal.mp (by decide), by decide⟩
    rw [number_inj h hepoch.1 (hn.trans hepoch.2.symm)]
    exact .epoch
  | succ n ih =>
    obtain ⟨d, hd, rfl⟩ := exists_next_eq h
    rw [number_next hd] at hn
    exact .next (ih hd (by omega))
  | pred n ih =>
    refine .previous h ?_
    rw [Int.sub_add_cancel]
    exact ih (isReal_next h) (by rw [number_next h]; omega)

/-- The number of a day is what counting day by day comes to. -/
theorem counted_iff : Counted n d ↔ d.IsReal ∧ n = d.number := by
  refine ⟨Counted.isReal_and_eq, ?_⟩
  rintro ⟨h, rfl⟩
  exact counted_of_number h rfl

end Day

end LispCalc.Calendar
