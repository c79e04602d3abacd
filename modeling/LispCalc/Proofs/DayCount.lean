import Mathlib.Order.Monotone.Basic
import LispCalc.Calendar.Day

namespace LispCalc.Calendar

variable {d : Day} {y y' n : Int} {lengths : List Nat} {i k start : Nat}

theorem lt_daysBeforeYear_succ (y : Int) : daysBeforeYear y < daysBeforeYear (y + 1) := by
  rw [Day.daysBeforeYear_succ]
  split <;> omega

theorem daysBeforeYear_mono (h : y ≤ y') : daysBeforeYear y ≤ daysBeforeYear y' :=
  monotone_int_of_le_succ (fun y => (lt_daysBeforeYear_succ y).le) h

theorem yearOf_eq (hlo : daysBeforeYear y ≤ n) (hhi : n < daysBeforeYear (y + 1)) :
    Day.yearOf n = y := by
  obtain ⟨hlo', hhi'⟩ := Day.yearOf_spec n
  by_contra hne
  obtain hlt | hlt := lt_or_gt_of_ne hne
  · have hle : daysBeforeYear (Day.yearOf n + 1) ≤ daysBeforeYear y :=
      daysBeforeYear_mono (by omega)
    omega
  · have hle : daysBeforeYear (y + 1) ≤ daysBeforeYear (Day.yearOf n) :=
      daysBeforeYear_mono (by omega)
    omega

theorem locate_take (h : k < lengths.getD i 0) (start : Nat) :
    locate start lengths ((lengths.take i).foldr (· + ·) 0 + k) = (start + i, k + 1) := by
  induction lengths generalizing i start with
  | nil => simp at h
  | cons len lengths ih =>
    cases i with
    | zero =>
      have hlt : k < len := h
      simp [locate, hlt]
    | succ i =>
      rw [List.getD_cons_succ] at h
      have hsub : len + (lengths.take i).foldr (· + ·) 0 + k - len =
          (lengths.take i).foldr (· + ·) 0 + k := by omega
      rw [List.take_succ_cons, List.foldr_cons, locate, if_neg (by omega), hsub, ih h,
        Nat.add_right_comm]
      rfl

theorem take_add_getD_le (lengths : List Nat) (i : Nat) :
    (lengths.take i).foldr (· + ·) 0 + lengths.getD i 0 ≤ lengths.foldr (· + ·) 0 := by
  induction lengths generalizing i with
  | nil => simp
  | cons len lengths ih =>
    cases i with
    | zero => simp
    | succ i =>
      have := ih i
      rw [List.take_succ_cons, List.foldr_cons, List.foldr_cons, List.getD_cons_succ]
      omega

theorem isValid_iff : d.isValid = true ↔ 1 ≤ d.month ∧ 1 ≤ d.day ∧
    d.day ≤ (monthLengths (isLeap d.year)).getD (d.month - 1) 0 := by
  simp [Day.isValid, and_assoc]

theorem getD_monthLengths_le (leap : Bool) (i : Nat) :
    (monthLengths leap).getD i 0 ≤ if i < 12 then 31 else 0 := by
  split
  · rename_i hi
    have hmonths : ∀ leap, ∀ i < 12, (monthLengths leap).getD i 0 ≤ 31 := by decide
    exact hmonths leap i hi
  · rename_i hi
    have hlen : (monthLengths leap).length ≤ i := by simpa [monthLengths] using hi
    simp [List.getD_eq_getElem?_getD, List.getElem?_eq_none hlen]

theorem month_le_of_isValid (h : d.isValid = true) : d.month ≤ 12 ∧ d.day ≤ 31 := by
  obtain ⟨hm, hd, hlen⟩ := isValid_iff.mp h
  have hle := getD_monthLengths_le (isLeap d.year) (d.month - 1)
  split at hle <;> omega

theorem number_add_eq (h : d.isValid = true) :
    d.number + daysBeforeYear 1970 =
      daysBeforeYear d.year + ↑(daysBeforeMonth (isLeap d.year) d.month + (d.day - 1)) := by
  obtain ⟨_, hd, _⟩ := isValid_iff.mp h
  simp only [Day.number]
  omega

theorem yearOf_number (h : d.isValid = true) :
    Day.yearOf (d.number + daysBeforeYear 1970) = d.year := by
  obtain ⟨_, hd, hlen⟩ := isValid_iff.mp h
  have htotal : (monthLengths (isLeap d.year)).foldr (· + ·) 0 =
      if isLeap d.year then 366 else 365 := by
    cases isLeap d.year <;> rfl
  have hle := take_add_getD_le (monthLengths (isLeap d.year)) (d.month - 1)
  rw [← daysBeforeMonth, htotal] at hle
  rw [number_add_eq h]
  refine yearOf_eq (by omega) ?_
  rw [Day.daysBeforeYear_succ]
  by_cases hleap : isLeap d.year = true
  · rw [if_pos hleap] at hle ⊢
    omega
  · rw [if_neg hleap] at hle ⊢
    omega

theorem ofNumber_number (h : d.isValid = true) : Day.ofNumber d.number = d := by
  obtain ⟨hm, hd, hlen⟩ := isValid_iff.mp h
  have hday : (d.number + daysBeforeYear 1970 - daysBeforeYear d.year).toNat =
      daysBeforeMonth (isLeap d.year) d.month + (d.day - 1) := by
    rw [number_add_eq h]
    omega
  have hlocate : locate 1 (monthLengths (isLeap d.year))
      (daysBeforeMonth (isLeap d.year) d.month + (d.day - 1)) = (d.month, d.day) := by
    rw [daysBeforeMonth, locate_take (by omega)]
    simp only [Prod.mk.injEq]
    omega
  simp only [Day.ofNumber, yearOf_number h, hday, hlocate]

end LispCalc.Calendar
