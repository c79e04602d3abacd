namespace LispCalc.Calendar

/-- A day of the proleptic Gregorian calendar. -/
structure Day where
  year : Int
  month : Nat
  day : Nat
deriving DecidableEq

def isLeap (year : Int) : Bool := year % 4 == 0 && (year % 100 != 0 || year % 400 == 0)

def monthLengths (leap : Bool) : List Nat :=
  [31, if leap then 29 else 28, 31, 30, 31, 30, 31, 31, 30, 31, 30, 31]

def daysBeforeYear (year : Int) : Int :=
  365 * year + (year + 3) / 4 - (year + 99) / 100 + (year + 399) / 400

def daysBeforeMonth (leap : Bool) (month : Nat) : Nat :=
  ((monthLengths leap).take (month - 1)).foldr (· + ·) 0

/-- The month, counted on from `month`, and the day in it, for a day counted from 0 in the months of
the given lengths. -/
def locate (month : Nat) : List Nat → Nat → Nat × Nat
  | [], n => (month, n + 1)
  | len :: rest, n => if n < len then (month, n + 1) else locate (month + 1) rest (n - len)

namespace Day

def isValid (d : Day) : Bool :=
  1 ≤ d.month && 1 ≤ d.day && d.day ≤ (monthLengths (isLeap d.year)).getD (d.month - 1) 0

/-- Days from the first of January 1970. -/
def number (d : Day) : Int :=
  daysBeforeYear d.year + daysBeforeMonth (isLeap d.year) d.month + d.day - 1 - daysBeforeYear 1970

/-- The year that a day counted from the start of year 0 falls in. The mean length of a year leads
to that year or a neighbour of it. -/
def yearOf (n : Int) : Int :=
  let y := 400 * n / 146097
  if n < daysBeforeYear y then y - 1
  else if daysBeforeYear (y + 1) ≤ n then y + 1
  else y

def ofNumber (n : Int) : Day :=
  let n := n + daysBeforeYear 1970
  let y := yearOf n
  let (m, d) := locate 1 (monthLengths (isLeap y)) (n - daysBeforeYear y).toNat
  ⟨y, m, d⟩

theorem daysBeforeYear_succ (y : Int) :
    daysBeforeYear (y + 1) = daysBeforeYear y + (if isLeap y then 366 else 365) := by
  simp only [daysBeforeYear, isLeap, Bool.and_eq_true, Bool.or_eq_true, beq_iff_eq, bne_iff_ne]
  split <;> omega

/-- Four centuries have 146097 days, and no year starts far from its share of them. -/
theorem daysBeforeYear_near (y : Int) :
    146097 * y - 288 ≤ 400 * daysBeforeYear y ∧ 400 * daysBeforeYear y ≤ 146097 * y + 591 := by
  obtain ⟨a, r, rfl, h0, h1⟩ : ∃ a r : Int, y = 400 * a + r ∧ 0 ≤ r ∧ r < 400 :=
    ⟨y / 400, y % 400, by omega, by omega, by omega⟩
  have h4 : (400 * a + r + 3) / 4 = 100 * a + (r + 3) / 4 := by omega
  have h100 : (400 * a + r + 99) / 100 = 4 * a + (r + 99) / 100 := by omega
  have h400 : (400 * a + r + 399) / 400 = a + (r + 399) / 400 := by omega
  have hr : (r + 99) / 100 = 0 ∨ (r + 99) / 100 = 1 ∨ (r + 99) / 100 = 2 ∨
      (r + 99) / 100 = 3 ∨ (r + 99) / 100 = 4 := by omega
  simp only [daysBeforeYear, h4, h100, h400]
  rcases hr with hr | hr | hr | hr | hr <;> rw [hr] <;> omega

theorem yearOf_spec (n : Int) :
    daysBeforeYear (yearOf n) ≤ n ∧ n < daysBeforeYear (yearOf n + 1) := by
  have hy : 146097 * (400 * n / 146097) ≤ 400 * n ∧
      400 * n < 146097 * (400 * n / 146097) + 146097 := by omega
  have h0 := daysBeforeYear_near (400 * n / 146097 - 1)
  have h2 := daysBeforeYear_near (400 * n / 146097 + 1 + 1)
  simp only [yearOf]
  generalize 400 * n / 146097 = y at *
  split
  · rw [Int.sub_add_cancel]; omega
  · split <;> omega

end Day

end LispCalc.Calendar
