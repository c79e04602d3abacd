import Mathlib.Data.Nat.Digits.Defs
import LispCalc.Numeral

namespace LispCalc.Numeral

def lowerDigits : List Char := "0123456789abcdef".toList

def upperDigits : List Char := "0123456789ABCDEF".toList

def IsDigit (radix : Nat) (c : Char) (d : Nat) : Prop :=
  d < radix ∧ (lowerDigits[d]? = some c ∨ upperDigits[d]? = some c)

/-- Digits in a row, each of which may have one underscore before it. -/
inductive DigitRow (radix : Nat) : List Char → List Nat → Prop where
  | nil : DigitRow radix [] []
  | plain {c : Char} {d : Nat} {s : List Char} {ds : List Nat} : IsDigit radix c d →
      DigitRow radix s ds → DigitRow radix (c :: s) (d :: ds)
  | marked {c : Char} {d : Nat} {s : List Char} {ds : List Nat} : IsDigit radix c d →
      DigitRow radix s ds → DigitRow radix ('_' :: c :: s) (d :: ds)

/-- A numeral without a sign, with its radix and digits. -/
inductive Unsigned : List Char → (radix : Nat) → List Nat → Prop where
  | hexadecimal {x : Char} {s : List Char} {ds : List Nat} : x = 'x' ∨ x = 'X' → ds ≠ [] →
      DigitRow 16 s ds → Unsigned ('0' :: x :: s) 16 ds
  | binary {x : Char} {s : List Char} {ds : List Nat} : x = 'b' ∨ x = 'B' → ds ≠ [] →
      DigitRow 2 s ds → Unsigned ('0' :: x :: s) 2 ds
  | octal {x : Char} {s : List Char} {ds : List Nat} : x = 'o' ∨ x = 'O' → ds ≠ [] →
      DigitRow 8 s ds → Unsigned ('0' :: x :: s) 8 ds
  | legacyOctal {s : List Char} {ds : List Nat} : DigitRow 8 s ds → Unsigned ('0' :: s) 8 ds
  | decimal {c : Char} {d : Nat} {s : List Char} {ds : List Nat} : IsDigit 10 c d → d ≠ 0 →
      DigitRow 10 s ds → Unsigned (c :: s) 10 (d :: ds)

inductive IsSign : List Char → Int → Prop where
  | missing : IsSign [] 1
  | plus : IsSign ['+'] 1
  | minus : IsSign ['-'] (-1)

/-- The number that digits stand for, the first of them the greatest. -/
def ofDigits (radix : Nat) (ds : List Nat) : Nat := Nat.ofDigits radix ds.reverse

/-- A text that spells an integer. -/
def Spells (s : List Char) (n : Int) : Prop :=
  ∃ sign k r radix ds, IsSign sign k ∧ Unsigned r radix ds ∧ s = sign ++ r ∧
    n = k * ofDigits radix ds

variable {c : Char} {d m n radix : Nat} {s r sign : List Char} {ds : List Nat} {k v : Int}

theorem digit?_lowerDigits : ∀ d < 16, (lowerDigits[d]?).all (digit? · == some d) = true := by
  decide

theorem digit?_upperDigits : ∀ d < 16, (upperDigits[d]?).all (digit? · == some d) = true := by
  decide

theorem mem_digits_of_digit? (h : digit? c = some d) :
    lowerDigits[d]? = some c ∨ upperDigits[d]? = some c := by
  have hdigit : ∀ i < 10, lowerDigits[i]? = some (Char.ofNat (48 + i)) := by decide
  have hlower : ∀ i < 16, 10 ≤ i → lowerDigits[i]? = some (Char.ofNat (87 + i)) := by decide
  have hupper : ∀ i < 16, 10 ≤ i → upperDigits[i]? = some (Char.ofNat (55 + i)) := by decide
  have heq {a : Nat} (ha : a ≤ c.toNat) (hd : c.toNat - a = d) : Char.ofNat (a + d) = c := by
    rw [← hd, Nat.add_sub_cancel' ha, Char.ofNat_toNat]
  have hbetween {a b : Char} (hc : (a ≤ c && c ≤ b) = true) :
      a.toNat ≤ c.toNat ∧ c.toNat ≤ b.toNat := by
    rw [Bool.and_eq_true, decide_eq_true_eq, decide_eq_true_eq] at hc
    exact hc
  unfold digit? at h
  split at h
  · rename_i hc
    obtain ⟨hlo, hhi⟩ := Char.isDigit_iff_toNat.mp hc
    simp only [Char.reduceToNat, Option.some.injEq] at hlo hhi h
    left
    rw [hdigit d (by omega), heq hlo h]
  · split at h
    · rename_i hc
      obtain ⟨hlo, hhi⟩ := hbetween hc
      simp only [Char.reduceToNat, Option.some.injEq] at hlo hhi h
      left
      rw [hlower d (by omega) (by omega), heq (by omega) h]
    · split at h
      · rename_i hc
        obtain ⟨hlo, hhi⟩ := hbetween hc
        simp only [Char.reduceToNat, Option.some.injEq] at hlo hhi h
        right
        rw [hupper d (by omega) (by omega), heq (by omega) h]
      · simp at h

theorem digit?_eq_some_iff :
    digit? c = some d ↔ lowerDigits[d]? = some c ∨ upperDigits[d]? = some c := by
  have hlength : lowerDigits.length = 16 ∧ upperDigits.length = 16 := by decide
  refine ⟨mem_digits_of_digit?, ?_⟩
  rintro (h | h)
  · obtain ⟨hd, _⟩ := List.getElem?_eq_some_iff.mp h
    have hall := digit?_lowerDigits d (by omega)
    rwa [h, Option.all_some, beq_iff_eq] at hall
  · obtain ⟨hd, _⟩ := List.getElem?_eq_some_iff.mp h
    have hall := digit?_upperDigits d (by omega)
    rwa [h, Option.all_some, beq_iff_eq] at hall

theorem digitIn?_eq_some_iff : digitIn? radix c = some d ↔ IsDigit radix c d := by
  rw [digitIn?, Option.filter_eq_some_iff, digit?_eq_some_iff, IsDigit, decide_eq_true_iff,
    and_comm]

theorem IsDigit.toNat_sub (h : IsDigit radix c d) (hc : c.isDigit = true) : c.toNat - 48 = d := by
  have hdigit := digit?_eq_some_iff.mpr h.2
  rw [digit?, if_pos hc] at hdigit
  exact Option.some.inj hdigit

theorem IsDigit.isDigit (h : IsDigit radix c d) (hradix : radix ≤ 10) : c.isDigit = true := by
  have hlower : ∀ i < 10, (lowerDigits[i]?).all Char.isDigit = true := by decide
  have hupper : ∀ i < 10, (upperDigits[i]?).all Char.isDigit = true := by decide
  obtain ⟨hd, h | h⟩ := h
  · have hall := hlower d (by omega)
    rwa [h] at hall
  · have hall := hupper d (by omega)
    rwa [h] at hall

theorem isDigit_ten_iff : IsDigit 10 c d ↔ c.isDigit = true ∧ c.toNat - 48 = d := by
  constructor
  · intro h
    exact ⟨h.isDigit le_rfl, h.toNat_sub (h.isDigit le_rfl)⟩
  · rintro ⟨hc, rfl⟩
    obtain ⟨hlo, hhi⟩ := Char.isDigit_iff_toNat.mp hc
    simp only [Char.reduceToNat] at hlo hhi
    refine ⟨by omega, digit?_eq_some_iff.mp ?_⟩
    rw [digit?, if_pos hc]

def Fits (v : Int) : Prop := -2 ^ 63 ≤ v ∧ v < 2 ^ 63

instance : DecidablePred Fits := fun _ => inferInstanceAs (Decidable (_ ∧ _))

def radixMarks : List Char := ['x', 'X', 'b', 'B', 'o', 'O']

theorem not_isDigit_mark (hc : c ∈ radixMarks) : ¬ IsDigit 8 c d := by
  have hmarks : radixMarks.all (digitIn? 8 · == none) = true := by decide
  have hnone := List.all_eq_true.mp hmarks c hc
  rw [beq_iff_eq] at hnone
  rw [← digitIn?_eq_some_iff, hnone]
  nofun

theorem not_isDigit_underscore : ¬ IsDigit radix '_' d := by
  rw [← digitIn?_eq_some_iff]
  simp [digitIn?, digit?]

theorem continue?_eq_some_iff :
    continue? radix n s = some m ↔
      ∃ ds, DigitRow radix s ds ∧ ds.foldl (fun n d => radix * n + d) n = m := by
  fun_induction continue? radix n s with
  | case1 n =>
    constructor
    · intro h
      exact ⟨[], .nil, Option.some.inj h⟩
    · rintro ⟨ds, hds, rfl⟩
      cases hds
      rfl
  | case2 n c s ih =>
    rw [Option.bind_eq_some_iff]
    constructor
    · rintro ⟨d, hd, h⟩
      obtain ⟨ds, hds, hm⟩ := (ih d).mp h
      exact ⟨d :: ds, .marked (digitIn?_eq_some_iff.mp hd) hds, hm⟩
    · rintro ⟨ds, hds, hm⟩
      cases hds with
      | plain hd => exact absurd hd not_isDigit_underscore
      | @marked _ d _ ds hd hds => exact ⟨d, digitIn?_eq_some_iff.mpr hd, (ih d).mpr ⟨ds, hds, hm⟩⟩
  | case3 n c s hne ih =>
    rw [Option.bind_eq_some_iff]
    constructor
    · rintro ⟨d, hd, h⟩
      obtain ⟨ds, hds, hm⟩ := (ih d).mp h
      exact ⟨d :: ds, .plain (digitIn?_eq_some_iff.mp hd) hds, hm⟩
    · rintro ⟨ds, hds, hm⟩
      cases hds with
      | @plain _ d _ ds hd hds => exact ⟨d, digitIn?_eq_some_iff.mpr hd, (ih d).mpr ⟨ds, hds, hm⟩⟩
      | marked => exact absurd rfl (hne _ _ rfl)

theorem ofDigits_eq_foldl : ofDigits radix ds = ds.foldl (fun n d => radix * n + d) 0 := by
  rw [ofDigits, Nat.ofDigits_eq_foldr, List.foldr_reverse]
  congr 1
  funext n d
  exact Nat.add_comm _ _

theorem marked?_eq_some_iff :
    marked? radix s = some m ↔ ∃ ds, ds ≠ [] ∧ DigitRow radix s ds ∧ ofDigits radix ds = m := by
  simp only [ofDigits_eq_foldl]
  rw [marked?]
  split
  · rename_i hs
    obtain rfl := List.isEmpty_iff.mp hs
    simp only [reduceCtorEq, false_iff, not_exists, not_and]
    intro ds hne hds
    cases hds
    exact absurd rfl hne
  · rename_i hs
    rw [continue?_eq_some_iff]
    constructor
    · rintro ⟨ds, hds, hm⟩
      refine ⟨ds, ?_, hds, hm⟩
      rintro rfl
      cases hds
      exact hs rfl
    · rintro ⟨ds, _, hds, hm⟩
      exact ⟨ds, hds, hm⟩

theorem magnitude?_eq_some (h : magnitude? s = some m) :
    ∃ radix ds, Unsigned s radix ds ∧ ofDigits radix ds = m := by
  unfold magnitude? at h
  split at h
  · obtain ⟨ds, hne, hds, hm⟩ := marked?_eq_some_iff.mp h
    exact ⟨16, ds, .hexadecimal (.inl rfl) hne hds, hm⟩
  · obtain ⟨ds, hne, hds, hm⟩ := marked?_eq_some_iff.mp h
    exact ⟨16, ds, .hexadecimal (.inr rfl) hne hds, hm⟩
  · obtain ⟨ds, hne, hds, hm⟩ := marked?_eq_some_iff.mp h
    exact ⟨2, ds, .binary (.inl rfl) hne hds, hm⟩
  · obtain ⟨ds, hne, hds, hm⟩ := marked?_eq_some_iff.mp h
    exact ⟨2, ds, .binary (.inr rfl) hne hds, hm⟩
  · obtain ⟨ds, hne, hds, hm⟩ := marked?_eq_some_iff.mp h
    exact ⟨8, ds, .octal (.inl rfl) hne hds, hm⟩
  · obtain ⟨ds, hne, hds, hm⟩ := marked?_eq_some_iff.mp h
    exact ⟨8, ds, .octal (.inr rfl) hne hds, hm⟩
  · obtain ⟨ds, hds, hm⟩ := continue?_eq_some_iff.mp h
    exact ⟨8, ds, .legacyOctal hds, by rw [ofDigits_eq_foldl, hm]⟩
  · rename_i c r _ _ _ _ _ _ hzero
    split at h
    · rename_i hc
      obtain ⟨ds, hds, hm⟩ := continue?_eq_some_iff.mp h
      have hdigit : IsDigit 10 c (c.toNat - 48) := isDigit_ten_iff.mpr ⟨hc, rfl⟩
      have hne : c.toNat - 48 ≠ 0 := by
        intro h0
        have hlo := (Char.isDigit_iff_toNat.mp hc).1
        simp only [Char.reduceToNat] at hlo
        exact hzero (Char.toNat_inj.mp (show c.toNat = 48 by omega))
      exact ⟨10, _, .decimal hdigit hne hds, by rw [ofDigits_eq_foldl, ← hm]; simp⟩
    · simp at h
  · simp at h

theorem magnitude?_zero (h : ∀ c ∈ radixMarks, s.head? ≠ some c) :
    magnitude? ('0' :: s) = continue? 8 0 s := by
  simp only [radixMarks, List.forall_mem_cons] at h
  rw [magnitude?.eq_def]
  split <;> grind

theorem DigitRow.head_not_mark (h : DigitRow 8 s ds) : ∀ c ∈ radixMarks, s.head? ≠ some c := by
  intro c hm hc
  cases h with
  | nil => simp at hc
  | plain hd =>
    obtain rfl := Option.some.inj hc
    exact not_isDigit_mark hm hd
  | marked =>
    obtain rfl := Option.some.inj hc
    exact absurd hm (by decide)

theorem magnitude?_digit (hc : c.isDigit = true) (h0 : c ≠ '0') :
    magnitude? (c :: s) = continue? 10 (c.toNat - 48) s := by
  rw [magnitude?.eq_def]
  split <;> simp_all

theorem magnitude?_of_unsigned (h : Unsigned s radix ds) :
    magnitude? s = some (ofDigits radix ds) := by
  cases h with
  | hexadecimal hx hne hds =>
    obtain rfl | rfl := hx <;> exact marked?_eq_some_iff.mpr ⟨ds, hne, hds, rfl⟩
  | binary hx hne hds =>
    obtain rfl | rfl := hx <;> exact marked?_eq_some_iff.mpr ⟨ds, hne, hds, rfl⟩
  | octal hx hne hds =>
    obtain rfl | rfl := hx <;> exact marked?_eq_some_iff.mpr ⟨ds, hne, hds, rfl⟩
  | legacyOctal hds =>
    rw [magnitude?_zero hds.head_not_mark]
    exact continue?_eq_some_iff.mpr ⟨_, hds, ofDigits_eq_foldl.symm⟩
  | decimal hd hne hds =>
    obtain ⟨hc, rfl⟩ := isDigit_ten_iff.mp hd
    rw [magnitude?_digit hc (by rintro rfl; exact hne rfl)]
    refine continue?_eq_some_iff.mpr ⟨_, hds, ?_⟩
    rw [ofDigits_eq_foldl]
    simp

theorem Unsigned.exists_cons (h : Unsigned r radix ds) : ∃ c t, r = c :: t ∧ c.isDigit = true := by
  cases h with
  | decimal hd => exact ⟨_, _, rfl, (isDigit_ten_iff.mp hd).1⟩
  | _ => exact ⟨_, _, rfl, rfl⟩

theorem splitSign_digit (hc : c.isDigit = true) : Decimal.splitSign (c :: s) = (false, c :: s) := by
  unfold Decimal.splitSign
  split
  · simp_all
  · simp_all
  · rfl

theorem splitSign_of_unsigned (hk : IsSign sign k) (h : Unsigned r radix ds) :
    Decimal.splitSign (sign ++ r) = (decide (k < 0), r) := by
  cases hk with
  | missing =>
    obtain ⟨c, t, rfl, hc⟩ := h.exists_cons
    exact splitSign_digit hc
  | plus | minus => rfl

theorem value?_eq (s : List Char) :
    value? s = (magnitude? (Decimal.splitSign s).2).map fun n : Nat =>
      if (Decimal.splitSign s).1 then -(n : Int) else n := by
  simp only [value?]
  cases magnitude? (Decimal.splitSign s).2 <;> rfl

theorem value?_of_unsigned (hk : IsSign sign k) (h : Unsigned r radix ds) :
    value? (sign ++ r) = some (k * ofDigits radix ds) := by
  rw [value?_eq, splitSign_of_unsigned hk h, magnitude?_of_unsigned h]
  cases hk <;> simp

theorem spells_of_value? (h : value? s = some v) : Spells s v := by
  rw [value?_eq, Option.map_eq_some_iff] at h
  obtain ⟨n, hn, hv⟩ := h
  obtain ⟨radix, ds, hr, rfl⟩ := magnitude?_eq_some hn
  unfold Decimal.splitSign at hr hv
  split at hr
  · exact ⟨_, _, _, _, _, .minus, hr, rfl, by simpa using hv.symm⟩
  · exact ⟨_, _, _, _, _, .plus, hr, rfl, by simpa using hv.symm⟩
  · exact ⟨_, _, _, _, _, .missing, hr, rfl, by simpa using hv.symm⟩

theorem value?_eq_some_iff : value? s = some v ↔ Spells s v := by
  refine ⟨spells_of_value?, ?_⟩
  rintro ⟨sign, k, r, radix, ds, hk, h, rfl, rfl⟩
  exact value?_of_unsigned hk h

theorem int64?_of_value? (h : value? s = some v) :
    int64? s = if Fits v then some (Int64.ofInt v) else none := by
  have hmin : Int64.minValue.toInt = -2 ^ 63 := by decide
  have hmax : Int64.maxValue.toInt = 2 ^ 63 - 1 := by decide
  rw [int64?, h, hmin, hmax, Option.bind_some]
  refine if_congr ?_ rfl rfl
  rw [Bool.and_eq_true, decide_eq_true_iff, decide_eq_true_iff, Int.le_sub_one_iff, Fits]

theorem int64?_eq_some_iff_value? {n : Int64} : int64? s = some n ↔ value? s = some n.toInt := by
  constructor
  · intro h
    obtain ⟨v, hv, _⟩ := Option.bind_eq_some_iff.mp h
    rw [int64?_of_value? hv] at h
    split at h
    · rename_i hfits
      obtain rfl := Option.some.inj h
      rw [hv, Int64.toInt_ofInt_of_le hfits.1 hfits.2]
    · cases h
  · intro h
    rw [int64?_of_value? h, if_pos ⟨n.le_toInt, n.toInt_lt⟩, Int64.ofInt_toInt]

/-- Exactly the numerals of the grammar whose number has 64 bits are integers, with that number. -/
theorem int64?_eq_some_iff (s : List Char) (n : Int64) :
    int64? s = some n ↔ ∃ v, Spells s v ∧ -2 ^ 63 ≤ v ∧ v < 2 ^ 63 ∧ n.toInt = v := by
  rw [int64?_eq_some_iff_value?, value?_eq_some_iff]
  constructor
  · intro h
    exact ⟨_, h, n.le_toInt, n.toInt_lt, rfl⟩
  · rintro ⟨v, h, _, _, rfl⟩
    exact h

end LispCalc.Numeral
