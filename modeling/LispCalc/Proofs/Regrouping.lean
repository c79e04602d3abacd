import LispCalc.Proofs.Screening
import Mathlib.Algebra.BigOperators.Ring.List
import Mathlib.Algebra.Ring.Int.Defs

namespace LispCalc

namespace Value

/-- The integer that an argument of integer arithmetic counts as. -/
def integer : Value → Int
  | int n => n.toInt
  | bool b => if b then 1 else 0
  | _ => 0

/-- The value that computing with 64 bits makes of an integer. -/
def wrapped (n : Int) : Value := int (.ofInt n)

/-- Truth values are zero and one in arithmetic. -/
def IsInteger (v : Value) : Prop := v.kind ∈ booleanKinds

instance : DecidablePred IsInteger := fun v => inferInstanceAs (Decidable (v.kind ∈ booleanKinds))

theorem isInteger_wrapped (n : Int) : (wrapped n).IsInteger := by
  simp [wrapped, IsInteger, kind, booleanKinds]

theorem wrapped_integer (n : Int) : wrapped (wrapped n).integer = wrapped n :=
  congrArg int (Int64.ofInt_toInt _)

theorem wrapped_add_congr {m m' n n' : Int} (hm : wrapped m = wrapped m')
    (hn : wrapped n = wrapped n') : wrapped (m + n) = wrapped (m' + n') := by
  rw [wrapped, wrapped, int.injEq] at *
  rw [Int64.ofInt_add, Int64.ofInt_add, hm, hn]

theorem wrapped_mul_congr {m m' n n' : Int} (hm : wrapped m = wrapped m')
    (hn : wrapped n = wrapped n') : wrapped (m * n) = wrapped (m' * n') := by
  rw [wrapped, wrapped, int.injEq] at *
  rw [Int64.ofInt_mul, Int64.ofInt_mul, hm, hn]

theorem wrapped_sum_congr {xs : List Value} {f g : Value → Int}
    (h : ∀ v ∈ xs, wrapped (f v) = wrapped (g v)) :
    wrapped (xs.map f).sum = wrapped (xs.map g).sum := by
  induction xs with
  | nil => rfl
  | cons x xs ih =>
    rw [List.forall_mem_cons] at h
    rw [List.map_cons, List.map_cons, List.sum_cons, List.sum_cons]
    exact wrapped_add_congr h.1 (ih h.2)

theorem IsInteger.toInt_eq {v : Value} (h : v.IsInteger) : v.toInt = .ok (.ofInt v.integer) := by
  cases v with
  | int n => rw [toInt, integer, Int64.ofInt_toInt]
  | bool b => cases b <;> rfl
  | _ => simp [IsInteger, kind, booleanKinds] at h

end Value

namespace Builtin

open Value

variable {args xs ys : List Value} {a b v : Value} {vs : List Value} {expected : Arity}
  {function : String}

theorem ensureKinds_of_integers (function : String) (h : ∀ v ∈ args, v.IsInteger) :
    ensureKinds numberKinds [] function args = .ok () := by
  have hsub : booleanKinds ⊆ numberKinds := by decide
  exact ensureKinds_of_kinds (by decide) function fun v hv => hsub (h v hv)

theorem not_float_of_integers (h : ∀ v ∈ args, v.IsInteger) : .float ∉ args.map Value.kind := by
  intro hf
  obtain ⟨v, hv, hk⟩ := List.mem_map.mp hf
  have hi := h v hv
  simp [IsInteger, hk, booleanKinds] at hi

/-- Steps that each wrap come to the same as steps that do not, wrapped at the end. -/
theorem foldNumbers_integers {op : Int64 → Int64 → Int64} {exact : Int → Int → Int}
    (hop : ∀ m n, op (.ofInt m) (.ofInt n) = .ofInt (exact m n))
    (floatOp : Float → Float → Float) (h : ∀ u ∈ v :: vs, u.IsInteger)
    (hn : expected.allows (v :: vs).length = true) :
    foldNumbers (v :: vs) expected function op floatOp =
      wrapped ((vs.map integer).foldl exact v.integer) := by
  have hfold := (foldNumbers_folds (v :: vs) expected function op floatOp).property
    (ensureKinds_of_integers function h) hn
  rw [OfNumbers, if_neg (not_float_of_integers h)] at hfold
  have hmap : (v :: vs).map Value.toInt =
      .ok (Int64.ofInt v.integer) :: (vs.map fun u => Int64.ofInt u.integer).map .ok := by
    rw [List.map_congr_left fun u hu => (h u hu).toInt_eq, List.map_map]
    rfl
  rw [hfold.eq hmap, wrapped, List.foldl_map, List.foldl_map]
  exact congrArg _ (List.foldl_hom Int64.ofInt fun m u => hop m u.integer)

theorem runAdd_eq_sum (h : ∀ v ∈ args, v.IsInteger) (hne : args ≠ []) :
    runAdd args = wrapped (args.map integer).sum := by
  obtain ⟨v, vs, rfl⟩ := List.exists_cons_of_ne_nil hne
  have hadd (m n : Int) : Int64.ofInt m + .ofInt n = .ofInt (m + n) := (Int64.ofInt_add m n).symm
  rw [runAdd, foldNumbers_integers hadd _ h (by simp [Arity.allows])]
  simp [List.sum_eq_foldl]

theorem runMul_eq_prod (h : ∀ v ∈ args, v.IsInteger) (hne : args ≠ []) :
    runMul args = wrapped (args.map integer).prod := by
  obtain ⟨v, vs, rfl⟩ := List.exists_cons_of_ne_nil hne
  have hmul (m n : Int) : Int64.ofInt m * .ofInt n = .ofInt (m * n) := (Int64.ofInt_mul m n).symm
  rw [runMul, foldNumbers_integers hmul _ h (by simp [Arity.allows])]
  simp [List.prod_eq_foldl]

theorem runAdd_pair (ha : a.IsInteger) (hb : b.IsInteger) :
    runAdd [a, b] = wrapped (a.integer + b.integer) := by
  rw [runAdd_eq_sum (by simp [ha, hb]) (by simp)]
  simp

theorem runMul_pair (ha : a.IsInteger) (hb : b.IsInteger) :
    runMul [a, b] = wrapped (a.integer * b.integer) := by
  rw [runMul_eq_prod (by simp [ha, hb]) (by simp)]
  simp

theorem promotedKind_of_integers (h : ∀ v ∈ args, v.IsInteger) :
    promotedKind args function = .ok .int := by
  rw [promotedKind_eq, ensureKinds_of_integers function h, greatestKind_int,
    if_neg (not_float_of_integers h)]
  rfl

theorem runSub_pair (ha : a.IsInteger) (hb : b.IsInteger) :
    runSub [a, b] = wrapped (a.integer - b.integer) := by
  have h : ∀ v ∈ [a, b], v.IsInteger := by simp [ha, hb]
  have hsub (m n : Int) : Int64.ofInt m - .ofInt n = .ofInt (m - n) := (Int64.ofInt_sub m n).symm
  rw [runSub, promotedKind_of_integers h]
  exact foldNumbers_integers hsub _ h rfl

theorem runSub_single (h : a.IsInteger) : runSub [a] = wrapped (-a.integer) := by
  have hall : ∀ v ∈ [a], v.IsInteger := by simp [h]
  obtain ⟨n, hn, hv⟩ := (if_neg (not_float_of_integers hall)).mp
    ((unaryNumber_maps [a] "sub" (fun n => -n) (fun x => -x)).property
      (ensureKinds_of_integers "sub" hall) rfl)
  obtain rfl : Int64.ofInt a.integer = n := by simpa [h.toInt_eq] using hn
  rw [runSub, promotedKind_of_integers hall, wrapped, Int64.ofInt_neg]
  exact hv

theorem runAdd_append (hx : ∀ v ∈ xs, v.IsInteger) (hy : ∀ v ∈ ys, v.IsInteger) (hxs : xs ≠ [])
    (hys : ys ≠ []) : runAdd [runAdd xs, runAdd ys] = runAdd (xs ++ ys) := by
  have hall : ∀ v ∈ xs ++ ys, v.IsInteger := List.forall_mem_append.mpr ⟨hx, hy⟩
  rw [runAdd_eq_sum hx hxs, runAdd_eq_sum hy hys, runAdd_eq_sum hall (by simp [hxs]),
    runAdd_pair (isInteger_wrapped _) (isInteger_wrapped _), List.map_append, List.sum_append]
  exact wrapped_add_congr (wrapped_integer _) (wrapped_integer _)

theorem runMul_append (hx : ∀ v ∈ xs, v.IsInteger) (hy : ∀ v ∈ ys, v.IsInteger) (hxs : xs ≠ [])
    (hys : ys ≠ []) : runMul [runMul xs, runMul ys] = runMul (xs ++ ys) := by
  have hall : ∀ v ∈ xs ++ ys, v.IsInteger := List.forall_mem_append.mpr ⟨hx, hy⟩
  rw [runMul_eq_prod hx hxs, runMul_eq_prod hy hys, runMul_eq_prod hall (by simp [hxs]),
    runMul_pair (isInteger_wrapped _) (isInteger_wrapped _), List.map_append, List.prod_append]
  exact wrapped_mul_congr (wrapped_integer _) (wrapped_integer _)

theorem runMul_runAdd (ha : a.IsInteger) (hx : ∀ v ∈ xs, v.IsInteger) (hxs : xs ≠ []) :
    runMul [a, runAdd xs] = runAdd (xs.map fun x => runMul [a, x]) := by
  have hproducts : (xs.map fun x => runMul [a, x]) =
      xs.map fun x => wrapped (a.integer * x.integer) :=
    List.map_congr_left fun x hmem => runMul_pair ha (hx x hmem)
  have hall : ∀ v ∈ xs.map fun x => wrapped (a.integer * x.integer), v.IsInteger :=
    List.forall_mem_map.mpr fun _ _ => isInteger_wrapped _
  rw [hproducts, runAdd_eq_sum hx hxs, runMul_pair ha (isInteger_wrapped _),
    runAdd_eq_sum hall (by simpa using hxs), List.map_map]
  calc wrapped (a.integer * (wrapped (xs.map integer).sum).integer)
      = wrapped (a.integer * (xs.map integer).sum) := wrapped_mul_congr rfl (wrapped_integer _)
    _ = wrapped (xs.map fun x => a.integer * x.integer).sum := by rw [List.sum_map_mul_left]
    _ = wrapped (xs.map (integer ∘ fun x => wrapped (a.integer * x.integer))).sum :=
      wrapped_sum_congr fun x _ => (wrapped_integer _).symm

theorem runSub_eq_runAdd (ha : a.IsInteger) (hb : b.IsInteger) :
    runSub [a, b] = runAdd [a, runSub [b]] := by
  rw [runSub_pair ha hb, runSub_single hb, runAdd_pair ha (isInteger_wrapped _),
    Int.sub_eq_add_neg]
  exact wrapped_add_congr rfl (wrapped_integer _).symm

/-- Arithmetic on truth values and integers is that of the integers with every result wrapped to 64
bits, in whatever order and groups it is done. -/
theorem wrapping_ring_laws (hx : ∀ v ∈ xs, v.IsInteger) (hy : ∀ v ∈ ys, v.IsInteger)
    (hxs : xs ≠ []) (hys : ys ≠ []) (ha : a.IsInteger) (hb : b.IsInteger) :
    runAdd xs = .int (.ofInt (xs.map integer).sum) ∧
      runMul xs = .int (.ofInt (xs.map integer).prod) ∧
      (∀ zs, zs.Perm xs → runAdd zs = runAdd xs ∧ runMul zs = runMul xs) ∧
      runAdd [runAdd xs, runAdd ys] = runAdd (xs ++ ys) ∧
      runMul [runMul xs, runMul ys] = runMul (xs ++ ys) ∧
      runMul [a, runAdd xs] = runAdd (xs.map fun x => runMul [a, x]) ∧
      runSub [a, b] = runAdd [a, runSub [b]] := by
  refine ⟨runAdd_eq_sum hx hxs, runMul_eq_prod hx hxs, fun zs hp => ?_,
    runAdd_append hx hy hxs hys, runMul_append hx hy hxs hys, runMul_runAdd ha hx hxs,
    runSub_eq_runAdd ha hb⟩
  have hz : ∀ v ∈ zs, v.IsInteger := fun v hv => hx v (hp.mem_iff.mp hv)
  have hzs : zs ≠ [] := fun hn => hxs (List.nil_perm.mp (hn ▸ hp))
  rw [runAdd_eq_sum hz hzs, runMul_eq_prod hz hzs, runAdd_eq_sum hx hxs, runMul_eq_prod hx hxs,
    (hp.map integer).sum_eq, (hp.map integer).prod_eq]
  exact ⟨rfl, rfl⟩

/-- Sums and differences that leave the 64 bits on the way come back to the same. -/
theorem wrapping_ring_laws_extremes :
    (∀ v ∈ [.bool true, .int Int64.maxValue], IsInteger v) ∧
      (∀ v ∈ [.int Int64.minValue, .int (-1)], IsInteger v) ∧
      runAdd [.bool true, .int Int64.maxValue] = .int Int64.minValue ∧
      runAdd [runAdd [.bool true, .int Int64.maxValue], runAdd [.int Int64.minValue, .int (-1)]] =
        runAdd [.bool true, .int Int64.maxValue, .int Int64.minValue, .int (-1)] ∧
      runSub [.bool true, .int Int64.minValue] =
        runAdd [.bool true, runSub [.int Int64.minValue]] := by
  have hx : ∀ v ∈ [.bool true, .int Int64.maxValue], IsInteger v := by decide
  have hy : ∀ v ∈ [.int Int64.minValue, .int (-1)], IsInteger v := by decide
  have ha : IsInteger (.bool true) := by decide
  have hb : IsInteger (.int Int64.minValue) := by decide
  obtain ⟨hsum, _, _, hadd, _, _, hsub⟩ :=
    wrapping_ring_laws hx hy (List.cons_ne_nil _ _) (List.cons_ne_nil _ _) ha hb
  exact ⟨hx, hy, hsum, hadd, hsub⟩

theorem foldStrings_eq (function : String) (h : xs ≠ []) :
    foldStrings xs (.atLeast 1) function (· ++ ·) =
      .ofResult ((ensureAllValid xs).map fun _ => .string (String.join (xs.map Value.text))) := by
  obtain ⟨v, vs, rfl⟩ := List.exists_cons_of_ne_nil h
  have hn : ensureArity (v :: vs) (.atLeast 1) function = .ok () := by
    simp [ensureArity, Arity.allows]
  rw [foldStrings, hn]
  cases ensureAllValid (v :: vs) with
  | error e => rfl
  | ok =>
    have hjoin : (vs.map Value.text).foldl (· ++ ·) v.text =
        String.join ((v :: vs).map Value.text) := by
      simp [String.join]
    exact congrArg Value.string hjoin

theorem runConcat_eq (h : xs ≠ []) :
    runConcat xs =
      .ofResult ((ensureAllValid xs).map fun _ => .string (String.join (xs.map Value.text))) :=
  foldStrings_eq "concat" h

/-- Values can be joined in groups, each of which may come to an error. -/
theorem runConcat_append (hxs : xs ≠ []) (hys : ys ≠ []) :
    runConcat (xs ++ ys) = runConcat [runConcat xs, runConcat ys] ∧
      ((∀ v ∈ xs, v.IsValid) → runConcat xs = .string (String.join (xs.map Value.text))) := by
  refine ⟨?_, fun h => ?_⟩
  · rw [runConcat_eq hxs, runConcat_eq hys, runConcat_eq (by simp [hxs]), ensureAllValid_append]
    cases ensureAllValid xs with
    | error e => rfl
    | ok =>
      cases ensureAllValid ys with
      | error e => rfl
      | ok =>
        rw [List.map_append]
        exact congrArg Value.string String.join_append
  · rw [runConcat_eq hxs, ensureAllValid_eq_ok_iff.mpr h]
    rfl

/-- A name that stands for nothing is an error of its group, in front of the error behind it. -/
theorem runConcat_append_name :
    runConcat [.null, .bool true, .identifier "x", .error .divideByZero] =
        runConcat [runConcat [.null, .bool true],
          runConcat [.identifier "x", .error .divideByZero]] ∧
      runConcat [.null, .bool true] = .string "NILtrue" := by
  obtain ⟨happ, htext⟩ := runConcat_append
    (List.cons_ne_nil .null [.bool true])
    (List.cons_ne_nil (.identifier "x") [.error .divideByZero])
  exact ⟨happ, htext (by simp [Value.IsValid, Value.kind])⟩

end Builtin

end LispCalc
