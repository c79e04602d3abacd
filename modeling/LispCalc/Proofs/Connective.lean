import LispCalc.Proofs.Screening

namespace LispCalc

/-- What an argument of a connective counts as: an integer is true unless it is zero. -/
def Value.truth : Value → Bool
  | bool b => b
  | int n => n != 0
  | _ => false

open Value

variable {acceptable : List Kind} {expected : Arity} {function : String}
  {args xs ys zs vs : List Value} {a b v w : Value} {P : Value → Prop}

theorem ensureKinds_append (args args' : List Value) :
    ensureKinds acceptable [] function (args ++ args') =
      ensureKinds acceptable [] function args >>= fun _ =>
        ensureKinds acceptable [] function args' := by
  induction args with
  | nil => rfl
  | cons v vs ih =>
    rw [List.cons_append, ensureKinds, ensureKinds, ih]
    cases ensureKind acceptable [] function v <;> rfl

theorem ensureKinds_groups (hv : ensureKind acceptable [] function v = .ok ())
    (hw : ensureKind acceptable [] function w = .ok ()) (r r' : Except EvalError Unit) :
    ensureKinds acceptable [] function
      [.ofResult (r.map fun _ => v), .ofResult (r'.map fun _ => w)] = r >>= fun _ => r' := by
  cases r with
  | error e => rfl
  | ok =>
    refine (ensureKinds_cons_of_ok hv).trans ?_
    cases r' with
    | error e => rfl
    | ok => exact ensureKinds_cons_of_ok hw

theorem regroup {run compute : List Value → Value} {least : Nat} (hleast : least ≤ 2)
    (hrun : ∀ args, least ≤ args.length → run args =
      .ofResult ((ensureKinds acceptable [] function args).map fun _ => compute args))
    (hkind : ∀ args, ensureKind acceptable [] function (compute args) = .ok ())
    (hcompute : ∀ xs ys, compute [compute xs, compute ys] = compute (xs ++ ys))
    (hxs : least ≤ xs.length) (hys : least ≤ ys.length) :
    run [run xs, run ys] = run (xs ++ ys) := by
  rw [hrun [_, _] hleast, hrun xs hxs, hrun ys hys, hrun (xs ++ ys) (by simp; omega),
    ensureKinds_append, ensureKinds_groups (hkind xs) (hkind ys)]
  cases ensureKinds acceptable [] function xs with
  | error e => rfl
  | ok =>
    cases ensureKinds acceptable [] function ys with
    | error e => rfl
    | ok => exact hcompute xs ys

theorem Screened.eq_ofResult (h : Screened acceptable expected function args P v)
    (hn : expected.allows args.length = true)
    (hP : ensureKinds acceptable [] function args = .ok () → P v → v = w) :
    v = .ofResult ((ensureKinds acceptable [] function args).map fun _ => w) := by
  cases h with
  | argument hs => rw [hs]; rfl
  | count _ hn' => simp [hn] at hn'
  | computed hs _ hv => rw [hs]; exact hP hs hv

theorem toBool_eq_truth (h : v.kind ∈ booleanKinds) : v.toBool = .ok v.truth := by
  cases v with
  | bool | int => rfl
  | _ => simp [kind, booleanKinds] at h

theorem ensureKinds_of_booleans (function : String) (h : ∀ v ∈ args, v.kind ∈ booleanKinds) :
    ensureKinds booleanKinds [] function args = .ok () :=
  ensureKinds_of_kinds (by decide) function h

theorem foldBools_eq (op : Bool → Bool → Bool) (hn : expected.allows (v :: vs).length = true) :
    foldBools (v :: vs) expected function op =
      .ofResult ((ensureKinds booleanKinds [] function (v :: vs)).map fun _ =>
        .bool ((vs.map truth).foldl op v.truth)) := by
  refine (foldBools_folds (v :: vs) expected function op).eq_ofResult hn fun hs hfold => ?_
  have hk := kind_mem_of_ensureKinds hs (by simp [booleanKinds])
  refine hfold.eq ?_
  rw [List.map_congr_left fun u hu => toBool_eq_truth (hk u hu), List.map_cons, List.map_map]
  rfl

theorem foldl_and (b : Bool) (vs : List Value) :
    (vs.map truth).foldl (· && ·) b = (b && vs.all truth) := by
  induction vs generalizing b with
  | nil => simp
  | cons v vs ih => rw [List.map_cons, List.foldl_cons, ih, List.all_cons, Bool.and_assoc]

theorem foldl_or (b : Bool) (vs : List Value) :
    (vs.map truth).foldl (· || ·) b = (b || vs.any truth) := by
  induction vs generalizing b with
  | nil => simp
  | cons v vs ih => rw [List.map_cons, List.foldl_cons, ih, List.any_cons, Bool.or_assoc]

namespace Builtin

theorem foldBools_and (h : 2 ≤ args.length) :
    foldBools args (.atLeast 2) function (· && ·) =
      .ofResult ((ensureKinds booleanKinds [] function args).map fun _ =>
        .bool (args.all truth)) := by
  cases args with
  | nil => simp at h
  | cons v vs => rw [foldBools_eq _ (by simpa [Arity.allows] using h), foldl_and, List.all_cons]

theorem foldBools_or (h : 2 ≤ args.length) :
    foldBools args (.atLeast 2) function (· || ·) =
      .ofResult ((ensureKinds booleanKinds [] function args).map fun _ =>
        .bool (args.any truth)) := by
  cases args with
  | nil => simp at h
  | cons v vs => rw [foldBools_eq _ (by simpa [Arity.allows] using h), foldl_or, List.any_cons]

theorem runAnd_append (hxs : 2 ≤ xs.length) (hys : 2 ≤ ys.length) :
    runAnd [runAnd xs, runAnd ys] = runAnd (xs ++ ys) :=
  regroup (Nat.le_refl 2) (fun _ => foldBools_and) (fun _ => rfl)
    (fun xs ys => by simp [truth]) hxs hys

theorem runOr_append (hxs : 2 ≤ xs.length) (hys : 2 ≤ ys.length) :
    runOr [runOr xs, runOr ys] = runOr (xs ++ ys) :=
  regroup (Nat.le_refl 2) (fun _ => foldBools_or) (fun _ => rfl)
    (fun xs ys => by simp [truth]) hxs hys

theorem runNot_single (hv : v.kind ∈ booleanKinds) : runNot [v] = .bool (!v.truth) := by
  cases v with
  | bool | int => rfl
  | _ => simp [kind, booleanKinds] at hv

section Booleans

variable (h : ∀ v ∈ args, v.kind ∈ booleanKinds) (hn : 2 ≤ args.length)
include h hn

theorem runAnd_eq_all : runAnd args = .bool (args.all truth) := by
  rw [runAnd, foldBools_and hn, ensureKinds_of_booleans "and" h]
  rfl

theorem runOr_eq_any : runOr args = .bool (args.any truth) := by
  rw [runOr, foldBools_or hn, ensureKinds_of_booleans "or" h]
  rfl

theorem runNand_eq_all : runNand args = .bool (!args.all truth) := by
  rw [runNand, foldBools_and hn, ensureKinds_of_booleans "nand" h]
  rfl

theorem runNor_eq_any : runNor args = .bool (!args.any truth) := by
  rw [runNor, foldBools_or hn, ensureKinds_of_booleans "nor" h]
  rfl

theorem connectives_of_perm (hp : zs.Perm args) :
    runAnd zs = runAnd args ∧ runOr zs = runOr args ∧ runNand zs = runNand args ∧
      runNor zs = runNor args := by
  have hz : ∀ v ∈ zs, v.kind ∈ booleanKinds := fun v hv => h v (hp.mem_iff.mp hv)
  have hnz : 2 ≤ zs.length := hp.length_eq ▸ hn
  have hall : zs.all truth = args.all truth := hp.all_eq
  have hany : zs.any truth = args.any truth := hp.any_eq
  rw [runAnd_eq_all hz hnz, runOr_eq_any hz hnz, runNand_eq_all hz hnz, runNor_eq_any hz hnz,
    runAnd_eq_all h hn, runOr_eq_any h hn, runNand_eq_all h hn, runNor_eq_any h hn, hall, hany]
  exact ⟨rfl, rfl, rfl, rfl⟩

theorem de_morgan :
    runNand args = runOr (args.map fun v => runNot [v]) ∧
      runNor args = runAnd (args.map fun v => runNot [v]) := by
  have hnot : (args.map fun v => runNot [v]) = args.map fun v => .bool (!v.truth) :=
    List.map_congr_left fun v hv => runNot_single (h v hv)
  have hkinds : ∀ v ∈ args.map fun v => Value.bool (!v.truth), v.kind ∈ booleanKinds :=
    List.forall_mem_map.mpr fun _ _ => List.mem_cons_self
  have hlen : 2 ≤ (args.map fun v => Value.bool (!v.truth)).length := by simpa using hn
  rw [hnot, runNand_eq_all h hn, runNor_eq_any h hn, runOr_eq_any hkinds hlen,
    runAnd_eq_all hkinds hlen, List.not_all_eq_any_not, List.not_any_eq_all_not, List.any_map,
    List.all_map]
  exact ⟨rfl, rfl⟩

end Booleans

theorem runXor_pair (ha : a.kind ∈ booleanKinds) (hb : b.kind ∈ booleanKinds) :
    runXor [a, b] = .bool (a.truth != b.truth) := by
  rw [runXor, foldBools_eq _ rfl, ensureKinds_of_booleans "xor" (by simp [ha, hb])]
  rfl

theorem runXnor_pair (ha : a.kind ∈ booleanKinds) (hb : b.kind ∈ booleanKinds) :
    runXnor [a, b] = .bool (a.truth == b.truth) := by
  rw [runXnor, foldBools_eq _ rfl, ensureKinds_of_booleans "xnor" (by simp [ha, hb])]
  rfl

/-- Connectives say whether all or some of their arguments are true, or whether two of them differ.
Any list of arguments can be taken in two groups, also where a group comes to an error. -/
theorem connective_laws (h : ∀ v ∈ args, v.kind ∈ booleanKinds) (hn : 2 ≤ args.length)
    (ha : a.kind ∈ booleanKinds) (hb : b.kind ∈ booleanKinds) (hxs : 2 ≤ xs.length)
    (hys : 2 ≤ ys.length) :
    (runAnd args = .bool (args.all truth) ∧ runOr args = .bool (args.any truth) ∧
      runNand args = runNot [runAnd args] ∧ runNor args = runNot [runOr args]) ∧
    (∀ zs, zs.Perm args → runAnd zs = runAnd args ∧ runOr zs = runOr args ∧
      runNand zs = runNand args ∧ runNor zs = runNor args) ∧
    (runXor [a, b] = .bool (a.truth != b.truth) ∧ runXor [a, b] = runNot [runXnor [a, b]] ∧
      runXor [a, b] = runXor [b, a] ∧ runXnor [a, b] = runXnor [b, a]) ∧
    (runNand args = runOr (args.map fun v => runNot [v]) ∧
      runNor args = runAnd (args.map fun v => runNot [v])) ∧
    runAnd [runAnd xs, runAnd ys] = runAnd (xs ++ ys) ∧
    runOr [runOr xs, runOr ys] = runOr (xs ++ ys) := by
  refine ⟨?_, fun zs hp => connectives_of_perm h hn hp, ?_, de_morgan h hn, runAnd_append hxs hys,
    runOr_append hxs hys⟩
  · rw [runNand_eq_all h hn, runNor_eq_any h hn, runAnd_eq_all h hn, runOr_eq_any h hn]
    exact ⟨rfl, rfl, rfl, rfl⟩
  · rw [runXor_pair ha hb, runXor_pair hb ha, runXnor_pair ha hb, runXnor_pair hb ha]
    exact ⟨rfl, rfl, congrArg Value.bool bne_comm, congrArg Value.bool BEq.comm⟩

/-- Groups with a text and with an error in them. -/
theorem connective_laws_groups :
    runAnd [.bool true, .int 0, .int (-3)] = .bool false ∧
      runNand [.bool true, .int 0, .int (-3)] =
        runOr [runNot [.bool true], runNot [.int 0], runNot [.int (-3)]] ∧
      runXor [.int 2, .bool true] = runNot [runXnor [.int 2, .bool true]] ∧
      runAnd [runAnd [.bool false, .int 1], runAnd [.string "a", .error .divideByZero]] =
        runAnd [.bool false, .int 1, .string "a", .error .divideByZero] := by
  have h : ∀ v ∈ [Value.bool true, .int 0, .int (-3)], v.kind ∈ booleanKinds := by decide
  have ha : (Value.int 2).kind ∈ booleanKinds := by decide
  have hb : (Value.bool true).kind ∈ booleanKinds := by decide
  have hxs : 2 ≤ [Value.bool false, .int 1].length := by decide
  have hys : 2 ≤ [Value.string "a", .error .divideByZero].length := by decide
  obtain ⟨⟨hand, _⟩, _, ⟨_, hxor, _⟩, ⟨hnand, _⟩, hgroups, _⟩ :=
    connective_laws h (by decide) ha hb hxs hys
  exact ⟨hand, hnand, hxor, hgroups⟩

end Builtin

end LispCalc
