import LispCalc.Error
import LispCalc.Expr.Basic

namespace LispCalc.Expr

@[induction_eliminator]
theorem inductionOn {motive : Expr → Prop} (null : motive null)
    (atom : ∀ raw v, motive (atom raw v))
    (list : ∀ es, (∀ e ∈ es, motive e) → motive (list es)) (e : Expr) : motive e := by
  refine Expr.rec (motive_2 := fun es => ∀ e ∈ es, motive e) null atom list ?_ ?_ e
  · simp
  · intro e es he hes
    rw [List.forall_mem_cons]
    exact ⟨he, hes⟩

theorem row_inductionOn {motive : List Expr → Prop} (nil : motive [])
    (null : ∀ es, motive es → motive (null :: es))
    (atom : ∀ raw v es, motive es → motive (atom raw v :: es))
    (list : ∀ fs es, motive fs → motive es → motive (list fs :: es)) (es : List Expr) :
    motive es := by
  refine Expr.rec_1 (motive_1 := fun e => ∀ es, motive es → motive (e :: es)) (motive_2 := motive)
    null atom ?_ nil ?_ es
  · intro fs hfs es hes
    exact list fs es hfs hes
  · intro e es he hes
    exact he es hes

def named (name : String) : Expr := atom name.toList (.identifier name)

mutual

def nesting : Expr → Nat
  | list es => nestingAll es + 1
  | _ => 0

def nestingAll : List Expr → Nat
  | [] => 0
  | e :: es => max e.nesting (nestingAll es)

end

theorem nestingAll_le_iff {es : List Expr} {n : Nat} :
    nestingAll es ≤ n ↔ ∀ e ∈ es, e.nesting ≤ n := by
  induction es with
  | nil => simp [nestingAll]
  | cons e es ih => rw [nestingAll, Nat.max_le, ih, List.forall_mem_cons]

theorem nesting_list_le_iff {es : List Expr} {n : Nat} :
    (list es).nesting ≤ n ↔ 0 < n ∧ ∀ e ∈ es, e.nesting < n := by
  rw [nesting]
  constructor
  · intro h
    have hes := nestingAll_le_iff.mp (Nat.le_refl (nestingAll es))
    refine ⟨by omega, fun e he => ?_⟩
    have := hes e he
    omega
  · rintro ⟨hn, h⟩
    have hes : nestingAll es ≤ n - 1 := nestingAll_le_iff.mpr fun e he => by
      have := h e he
      omega
    omega

theorem nesting_lt_of_mem {e : Expr} {es : List Expr} (he : e ∈ es) :
    e.nesting < (list es).nesting :=
  (nesting_list_le_iff.mp (Nat.le_refl _)).2 e he

theorem nesting_list_reverse (es : List Expr) : (list es.reverse).nesting = (list es).nesting := by
  have h (n : Nat) : (list es.reverse).nesting ≤ n ↔ (list es).nesting ≤ n := by
    simp [nesting_list_le_iff]
  exact Nat.le_antisymm ((h _).mpr (Nat.le_refl _)) ((h _).mp (Nat.le_refl _))

theorem nesting_list_cons (e : Expr) (es : List Expr) :
    (list (e :: es)).nesting = max (e.nesting + 1) (list es).nesting := by
  simp only [nesting, nestingAll]
  omega

end LispCalc.Expr
