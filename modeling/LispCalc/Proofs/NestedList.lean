import Mathlib
import LispCalc.Proofs.Environment

namespace LispCalc.Expr

variable {hosts : Hosts} {s t : Scope} {depth depth' : Nat} {e head : Expr} {args : List Expr}
  {f : Function}

theorem evaluateAt_depth (h : depth + e.nesting ≤ nestingLimit)
    (h' : depth' + e.nesting ≤ nestingLimit) :
    evaluateAt hosts s depth e = evaluateAt hosts s depth' e := by
  rw [evaluateAt_eq_evaluateIn, evaluateAt_eq_evaluateIn]
  exact evaluateIn_depth h h'

/-- No default function that the expression itself looks up is hidden by the scope. -/
def KeepsDefaults (s : Scope) (e : Expr) : Prop :=
  ∀ name ∈ e.ownNames, ∀ b, Library.defaultTable.get? name = some b →
    s.lookup? name = some (.function ⟨name, b⟩)

theorem KeepsDefaults.lookup?_child (h : e.KeepsDefaults s) :
    ∀ name ∈ e.ownNames, s.child.lookup? name = s.lookup? name := by
  intro name hname
  rw [Scope.lookup?_child, Env.nested]
  cases hb : Library.defaultTable.get? name with
  | none => rfl
  | some b => exact (h name hname b hb).symm

theorem KeepsDefaults.evaluate_child (h : e.KeepsDefaults s) :
    e.evaluate hosts s.child = e.evaluate hosts s := by
  rw [evaluate, evaluate, evaluateAt_eq_evaluateIn, evaluateAt_eq_evaluateIn]
  refine evaluateIn_congr h.lookup?_child fun name _ => ?_
  rw [Scope.lookup?_child, Env.nested_nested]

/-- A function is applied to the values of the arguments, each list among them evaluated in a child
scope. That scope gives it the value it has in the scope around, unless one of the names in it hides
a default function there. -/
theorem evaluate_list_of_function (hn : (list (head :: args)).nesting ≤ nestingLimit)
    (hf : head.evaluate hosts s = .function f) :
    (list (head :: args)).evaluate hosts s =
        f.builtin.run hosts (args.map fun a => a.evaluate hosts (a.argumentScope s)) ∧
      ∀ es, list es ∈ args → (list es).KeepsDefaults s →
        (list es).evaluate hosts s.child = (list es).evaluate hosts s := by
  refine ⟨?_, fun es _ h => h.evaluate_child⟩
  rw [nesting_list_le_iff, List.forall_mem_cons] at hn
  obtain ⟨_, hhead, hargs⟩ := hn
  have hd : (0 : Nat) ≠ nestingLimit := by decide
  have hv : evaluateAt hosts s (0 + 1) head = .function f := by
    rw [← hf]
    exact evaluateAt_depth (by omega) (by omega)
  have hm : args.map (fun a => evaluateAt hosts (a.argumentScope s) (0 + 1) a) =
      args.map fun a => a.evaluate hosts (a.argumentScope s) := by
    apply List.map_congr_left
    intro a ha
    have := hargs a ha
    exact evaluateAt_depth (by omega) (by omega)
  rw [evaluate, evaluateAt_cons hosts s hd, hv, hm]
  rfl

def hidingProduct : Scope := (Scope.root.bind "x" (.int 3)).bind "*" (.int 0)

def productInSum : List Expr := [named "+", named "x", list [named "*", named "x", named "x"]]

theorem productInSum_keepsDefaults : (list productInSum).KeepsDefaults hidingProduct := by
  intro name hname b hb
  have hname : name = "+" ∨ name = "x" := by
    simpa [productInSum, named, ownNames, ownNamesOfArgs] using hname
  obtain rfl | rfl := hname
  · have hadd : Library.defaultTable.get? "+" = some .add := by cbv
    rw [hadd, Option.some.injEq] at hb
    subst hb
    cbv
  · have hnone : Library.defaultTable.get? "x" = none := by cbv
    simp [hnone] at hb

/-- The product is hidden, but the sum that it stands in does not look it up itself. -/
theorem evaluate_concat_productInSum :
    (list [named "concat", list productInSum]).nesting ≤ nestingLimit ∧
      (named "concat").evaluate .none hidingProduct = .function ⟨"concat", .concat⟩ ∧
      list productInSum ∈ [list productInSum] ∧
      (list productInSum).KeepsDefaults hidingProduct ∧
      (list [named "concat", list productInSum]).evaluate .none hidingProduct =
        Builtin.run .none .concat [(list productInSum).evaluate .none hidingProduct.child] ∧
      (list productInSum).evaluate .none hidingProduct.child =
        (list productInSum).evaluate .none hidingProduct := by
  have hn : (list [named "concat", list productInSum]).nesting ≤ nestingLimit := by decide
  have hf : (named "concat").evaluate .none hidingProduct = .function ⟨"concat", .concat⟩ := by
    cbv
  have hm : list productInSum ∈ [list productInSum] := List.mem_cons_self
  obtain ⟨hrun, hsame⟩ := evaluate_list_of_function hn hf
  exact ⟨hn, hf, hm, productInSum_keepsDefaults, hrun,
    hsame productInSum hm productInSum_keepsDefaults⟩

/-- Where a scope hides a default function, a list among the arguments still sees it. -/
theorem nested_list_ignores_binding :
    ¬ ∀ (hosts : Hosts) (s : Scope) (head : Expr) (args : List Expr) (f : Function),
      (list (head :: args)).nesting ≤ nestingLimit → head.evaluate hosts s = .function f →
        (list (head :: args)).evaluate hosts s =
          f.builtin.run hosts (args.map fun a => a.evaluate hosts s) := by
  intro h
  have hn : (list [named "concat", list [named "*", named "x"]]).nesting ≤ nestingLimit := by decide
  have hf : (named "concat").evaluate .none hidingProduct = .function ⟨"concat", .concat⟩ := by
    cbv
  have hl : (list [named "concat", list [named "*", named "x"]]).evaluate .none hidingProduct =
      .string "3" := by
    cbv
  have hr : Builtin.run .none .concat
      [(list [named "*", named "x"]).evaluate .none hidingProduct] =
      .error (.functionNameNotFound "*") := by
    cbv
  have he := h .none hidingProduct (named "concat") [list [named "*", named "x"]] _ hn hf
  rw [hl, List.map_singleton, hr] at he
  cases he

end LispCalc.Expr
