import Mathlib
import LispCalc.Proofs.Bundled

namespace LispCalc.Expr

variable {hosts : Hosts} {s : Scope} {depth : Nat} {e : Expr} {es : List Expr}

theorem call_of_error {head : Expr} {args : List Value} {f : Value} (hf : f.isError = true) :
    (call hosts head args f).isError = true := by
  cases f with
  | error e => cases e <;> rfl
  | _ => simp [Value.isError] at hf

/-- A place in an evaluation: an expression, its scope, and the number of lists around it. -/
structure Site where
  scope : Scope
  depth : Nat
  expr : Expr

namespace Site

def value (hosts : Hosts) (x : Site) : Value := x.expr.evaluateAt hosts x.scope x.depth

/-- Where an evaluation goes on to from a list within the limit: to its head, and if that is a
function, to the arguments. -/
inductive Enters (hosts : Hosts) : Site → Site → Prop where
  | head {s : Scope} {depth : Nat} {head : Expr} {args : List Expr} : depth ≠ nestingLimit →
      Enters hosts ⟨s, depth, list (head :: args)⟩ ⟨s, depth + 1, head⟩
  | argument {s : Scope} {depth : Nat} {head a : Expr} {args : List Expr} {f : Function} :
      depth ≠ nestingLimit → evaluateAt hosts s (depth + 1) head = .function f → a ∈ args →
      Enters hosts ⟨s, depth, list (head :: args)⟩ ⟨a.argumentScope s, depth + 1, a⟩

def IsBundled (x : Site) : Prop := x.scope.IsBundled ∧ x.expr.IsBundled

variable {x y : Site}

theorem Enters.isBundled (h : Enters hosts x y) (hx : x.IsBundled) : y.IsBundled := by
  cases h with
  | head => exact ⟨hx.1, isBundled_list.mp hx.2 _ List.mem_cons_self⟩
  | argument _ _ ha =>
    exact ⟨hx.1.argumentScope _, isBundled_list.mp hx.2 _ (List.mem_cons_of_mem _ ha)⟩

theorem Enters.isError (h : Enters hosts x y) (hx : x.IsBundled)
    (hy : (y.value hosts).isError = true) : (x.value hosts).isError = true := by
  cases h with
  | head hd =>
    rw [value, evaluateAt_cons hosts _ hd]
    exact call_of_error hy
  | @argument s depth head a args f hd hf ha =>
    have hhead : (evaluateAt hosts s (depth + 1) head).isBundled = true :=
      evaluateAt_isBundled hosts _ hx.1 (isBundled_list.mp hx.2 head List.mem_cons_self)
    have hne : evaluateAt hosts s (depth + 1) head ≠ .error .nestingTooDeep := by simp [hf]
    rw [value, evaluateAt_cons hosts _ hd]
    exact (call_answers hosts head _ hhead hne).isError_of_mem (List.mem_map_of_mem ha) hy

theorem isError_of_enters (h : Relation.ReflTransGen (Enters hosts) x y) (hx : x.IsBundled)
    (hy : (y.value hosts).isError = true) : (x.value hosts).isError = true := by
  induction h using Relation.ReflTransGen.head_induction_on with
  | refl => exact hy
  | head hxz _ ih => exact hxz.isError hx (ih (hxz.isBundled hx))

end Site

/-- An error anywhere that an evaluation reaches makes its result an error, as long as neither the
scope nor the expression has a function in it that is not bundled. -/
theorem isError_of_reached {x : Site} (hs : s.IsBundled) (he : e.IsBundled)
    (hx : Relation.ReflTransGen (Site.Enters hosts) ⟨s, 0, e⟩ x)
    (h : (x.value hosts).isError = true) : (e.evaluate hosts s).isError = true := by
  have hstart : Site.IsBundled ⟨s, 0, e⟩ := ⟨hs, he⟩
  exact Site.isError_of_enters hx hstart h

/-- An embedding program with one function, which tells whether there is an error among its
arguments. -/
def failureTest : Hosts := fun _ args => .bool (args.any Value.isError)

/-- The function itself, not a name for it, stands at the head. -/
def failedX : Expr := list [atom "failed".toList (.function ⟨"failed", .host "failed"⟩), named "x"]

theorem evaluate_failedX : failedX.evaluate failureTest .root = .bool true := by cbv

/-- A function that an expression brings along from the embedding program may take an error and give
another value. -/
theorem reached_error_taken_by_host :
    ¬ ∀ (hosts : Hosts) (s : Scope) (e : Expr) (x : Site), s.IsBundled →
      Relation.ReflTransGen (Site.Enters hosts) ⟨s, 0, e⟩ x → (x.value hosts).isError = true →
        (e.evaluate hosts s).isError = true := by
  intro h
  have hx : Site.Enters failureTest ⟨.root, 0, failedX⟩ ⟨.root, 1, named "x"⟩ :=
    .argument (a := named "x") (by decide) rfl List.mem_cons_self
  have herror : (Site.value failureTest ⟨.root, 1, named "x"⟩).isError = true := by cbv
  have hlist := h failureTest .root failedX _ Scope.root_isBundled (.single hx) herror
  rw [evaluate_failedX] at hlist
  cases hlist

def errorScope : Scope :=
  (Scope.root.bind "times" (.function ⟨"times", .mul⟩)).bind "x" (.error .divideByZero)

def productOfX : List Expr := [named "times", atom ['2'] (.int 2), named "x"]

def textOfProduct : List Expr := [named "concat", list productOfX]

theorem errorScope_isBundled : errorScope.IsBundled :=
  (Scope.root_isBundled.bind "times" rfl).bind "x" rfl

theorem textOfProduct_isBundled : (list textOfProduct).IsBundled := by
  have hv : (list textOfProduct).values =
      [.identifier "concat", .identifier "times", .int 2, .identifier "x"] := rfl
  intro v h
  rw [hv] at h
  simp only [List.mem_cons, List.not_mem_nil, or_false] at h
  obtain rfl | rfl | rfl | rfl := h <;> rfl

/-- Joining texts takes any kind of value, but not the error two lists further in. -/
theorem isError_of_reached_textOfProduct :
    errorScope.IsBundled ∧ (list textOfProduct).IsBundled ∧
      Relation.ReflTransGen (Site.Enters .none) ⟨errorScope, 0, list textOfProduct⟩
        ⟨errorScope.child, 2, named "x"⟩ ∧
      (Site.value .none ⟨errorScope.child, 2, named "x"⟩).isError = true ∧
      ((list textOfProduct).evaluate .none errorScope).isError = true := by
  have hconcat : evaluateAt .none errorScope 1 (named "concat") =
      .function ⟨"concat", .concat⟩ := by
    cbv
  have htimes : evaluateAt .none errorScope.child 2 (named "times") =
      .function ⟨"times", .mul⟩ := by
    cbv
  have houter : Site.Enters .none ⟨errorScope, 0, list textOfProduct⟩
      ⟨errorScope.child, 1, list productOfX⟩ :=
    .argument (a := list productOfX) (by decide) hconcat List.mem_cons_self
  have hinner : Site.Enters .none ⟨errorScope.child, 1, list productOfX⟩
      ⟨errorScope.child, 2, named "x"⟩ :=
    .argument (a := named "x") (by decide) htimes (by simp)
  have hx : Relation.ReflTransGen (Site.Enters .none) ⟨errorScope, 0, list textOfProduct⟩
      ⟨errorScope.child, 2, named "x"⟩ :=
    .tail (.single houter) hinner
  have h : (Site.value .none ⟨errorScope.child, 2, named "x"⟩).isError = true := by
    cbv
  exact ⟨errorScope_isBundled, textOfProduct_isBundled, hx, h,
    isError_of_reached errorScope_isBundled textOfProduct_isBundled hx h⟩

end LispCalc.Expr
