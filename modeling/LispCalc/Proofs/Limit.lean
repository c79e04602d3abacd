import LispCalc.Proofs.Failure
import LispCalc.Proofs.ResultKind

namespace LispCalc.Expr

variable {hosts : Hosts} {p : SlashPolicy} {source : List Char} {s : Scope} {depth : Nat}
  {e : Expr} {es : List Expr}

mutual

/-- The value of an expression, however deep lists stand inside one another. -/
def evaluateFreely (hosts : Hosts) (s : Scope) : Expr → Value
  | null => .null
  | atom _ v =>
    match v with
    | .identifier name => s.resolve name
    | v => v
  | list [] => .null
  | list (head :: args) =>
    call hosts head (evaluateAllFreely hosts s args) (evaluateFreely hosts s head)

def evaluateAllFreely (hosts : Hosts) (s : Scope) : List Expr → List Value
  | [] => []
  | e :: es => evaluateFreely hosts (e.argumentScope s) e :: evaluateAllFreely hosts s es

end

theorem evaluateAllFreely_eq_map (hosts : Hosts) (s : Scope) (es : List Expr) :
    evaluateAllFreely hosts s es = es.map fun e => evaluateFreely hosts (e.argumentScope s) e := by
  induction es with
  | nil => rfl
  | cons e es ih => rw [evaluateAllFreely, ih, List.map_cons]

/-- Lists that do not reach the limit are evaluated as if there were none, since the depth and the
nesting of what is left to evaluate never add up to more. -/
theorem evaluateAt_eq_evaluateFreely (h : depth + e.nesting ≤ nestingLimit) :
    evaluateAt hosts s depth e = evaluateFreely hosts s e := by
  induction e generalizing s depth with
  | null => rfl
  | atom raw v => cases v <;> rfl
  | list es ih =>
    have hchild : ∀ e ∈ es, depth + 1 + e.nesting ≤ nestingLimit := by
      intro e he
      have := nesting_lt_of_mem he
      omega
    have hd : depth ≠ nestingLimit := by
      rw [nesting] at h
      omega
    cases es with
    | nil => rw [evaluateAt, evaluateFreely, if_neg hd]
    | cons head args =>
      rw [List.forall_mem_cons] at ih hchild
      rw [evaluateAt_cons hosts s hd, evaluateFreely, evaluateAllFreely_eq_map, ih.1 hchild.1]
      congr 1
      apply List.map_congr_left
      intro a ha
      exact ih.2 a ha (hchild.2 a ha)

namespace Site

def IsCutOff (x : Site) : Prop := x.depth = nestingLimit ∧ ∃ es, x.expr = list es

variable {x y : Site}

theorem Enters.depth_add_nesting (h : Enters hosts x y)
    (hx : x.depth + x.expr.nesting ≤ nestingLimit) :
    y.depth + y.expr.nesting ≤ nestingLimit := by
  cases h with
  | @head s depth head args =>
    have hlt : head.nesting < (list (head :: args)).nesting := nesting_lt_of_mem List.mem_cons_self
    simp only at hx ⊢
    omega
  | @argument s depth head a args f _ _ ha =>
    have hlt : a.nesting < (list (head :: args)).nesting :=
      nesting_lt_of_mem (List.mem_cons_of_mem _ ha)
    simp only at hx ⊢
    omega

theorem not_isCutOff (h : x.depth + x.expr.nesting ≤ nestingLimit) : ¬ x.IsCutOff := by
  rintro ⟨hd, es, he⟩
  rw [he, nesting] at h
  omega

theorem not_isCutOff_of_enters (h : Relation.ReflTransGen (Enters hosts) x y)
    (hx : x.depth + x.expr.nesting ≤ nestingLimit) : ¬ y.IsCutOff := by
  induction h using Relation.ReflTransGen.head_induction_on with
  | refl => exact not_isCutOff hx
  | head hxz _ ih => exact ih (hxz.depth_add_nesting hx)

end Site

/-- The reader and the evaluator draw one limit. A tree that is no deeper than the reader allows, as
is every tree that it reads, has the value that it has without a limit, and no list that its
evaluation reaches is cut off. -/
theorem evaluate_eq_evaluateFreely
    (h : e.nesting ≤ nestingLimit ∨ ∃ p source, parse p source = .ok e) :
    e.evaluate hosts s = e.evaluateFreely hosts s ∧
      ∀ x, Relation.ReflTransGen (Site.Enters hosts) ⟨s, 0, e⟩ x → ¬ x.IsCutOff := by
  have hn : 0 + e.nesting ≤ nestingLimit := by
    obtain hn | ⟨p, source, hp⟩ := h
    · omega
    · have := (literal_of_parse hp).2
      omega
  exact ⟨evaluateAt_eq_evaluateFreely hn, fun x hx => Site.not_isCutOff_of_enters hx hn⟩

def tower : Nat → Expr
  | 0 => named "concat"
  | n + 1 => if n % 2 = 0 then list [tower n, named "x"] else list [named "++", tower n]

theorem nesting_tower (n : Nat) : (tower n).nesting = n := by
  induction n with
  | zero => rfl
  | succ n ih =>
    rw [tower]
    split <;> simp [nesting, nestingAll, named, ih]

/-- As deep as it goes, and from a text. -/
theorem evaluate_tower :
    ((tower nestingLimit).evaluate .none .root = (tower nestingLimit).evaluateFreely .none .root ∧
      ∀ x, Relation.ReflTransGen (Site.Enters .none) ⟨.root, 0, tower nestingLimit⟩ x →
        ¬ x.IsCutOff) ∧
    ((tower 4).evaluate .none .root = (tower 4).evaluateFreely .none .root ∧
      ∀ x, Relation.ReflTransGen (Site.Enters .none) ⟨.root, 0, tower 4⟩ x → ¬ x.IsCutOff) := by
  have hdeep : (tower nestingLimit).nesting ≤ nestingLimit := (nesting_tower _).le
  have hread : parse .joins "(++ ((++ (concat x)) x))".toList = .ok (tower 4) := by cbv
  exact ⟨evaluate_eq_evaluateFreely (.inl hdeep), evaluate_eq_evaluateFreely (.inr ⟨_, _, hread⟩)⟩

end LispCalc.Expr
