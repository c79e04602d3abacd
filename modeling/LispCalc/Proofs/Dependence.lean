import LispCalc.Proofs.Failure
import LispCalc.Proofs.Injection
import LispCalc.Proofs.Substitution

namespace LispCalc

/-- What stands for something in one environment stands for the same in another. -/
def Env.Le (env env' : Env) : Prop := ∀ name v, env name = some v → env' name = some v

namespace Env

variable {env env' : Env} {name : String}

theorem le_set (h : env name = none) (v : Value) : env.Le (env.set name v) := by
  intro n u hu
  rw [set]
  split
  · rename_i hn
    rw [hn, h] at hu
    cases hu
  · exact hu

theorem Le.nested (h : env.Le env') : env.nested.Le env'.nested := by
  intro name v hv
  rw [Env.nested] at hv ⊢
  cases hb : Library.defaultTable.get? name with
  | some b => rwa [hb] at hv
  | none =>
    rw [hb] at hv
    exact h name v hv

end Env

namespace Scope

/-- One change to a scope, or to the chain around it, that touches none of the names. -/
inductive Bypasses (names : List String) : Scope → Scope → Prop where
  | bind {s : Scope} {name : String} (v : Value) : name ∉ names →
      Bypasses names s (s.bind name v)
  | unbind {s : Scope} {name : String} : name ∉ names → Bypasses names s (s.unbind name).2
  | define {s : Scope} {name : String} (b : Builtin) : name ∉ names →
      Bypasses names s (s.define name b)
  | register {s : Scope} {l : Library} : (∀ f ∈ l.functions, f.1 ∉ names) →
      Bypasses names s (s.register l)
  | setValue {s : Scope} (v : Value) : Bypasses names s (s.setValue v)
  | enclose {c : Frame} {inner added outer : List Frame} :
      (∀ f ∈ added, ∀ name ∈ names, f.lookup? name = none) →
      Bypasses names ⟨c, inner ++ outer⟩ ⟨c, inner ++ (added ++ outer)⟩

variable {s t : Scope} {name : String} {names : List String}

theorem Bypasses.lookup?_eq (h : Bypasses names s t) (hn : name ∈ names) :
    s.lookup? name = t.lookup? name := by
  cases h with
  | bind v hx => rw [lookup?_bind, Env.set, if_neg (ne_of_mem_of_not_mem hn hx)]
  | unbind hx => rw [lookup?_unbind (ne_of_mem_of_not_mem hn hx)]
  | define b hx =>
    apply lookup?_congr_current
    rw [Frame.lookup?, Frame.lookup?, Table.get?_insert, if_neg (ne_of_mem_of_not_mem hn hx)]
  | @register _ l hl =>
    have hnone : l.functions.lookup name = none :=
      Library.lookup_functions_eq_none_iff.mpr fun f hf =>
        (ne_of_mem_of_not_mem hn (hl f hf)).symm
    apply lookup?_congr_current
    rw [Frame.lookup?, Frame.lookup?, Library.get?_inject, hnone, Option.none_or]
  | setValue v => rfl
  | @enclose c inner added outer ha =>
    have hnone : added.findSome? (·.lookup? name) = none :=
      List.findSome?_eq_none_iff.mpr fun f hf => ha f hf name hn
    simp only [lookup?, List.findSome?_cons, List.findSome?_append, hnone, Option.none_or]

theorem lookup?_eq_of_bypasses (h : Relation.ReflTransGen (Bypasses names) s t)
    (hn : name ∈ names) : s.lookup? name = t.lookup? name := by
  induction h with
  | refl => rfl
  | tail _ hstep ih => exact ih.trans (hstep.lookup?_eq hn)

end Scope

namespace Expr

variable {hosts : Hosts} {s t : Scope} {depth : Nat} {name : String} {v : Value} {e : Expr}

theorem evaluate_congr (h : ∀ name ∈ e.names, s.lookup? name = t.lookup? name) :
    e.evaluate hosts s = e.evaluate hosts t := by
  rw [evaluate, evaluate, evaluateAt_eq_evaluateIn, evaluateAt_eq_evaluateIn]
  refine evaluateIn_congr (fun n hn => h n (mem_names_of_mem_ownNames hn)) fun n hn => ?_
  rw [Env.nested, Env.nested, h n hn]

/-- Two scopes that agree on the names of an expression give it one value, an error with its message
included. So nothing that is bound, taken away, defined, registered, left as a value or put around
a scope without touching those names makes a difference. -/
theorem evaluate_eq_of_agree (hosts : Hosts) (e : Expr) :
    (∀ s t : Scope, (∀ name ∈ e.names, s.lookup? name = t.lookup? name) →
      e.evaluate hosts s = e.evaluate hosts t) ∧
    ∀ s t : Scope, Relation.ReflTransGen (Scope.Bypasses e.names) s t →
      e.evaluate hosts s = e.evaluate hosts t := by
  refine ⟨fun s t h => evaluate_congr h, fun s t h => ?_⟩
  apply evaluate_congr
  intro name hn
  exact Scope.lookup?_eq_of_bypasses h hn

def productScope : Scope := Scope.root.bind "x" (.int 3)

def farScope : Scope :=
  ((productScope.bind "y" (.error .divideByZero)).define "and" .or).enter (.ofFunctions .empty)

def textOfDouble : Expr :=
  list [named "concat", named "x", list [named "*", named "x", atom ['2'] (.int 2)]]

theorem evaluate_eq_of_agree_textOfDouble :
    (∀ name ∈ textOfDouble.names, productScope.lookup? name = farScope.lookup? name) ∧
      textOfDouble.evaluate .none productScope = textOfDouble.evaluate .none farScope ∧
      Relation.ReflTransGen (Scope.Bypasses textOfDouble.names) productScope
        ((productScope.register .logical).bind "y" (.error .divideByZero)) ∧
      textOfDouble.evaluate .none productScope = textOfDouble.evaluate .none
        ((productScope.register .logical).bind "y" (.error .divideByZero)) := by
  have hnames : textOfDouble.names = ["concat", "x", "*", "x"] := rfl
  have hagree : ∀ name ∈ textOfDouble.names,
      productScope.lookup? name = farScope.lookup? name := by
    rw [hnames]
    simp only [List.forall_mem_cons]
    exact ⟨by cbv, by cbv, by cbv, by cbv, by simp⟩
  have hbypass : Relation.ReflTransGen (Scope.Bypasses textOfDouble.names) productScope
      ((productScope.register .logical).bind "y" (.error .divideByZero)) := by
    rw [hnames]
    exact .tail (.single (.register (by decide))) (.bind _ (by decide))
  obtain ⟨hlookup, hchanges⟩ := evaluate_eq_of_agree .none textOfDouble
  exact ⟨hagree, hlookup _ _ hagree, hbypass, hchanges _ _ hbypass⟩

theorem le_lookup?_argumentScope (h : Env.Le s.lookup? t.lookup?) (a : Expr) :
    Env.Le (a.argumentScope s).lookup? (a.argumentScope t).lookup? := by
  cases a with
  | null | atom => exact h
  | list =>
    rw [argumentScope, argumentScope, Scope.lookup?_child, Scope.lookup?_child]
    exact h.nested

theorem exists_function_of_call {head : Expr} {args : List Value} {f : Value}
    (h : (call hosts head args f).isError = false) : ∃ g, f = .function g := by
  unfold call at h
  split at h
  · exact ⟨_, rfl⟩
  · simp [Value.isError] at h
  · simp [Value.isError] at h

/-- A value that is no error has not come from a name that stood for nothing, so that whatever else
such names come to stand for leaves it as it is. -/
theorem evaluateAt_of_le (hs : s.IsBundled) (he : e.IsBundled)
    (hst : Env.Le s.lookup? t.lookup?) (h : (evaluateAt hosts s depth e).isError = false) :
    evaluateAt hosts t depth e = evaluateAt hosts s depth e := by
  induction e generalizing s t depth with
  | null => rfl
  | atom raw v =>
    cases v with
    | identifier name =>
      rw [evaluateAt, Scope.resolve] at h ⊢
      cases hv : s.lookup? name with
      | none => simp [hv, Value.isError] at h
      | some v => rw [evaluateAt, Scope.resolve, hv, hst name v hv]
    | _ => rfl
  | list es ih =>
    by_cases hd : depth = nestingLimit
    · subst hd
      rw [evaluateAt_limit, evaluateAt_limit]
    cases es with
    | nil => rfl
    | cons head args =>
      -- an error of the head or of an argument would be an error of the list
      have part {x : Site} (hx : Site.Enters hosts ⟨s, depth, list (head :: args)⟩ x) :
          (x.value hosts).isError = false := by
        by_contra hn
        have hlist := hx.isError ⟨hs, he⟩ (by simpa using hn)
        simp [Site.value, h] at hlist
      rw [List.forall_mem_cons] at ih
      rw [isBundled_list, List.forall_mem_cons] at he
      rw [evaluateAt_cons hosts s hd] at h
      obtain ⟨f, hf⟩ := exists_function_of_call h
      rw [evaluateAt_cons hosts s hd, evaluateAt_cons hosts t hd,
        ih.1 hs he.1 hst (part (.head hd))]
      congr 1
      apply List.map_congr_left
      intro a ha
      exact ih.2 a ha (hs.argumentScope a) (he.2 a ha) (le_lookup?_argumentScope hst a)
        (part (.argument hd hf ha))

/-- A binding for a name that stood for nothing changes no value but an error, as long as neither
the scope nor the expression has a function in it that is not bundled. -/
theorem evaluate_bind_of_ne_error (hs : s.IsBundled) (he : e.IsBundled)
    (hname : s.lookup? name = none) (h : (e.evaluate hosts s).isError = false) (v : Value) :
    e.evaluate hosts (s.bind name v) = e.evaluate hosts s := by
  refine evaluateAt_of_le hs he ?_ h
  rw [Scope.lookup?_bind]
  exact Env.le_set hname v

/-- A function of the embedding program that an expression brings along can tell a name that stands
for nothing from one that is bound. -/
theorem binding_noticed_by_host :
    ¬ ∀ (hosts : Hosts) (s : Scope) (e : Expr) (name : String) (v : Value), s.IsBundled →
      s.lookup? name = none → (e.evaluate hosts s).isError = false →
        e.evaluate hosts (s.bind name v) = e.evaluate hosts s := by
  intro h
  have hname : Scope.root.lookup? "x" = none := by cbv
  have hbound : failedX.evaluate failureTest (Scope.root.bind "x" (.int 5)) = .bool false := by cbv
  have herror : (failedX.evaluate failureTest .root).isError = false := by
    rw [evaluate_failedX]
    rfl
  have hsame := h failureTest .root failedX "x" (.int 5) Scope.root_isBundled hname herror
  rw [evaluate_failedX, hbound] at hsame
  cases hsame

def textScope : Scope := .ofFunctions (Library.string.inject .empty)

def textOfSum : Expr :=
  list [named "concat", list [named "+", atom ['1'] (.int 1), atom ['2'] (.int 2)], named "++"]

theorem evaluate_bind_of_ne_error_textOfSum :
    textScope.IsBundled ∧ textOfSum.IsBundled ∧ textScope.lookup? "+" = none ∧
      (textOfSum.evaluate .none textScope).isError = false ∧
      textOfSum.evaluate .none (textScope.bind "+" (.int 0)) = .string "3++" := by
  have hs : textScope.IsBundled := Scope.ofFunctions_isBundled (by decide)
  have he : textOfSum.IsBundled := by
    have hv : textOfSum.values = [.identifier "concat", .identifier "+", .int 1, .int 2,
      .identifier "++"] := rfl
    rw [IsBundled, hv]
    simp [Value.isBundled]
  have hname : textScope.lookup? "+" = none := by cbv
  have hvalue : textOfSum.evaluate .none textScope = .string "3++" := by cbv
  have h : (textOfSum.evaluate .none textScope).isError = false := by rw [hvalue]; rfl
  exact ⟨hs, he, hname, h, (evaluate_bind_of_ne_error hs he hname h _).trans hvalue⟩

end Expr

end LispCalc
