import Mathlib.Data.List.Forall2
import LispCalc.Record
import LispCalc.Proofs.Environment

namespace LispCalc

abbrev Noting (α : Type) := StateM (List Record) α

namespace Noting

variable {α β : Type}

def noted (rs : List Record) (v : α) : Noting α := fun log => (v, log ++ rs)

theorem pure_eq (v : α) : (pure v : Noting α) = noted [] v := by
  funext log
  exact congrArg (Prod.mk v) (List.append_nil log).symm

theorem noted_bind {rs rs' : List Record} {v : α} {w : β} {f : α → Noting β}
    (h : f v = noted rs' w) : noted rs v >>= f = noted (rs ++ rs') w := by
  funext log
  exact (congrFun h (log ++ rs)).trans (congrArg (Prod.mk w) (List.append_assoc log rs rs'))

end Noting

open Noting

namespace Record

def name? : Record → Option String
  | resolved name _ | unresolved name => some name
  | _ => none

def count? : Record → Option Nat
  | calling _ count => some count
  | _ => none

end Record

namespace Expr

variable {hosts : Hosts} {s : Scope} {depth : Nat} {e : Expr} {es args : List Expr}

mutual

/-- The value of an expression inside `depth` lists, computed in one pass that notes each step when
it takes it. -/
def evaluateNotingAt (hosts : Hosts) (s : Scope) (depth : Nat) : Expr → Noting Value
  | null => pure .null
  | atom _ v =>
    match v with
    | .identifier name => do
      noted [s.resolveRecord name] ()
      pure (s.resolve name)
    | v => pure v
  | list es =>
    if depth = nestingLimit then pure (.error .nestingTooDeep)
    else
      match es with
      | [] => pure .null
      | head :: args => do
        match ← evaluateNotingAt hosts s (depth + 1) head with
        | .function f =>
          let vs ← evaluateNotingArgs hosts s (depth + 1) args
          noted [.calling f.name vs.length] ()
          pure (f.builtin.run hosts vs)
        | .error .nestingTooDeep => pure (.error .nestingTooDeep)
        | _ => pure (.error (.functionNameNotFound (String.ofList head.text)))

def evaluateNotingArgs (hosts : Hosts) (s : Scope) (depth : Nat) :
    List Expr → Noting (List Value)
  | [] => pure []
  | e :: es => do
    let v ← evaluateNotingAt hosts (e.argumentScope s) depth e
    let vs ← evaluateNotingArgs hosts s depth es
    pure (v :: vs)

end

theorem length_evaluateArgs (hosts : Hosts) (s : Scope) (depth : Nat) (es : List Expr) :
    (evaluateArgs hosts s depth es).length = es.length := by
  rw [evaluateArgs_eq_map, List.length_map]

theorem evaluateNotingArgs_eq (s : Scope)
    (h : ∀ e ∈ es, evaluateNotingAt hosts (e.argumentScope s) depth e =
      noted (evalRecordsAt hosts (e.argumentScope s) depth e)
        (evaluateAt hosts (e.argumentScope s) depth e)) :
    evaluateNotingArgs hosts s depth es =
      noted (evalRecordsArgs hosts s depth es) (evaluateArgs hosts s depth es) := by
  induction es with
  | nil => exact pure_eq []
  | cons e es ih =>
    rw [List.forall_mem_cons] at h
    rw [evaluateNotingArgs, h.1, ih h.2]
    refine noted_bind ((noted_bind (pure_eq _)).trans ?_)
    rw [List.append_nil]
    rfl

/-- The pass comes to the value of an evaluation and notes its records. -/
theorem evaluateNotingAt_eq (hosts : Hosts) (s : Scope) (depth : Nat) (e : Expr) :
    evaluateNotingAt hosts s depth e =
      noted (evalRecordsAt hosts s depth e) (evaluateAt hosts s depth e) := by
  induction e generalizing s depth with
  | null => exact pure_eq _
  | atom raw v =>
    cases v with
    | identifier name => exact noted_bind (pure_eq _)
    | _ => exact pure_eq _
  | list es ih =>
    by_cases hd : depth = nestingLimit
    · cases es <;> simp only [evaluateNotingAt, evaluateAt, evalRecordsAt, hd, if_true, pure_eq]
    cases es with
    | nil => simp only [evaluateNotingAt, evaluateAt, evalRecordsAt, hd, if_false, pure_eq]
    | cons head args =>
      rw [List.forall_mem_cons] at ih
      have hargs : evaluateNotingArgs hosts s (depth + 1) args = _ :=
        evaluateNotingArgs_eq s fun a ha => ih.2 a ha (a.argumentScope s) (depth + 1)
      simp only [evaluateNotingAt, evaluateAt, evalRecordsAt, if_neg hd, ih.1]
      refine noted_bind ?_
      cases evaluateAt hosts s (depth + 1) head with
      | function f =>
        rw [← length_evaluateArgs hosts s (depth + 1) args]
        simp only [hargs]
        exact noted_bind (noted_bind (pure_eq _))
      | error e => cases e <;> exact pure_eq _
      | _ => exact pure_eq _

/-- Every list that is not empty starts with a name that stands for a bundled function in the scope
that the list is evaluated in. -/
inductive CallsBundled : Scope → Expr → Prop where
  | null {s : Scope} : CallsBundled s null
  | atom {s : Scope} {raw : List Char} {v : Value} : CallsBundled s (atom raw v)
  | empty {s : Scope} : CallsBundled s (list [])
  | call {s : Scope} {raw : List Char} {name : String} {f : Function} {args : List Expr} :
      s.lookup? name = some (.function f) → f.builtin.isBundled = true →
      (∀ a ∈ args, CallsBundled (a.argumentScope s) a) →
      CallsBundled s (list (.atom raw (.identifier name) :: args))

/-- A step of a walk over an expression: to a name, or away from a list with a head and a number of
arguments. -/
inductive Visit where
  | name (s : Scope) (name : String)
  | call (s : Scope) (head : Expr) (count : Nat)

namespace Visit

def name? : Visit → Option String
  | name _ n => some n
  | call _ _ _ => none

def count? : Visit → Option Nat
  | name _ _ => none
  | call _ _ count => some count

/-- The record that a step leaves: what the name stands for in its scope, or the function that the
head of the list stands for in the scope of the list. -/
inductive Notes : Visit → Record → Prop where
  | resolved {s : Scope} {name : String} {v : Value} : s.lookup? name = some v →
      Notes (.name s name) (.resolved name v.kind)
  | unresolved {s : Scope} {name : String} : s.lookup? name = none →
      Notes (.name s name) (.unresolved name)
  | calling {s : Scope} {raw : List Char} {name : String} {f : Function} {count : Nat} :
      s.lookup? name = some (.function f) → f.builtin.isBundled = true →
      Notes (.call s (.atom raw (.identifier name)) count) (.calling f.name count)

variable {x : Visit} {r : Record}

theorem Notes.name?_eq (h : x.Notes r) : r.name? = x.name? := by
  cases h <;> rfl

theorem Notes.count?_eq (h : x.Notes r) : r.count? = x.count? := by
  cases h <;> rfl

end Visit

mutual

/-- The walk from left to right that leaves a list behind everything in it. -/
def visits (s : Scope) : Expr → List Visit
  | atom _ (.identifier name) => [.name s name]
  | list (head :: args) => visits s head ++ visitsAll s args ++ [.call s head args.length]
  | _ => []

def visitsAll (s : Scope) : List Expr → List Visit
  | [] => []
  | e :: es => visits (e.argumentScope s) e ++ visitsAll s es

end

mutual

/-- The lists in an expression that are not empty, each behind those in it. -/
def calls : Expr → List (List Expr)
  | list (e :: es) => e.calls ++ callsAll es ++ [e :: es]
  | _ => []

def callsAll : List Expr → List (List Expr)
  | [] => []
  | e :: es => e.calls ++ callsAll es

end

theorem notes_resolveRecord (s : Scope) (name : String) :
    (Visit.name s name).Notes (s.resolveRecord name) := by
  rw [Scope.resolveRecord]
  cases h : s.lookup? name with
  | none => exact .unresolved h
  | some v => exact .resolved h

theorem notes_args (h : ∀ a ∈ args, List.Forall₂ Visit.Notes (a.visits (a.argumentScope s))
      (evalRecordsAt hosts (a.argumentScope s) depth a)) :
    List.Forall₂ Visit.Notes (visitsAll s args) (evalRecordsArgs hosts s depth args) := by
  induction args with
  | nil => exact .nil
  | cons a args ih =>
    rw [List.forall_mem_cons] at h
    exact List.rel_append h.1 (ih h.2)

/-- Every step of the walk leaves its record, whatever the arguments come to. -/
theorem notes_evalRecordsAt (h : CallsBundled s e) (hn : depth + e.nesting ≤ nestingLimit) :
    List.Forall₂ Visit.Notes (e.visits s) (evalRecordsAt hosts s depth e) := by
  induction h generalizing depth with
  | null => exact .nil
  | @atom s raw v =>
    cases v with
    | identifier name => exact .cons (notes_resolveRecord s name) .nil
    | _ => exact .nil
  | empty => simp [visits, evalRecordsAt]
  | @call s raw name f args hf hb _ ih =>
    have hd : depth ≠ nestingLimit := by
      rw [nesting] at hn
      omega
    have hargs : List.Forall₂ Visit.Notes (visitsAll s args)
        (evalRecordsArgs hosts s (depth + 1) args) := by
      refine notes_args fun a ha => ih a ha ?_
      have hlt := nesting_lt_of_mem (List.mem_cons_of_mem (.atom raw (.identifier name)) ha)
      omega
    have hhead : evaluateAt hosts s (depth + 1) (.atom raw (.identifier name)) = .function f := by
      simp [evaluateAt, Scope.resolve, hf]
    rw [visits, evalRecordsAt, if_neg hd, hhead, List.append_assoc]
    exact List.rel_append (.cons (notes_resolveRecord s name) .nil)
      (List.rel_append hargs (.cons (.calling hf hb) .nil))

theorem filterMap_eq_of_notes {α : Type} {f : Record → Option α} {g : Visit → Option α}
    (hfg : ∀ x r, Visit.Notes x r → f r = g x) {xs : List Visit} {rs : List Record}
    (h : List.Forall₂ Visit.Notes xs rs) : rs.filterMap f = xs.filterMap g := by
  induction h with
  | nil => rfl
  | cons hx _ ih => rw [List.filterMap_cons, List.filterMap_cons, hfg _ _ hx, ih]

theorem filterMap_visitsAll {α : Type} {g : Visit → Option α} {k : Expr → List α}
    (h : ∀ e ∈ es, ∀ s, (e.visits s).filterMap g = k e) (s : Scope) :
    (visitsAll s es).filterMap g = es.flatMap k := by
  induction es with
  | nil => rfl
  | cons e es ih =>
    rw [List.forall_mem_cons] at h
    rw [visitsAll, List.filterMap_append, h.1, ih h.2, List.flatMap_cons]

theorem namesAll_eq_flatMap (es : List Expr) : namesAll es = es.flatMap names := by
  induction es with
  | nil => rfl
  | cons e es ih => rw [namesAll, ih, List.flatMap_cons]

theorem callsAll_eq_flatMap (es : List Expr) : callsAll es = es.flatMap calls := by
  induction es with
  | nil => rfl
  | cons e es ih => rw [callsAll, ih, List.flatMap_cons]

theorem names_visits (e : Expr) (s : Scope) : (e.visits s).filterMap Visit.name? = e.names := by
  induction e generalizing s with
  | null => rfl
  | atom raw v => cases v <;> rfl
  | list es ih =>
    cases es with
    | nil => rfl
    | cons head args =>
      rw [List.forall_mem_cons] at ih
      rw [visits, List.filterMap_append, List.filterMap_append, ih.1, filterMap_visitsAll ih.2,
        names, namesAll, namesAll_eq_flatMap]
      exact List.append_nil _

theorem counts_visits (e : Expr) (s : Scope) :
    (e.visits s).filterMap Visit.count? = e.calls.map fun es => es.length - 1 := by
  induction e generalizing s with
  | null => rfl
  | atom raw v => cases v <;> rfl
  | list es ih =>
    cases es with
    | nil => rfl
    | cons head args =>
      rw [List.forall_mem_cons] at ih
      rw [visits, List.filterMap_append, List.filterMap_append, ih.1, filterMap_visitsAll ih.2,
        calls, List.map_append, List.map_append, callsAll_eq_flatMap, List.map_flatMap]
      rfl

/-- An evaluation resolves every name once, in the order of the text, and calls every list that is
not empty once, behind everything in it, whatever the arguments come to. -/
theorem evalRecords_follow_visits (hosts : Hosts) (h : CallsBundled s e)
    (hn : e.nesting ≤ nestingLimit) :
    (evaluateNotingAt hosts s 0 e).run [] = (e.evaluate hosts s, e.evalRecords hosts s) ∧
      List.Forall₂ Visit.Notes (e.visits s) (e.evalRecords hosts s) ∧
      (e.evalRecords hosts s).filterMap Record.name? = e.names ∧
      (e.evalRecords hosts s).filterMap Record.count? = e.calls.map fun es => es.length - 1 := by
  have hnotes : List.Forall₂ Visit.Notes (e.visits s) (e.evalRecords hosts s) :=
    notes_evalRecordsAt h (by omega)
  refine ⟨?_, hnotes, ?_, ?_⟩
  · rw [evaluateNotingAt_eq]
    rfl
  · rw [filterMap_eq_of_notes (fun _ _ => Visit.Notes.name?_eq) hnotes, names_visits]
  · rw [filterMap_eq_of_notes (fun _ _ => Visit.Notes.count?_eq) hnotes, counts_visits]

def decidedScope : Scope := Scope.root.bind "both" (.function ⟨"and", .and⟩)

def decided : Expr :=
  list [named "both", atom ['0'] (.int 0),
    list [named "/", named "y", atom ['0'] (.int 0)], list []]

theorem decided_callsBundled : CallsBundled decidedScope decided := by
  have hquotient : CallsBundled decidedScope.child
      (list [named "/", named "y", atom ['0'] (.int 0)]) :=
    .call (f := ⟨"/", .div⟩) rfl rfl (by simp [named, CallsBundled.atom])
  refine .call (f := ⟨"and", .and⟩) rfl rfl ?_
  simp [CallsBundled.atom, argumentScope, hquotient, CallsBundled.empty]

/-- What follows is evaluated all the same. -/
theorem evalRecords_follow_visits_decided :
    CallsBundled decidedScope decided ∧ decided.nesting ≤ nestingLimit ∧
      (decided.evalRecords .none decidedScope).filterMap Record.name? = ["both", "/", "y"] ∧
      (decided.evalRecords .none decidedScope).filterMap Record.count? = [2, 3] := by
  have hn : decided.nesting ≤ nestingLimit := by decide
  obtain ⟨_, _, hnames, hcounts⟩ :=
    evalRecords_follow_visits .none decided_callsBundled hn
  exact ⟨decided_callsBundled, hn, hnames, hcounts⟩

end Expr

end LispCalc
