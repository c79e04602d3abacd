import Mathlib
import LispCalc.Proofs.Environment

namespace LispCalc

def Env.set (env : Env) (name : String) (v : Value) : Env :=
  fun n => if n = name then some v else env n

theorem Env.nested_set {name : String} (h : Library.defaultTable.get? name = none) (env : Env)
    (v : Value) : (env.set name v).nested = env.nested.set name v := by
  funext n
  by_cases hn : n = name
  · subst hn
    simp [nested, set, h]
  · cases hd : Library.defaultTable.get? n <;> simp [nested, set, hn, hd]

namespace Scope

variable {s : Scope} {name n : String}

theorem lookup?_bind (s : Scope) (name : String) (v : Value) :
    (s.bind name v).lookup? = Env.set s.lookup? name v := by
  funext n
  rw [Env.set, lookup?, lookup?, bind, List.findSome?_cons, List.findSome?_cons, Frame.lookup?,
    Frame.lookup?, Table.get?_insert]
  by_cases hn : n = name <;> simp [hn]

theorem lookup?_congr_current {f g : Frame} (h : f.lookup? name = g.lookup? name)
    (outer : List Frame) : (Scope.mk f outer).lookup? name = (Scope.mk g outer).lookup? name := by
  rw [lookup?, lookup?, List.findSome?_cons, List.findSome?_cons, h]

theorem lookup?_unbind (hn : n ≠ name) : (s.unbind name).2.lookup? n = s.lookup? n := by
  apply lookup?_congr_current
  rw [Frame.lookup?, Frame.lookup?, Table.get?_erase, if_neg hn]

end Scope

namespace Expr

variable {hosts : Hosts} {own nested : Env} {s : Scope} {depth : Nat} {name : String} {v : Value}
  {e : Expr}

mutual

/-- The expression with a value in place of a name. The atoms keep their texts. -/
def replace (name : String) (v : Value) : Expr → Expr
  | null => null
  | atom raw w =>
    match w with
    | .identifier n => if n = name then atom raw v else atom raw (.identifier n)
    | w => atom raw w
  | list es => list (replaceAll name v es)

def replaceAll (name : String) (v : Value) : List Expr → List Expr
  | [] => []
  | e :: es => e.replace name v :: replaceAll name v es

end

theorem replaceAll_eq_map (name : String) (v : Value) (es : List Expr) :
    replaceAll name v es = es.map (replace name v) := by
  induction es with
  | nil => rfl
  | cons e es ih => rw [replaceAll, ih, List.map_cons]

theorem replace_list (name : String) (v : Value) (es : List Expr) :
    (list es).replace name v = list (es.map (replace name v)) := by
  rw [replace, replaceAll_eq_map]

theorem replace_identifier (name : String) (v : Value) (raw : List Char) (n : String) :
    (atom raw (.identifier n)).replace name v =
      atom raw (if n = name then v else .identifier n) := by
  rw [replace]
  split <;> rfl

theorem text_replace (name : String) (v : Value) (e : Expr) : (e.replace name v).text = e.text := by
  induction e with
  | null => rfl
  | atom raw w =>
    cases w with
    | identifier n => rw [replace_identifier, text, text]
    | _ => rfl
  | list es ih =>
    have htexts : texts (es.map (replace name v)) = texts es := by
      induction es with
      | nil => rfl
      | cons e es ihes =>
        rw [List.forall_mem_cons] at ih
        cases es with
        | nil => simp [texts, ih.1]
        | cons f fs => simpa [texts, ih.1] using ihes ih.2
    rw [replace_list, text, text, htexts]

theorem argumentEnv_replace (name : String) (v : Value) (e : Expr) (own nested : Env) :
    (e.replace name v).argumentEnv own nested = e.argumentEnv own nested := by
  cases e with
  | null => rfl
  | atom raw w =>
    cases w with
    | identifier n =>
      rw [replace_identifier]
      rfl
    | _ => rfl
  | list es => rfl

theorem call_congr {head head' : Expr} (h : head.text = head'.text) (args : List Value)
    (f : Value) : call hosts head args f = call hosts head' args f := by
  unfold call
  rw [h]

theorem evaluateIn_replace (hv : v.kind ≠ .identifier) :
    evaluateIn hosts own nested depth (e.replace name v) =
      evaluateIn hosts (own.set name v) (nested.set name v) depth e := by
  induction e generalizing own depth with
  | null => rfl
  | atom raw w =>
    cases w with
    | identifier n =>
      rw [replace_identifier]
      by_cases hn : n = name
      · rw [if_pos hn, evaluateIn, Env.set, if_pos hn]
        cases v with
        | identifier => exact absurd rfl hv
        | _ => rfl
      · rw [if_neg hn, evaluateIn, evaluateIn, Env.set, if_neg hn]
    | _ => rfl
  | list es ih =>
    rw [replace_list]
    by_cases hd : depth = nestingLimit
    · subst hd
      rw [evaluateIn_limit, evaluateIn_limit]
    cases es with
    | nil => rfl
    | cons head args =>
      rw [List.forall_mem_cons] at ih
      rw [List.map_cons, evaluateIn_cons hosts _ _ hd, evaluateIn_cons hosts _ _ hd,
        call_congr (text_replace name v head), ih.1, List.map_map]
      congr 1
      apply List.map_congr_left
      intro a ha
      rw [Function.comp_apply, argumentEnv_replace, ih.2 a ha]
      cases a <;> rfl

theorem not_mem_names_replace (hv : v.kind ≠ .identifier) : name ∉ (e.replace name v).names := by
  induction e with
  | null => simp [replace, names]
  | atom raw w =>
    cases w with
    | identifier n =>
      rw [replace_identifier]
      by_cases hn : n = name
      · rw [if_pos hn]
        cases v with
        | identifier => exact absurd rfl hv
        | _ => simp [names]
      · rw [if_neg hn]
        simpa [names] using Ne.symm hn
    | _ => simp [replace, names]
  | list es ih =>
    rw [replace_list, mem_names_list]
    rintro ⟨e', he', hm⟩
    obtain ⟨e, he, rfl⟩ := List.mem_map.mp he'
    exact ih e he hm

/-- A value bound to a name that no default function has can as well stand in the expression in
place of the name. The scope then needs no binding of it. -/
theorem evaluate_replace (hname : Library.defaultTable.get? name = none)
    (hv : v.kind ≠ .identifier) :
    e.evaluate hosts (s.bind name v) = (e.replace name v).evaluate hosts s ∧
      e.evaluate hosts (s.bind name v) = (e.replace name v).evaluate hosts (s.unbind name).2 := by
  have h : e.evaluate hosts (s.bind name v) = (e.replace name v).evaluate hosts s := by
    rw [evaluate, evaluate, evaluateAt_eq_evaluateIn, evaluateAt_eq_evaluateIn,
      evaluateIn_replace hv, Scope.lookup?_bind, Env.nested_set hname]
  have hrest : ∀ n ∈ (e.replace name v).names, s.lookup? n = (s.unbind name).2.lookup? n := by
    intro n hn
    rw [Scope.lookup?_unbind]
    rintro rfl
    exact not_mem_names_replace hv hn
  refine ⟨h, h.trans ?_⟩
  rw [evaluate, evaluate, evaluateAt_eq_evaluateIn, evaluateAt_eq_evaluateIn]
  refine evaluateIn_congr (fun n hn => hrest n (mem_names_of_mem_ownNames hn)) fun n hn => ?_
  rw [Env.nested, Env.nested, hrest n hn]

def shadowedScope : Scope := ((Scope.root.bind "f" (.int 0)).define "f" .concat).child

def callsOfF : Expr :=
  list [named "++", list [named "f", atom ['2'] (.int 2),
    list [named "f", atom ['3'] (.int 3), atom ['4'] (.int 4)]], named "f"]

/-- A function in place of a name, at the heads of nested lists and among the arguments. -/
theorem evaluate_replace_callsOfF :
    Library.defaultTable.get? "f" = none ∧ (Value.function ⟨"times", .mul⟩).kind ≠ .identifier ∧
      (callsOfF.replace "f" (.function ⟨"times", .mul⟩)).evaluate .none shadowedScope =
        .string "24times" ∧
      (callsOfF.replace "f" (.function ⟨"times", .mul⟩)).evaluate .none
        (shadowedScope.unbind "f").2 = .string "24times" := by
  have hname : Library.defaultTable.get? "f" = none := by decide
  have hv : (Value.function ⟨"times", .mul⟩).kind ≠ .identifier := by decide
  have hbound : callsOfF.evaluate .none (shadowedScope.bind "f" (.function ⟨"times", .mul⟩)) =
      .string "24times" := by
    cbv
  obtain ⟨hin, hwithout⟩ := evaluate_replace hname hv
  exact ⟨hname, hv, hin.symm.trans hbound, hwithout.symm.trans hbound⟩

end Expr

end LispCalc
