import LispCalc.Eval
import LispCalc.Proofs.Tree

namespace LispCalc

abbrev Env := String → Option Value

/-- The default functions in front of everything else. -/
def Env.nested (env : Env) : Env := fun name =>
  match Library.defaultTable.get? name with
  | some b => some (.function ⟨name, b⟩)
  | none => env name

theorem Env.nested_nested (env : Env) : env.nested.nested = env.nested := by
  funext name
  cases h : Library.defaultTable.get? name <;> simp [nested, h]

namespace Scope

theorem lookup?_child (s : Scope) : s.child.lookup? = Env.nested s.lookup? := by
  funext name
  have hd : Frame.default.lookup? name =
      (Library.defaultTable.get? name).map fun b => .function ⟨name, b⟩ := rfl
  change ((Frame.default :: s.current :: s.outer).findSome? fun f => f.lookup? name) = _
  rw [List.findSome?_cons, hd]
  cases h : Library.defaultTable.get? name with
  | none => simp only [Option.map_none, Env.nested, h, lookup?]
  | some b => simp only [Option.map_some, Env.nested, h]

end Scope

namespace Expr

variable {hosts : Hosts} {own own' nested nested' : Env} {s : Scope} {depth depth' : Nat}
  {e : Expr} {es : List Expr}

def call (hosts : Hosts) (head : Expr) (args : List Value) : Value → Value
  | .function f => f.builtin.run hosts args
  | .error .nestingTooDeep => .error .nestingTooDeep
  | _ => .error (.functionNameNotFound (String.ofList head.text))

def argumentEnv (own nested : Env) : Expr → Env
  | list _ => nested
  | _ => own

mutual

/-- The value of an expression inside `depth` lists, with names looked up in one environment until
a list stands as an argument and in another from there on. -/
def evaluateIn (hosts : Hosts) (own nested : Env) (depth : Nat) : Expr → Value
  | null => .null
  | atom _ v =>
    match v with
    | .identifier name => (own name).getD (.error (.unresolvedIdentifier name))
    | v => v
  | list es =>
    if depth = nestingLimit then .error .nestingTooDeep
    else
      match es with
      | [] => .null
      | head :: args =>
        call hosts head (evaluateAllIn hosts own nested (depth + 1) args)
          (evaluateIn hosts own nested (depth + 1) head)

def evaluateAllIn (hosts : Hosts) (own nested : Env) (depth : Nat) : List Expr → List Value
  | [] => []
  | e :: es =>
    evaluateIn hosts (e.argumentEnv own nested) nested depth e ::
      evaluateAllIn hosts own nested depth es

end

theorem evaluateArgs_eq_map (hosts : Hosts) (s : Scope) (depth : Nat) (es : List Expr) :
    evaluateArgs hosts s depth es =
      es.map fun e => evaluateAt hosts (e.argumentScope s) depth e := by
  induction es with
  | nil => rfl
  | cons e es ih => rw [evaluateArgs, ih, List.map_cons]

theorem evaluateAllIn_eq_map (hosts : Hosts) (own nested : Env) (depth : Nat) (es : List Expr) :
    evaluateAllIn hosts own nested depth es =
      es.map fun e => evaluateIn hosts (e.argumentEnv own nested) nested depth e := by
  induction es with
  | nil => rfl
  | cons e es ih => rw [evaluateAllIn, ih, List.map_cons]

theorem evaluateAt_cons (hosts : Hosts) (s : Scope) (h : depth ≠ nestingLimit) (e : Expr)
    (es : List Expr) :
    evaluateAt hosts s depth (list (e :: es)) =
      call hosts e (es.map fun a => evaluateAt hosts (a.argumentScope s) (depth + 1) a)
        (evaluateAt hosts s (depth + 1) e) := by
  rw [← evaluateArgs_eq_map, evaluateAt, if_neg h]
  rfl

theorem evaluateIn_cons (hosts : Hosts) (own nested : Env) (h : depth ≠ nestingLimit) (e : Expr)
    (es : List Expr) :
    evaluateIn hosts own nested depth (list (e :: es)) =
      call hosts e
        (es.map fun a => evaluateIn hosts (a.argumentEnv own nested) nested (depth + 1) a)
        (evaluateIn hosts own nested (depth + 1) e) := by
  rw [← evaluateAllIn_eq_map, evaluateIn, if_neg h]

theorem evaluateAt_limit (hosts : Hosts) (s : Scope) (es : List Expr) :
    evaluateAt hosts s nestingLimit (list es) = .error .nestingTooDeep := by
  cases es <;> rw [evaluateAt, if_pos rfl]

theorem evaluateIn_limit (hosts : Hosts) (own nested : Env) (es : List Expr) :
    evaluateIn hosts own nested nestingLimit (list es) = .error .nestingTooDeep := by
  cases es <;> rw [evaluateIn, if_pos rfl]

/-- However long the chain of scopes is, lookups in it are lookups in one of two environments: that
of the scope itself, or the one that any number of children make of it. -/
theorem evaluateAt_eq_evaluateIn (hosts : Hosts) (e : Expr) (s : Scope) (depth : Nat) :
    evaluateAt hosts s depth e = evaluateIn hosts s.lookup? (Env.nested s.lookup?) depth e := by
  induction e generalizing s depth with
  | null => rfl
  | atom raw v => cases v <;> rfl
  | list es ih =>
    by_cases hd : depth = nestingLimit
    · subst hd
      rw [evaluateAt_limit, evaluateIn_limit]
    cases es with
    | nil => rfl
    | cons head args =>
      rw [List.forall_mem_cons] at ih
      rw [evaluateAt_cons hosts s hd, evaluateIn_cons hosts _ _ hd, ih.1]
      congr 1
      apply List.map_congr_left
      intro a ha
      rw [ih.2 a ha]
      -- only a list gets a child scope, and a child of a child looks names up like the first one
      cases a with
      | null | atom => rfl
      | list => rw [argumentScope, argumentEnv, Scope.lookup?_child, Env.nested_nested]

/-- Evaluation with a new scope for every list among the arguments comes to the same as evaluation
in two environments that never change, and so does evaluation with one child scope for them all. -/
theorem evaluate_eq_evaluateIn (hosts : Hosts) (e : Expr) (s : Scope) :
    e.evaluate hosts s = evaluateIn hosts s.lookup? (Env.nested s.lookup?) 0 e ∧
      e.evaluate hosts s = evaluateIn hosts s.lookup? s.child.lookup? 0 e := by
  have h : e.evaluate hosts s = evaluateIn hosts s.lookup? (Env.nested s.lookup?) 0 e :=
    evaluateAt_eq_evaluateIn hosts e s 0
  refine ⟨h, ?_⟩
  rw [Scope.lookup?_child]
  exact h

mutual

def names : Expr → List String
  | atom _ (.identifier name) => [name]
  | list es => namesAll es
  | _ => []

def namesAll : List Expr → List String
  | [] => []
  | e :: es => e.names ++ namesAll es

end

theorem mem_names_atom {raw : List Char} {v : Value} {name : String} :
    name ∈ (atom raw v).names ↔ v = .identifier name := by
  cases v <;> simp [names, eq_comm]

theorem mem_names_list {name : String} : name ∈ (list es).names ↔ ∃ e ∈ es, name ∈ e.names := by
  rw [names]
  induction es with
  | nil => simp [namesAll]
  | cons e es ih => simp [namesAll, ih]

mutual

/-- The names that are looked up before any list among the arguments is entered. -/
def ownNames : Expr → List String
  | atom _ (.identifier name) => [name]
  | list (e :: es) => e.ownNames ++ ownNamesOfArgs es
  | _ => []

def ownNamesOfArgs : List Expr → List String
  | [] => []
  | list _ :: es => ownNamesOfArgs es
  | e :: es => e.ownNames ++ ownNamesOfArgs es

end

theorem mem_ownNamesOfArgs {name : String} :
    name ∈ ownNamesOfArgs es ↔ ∃ e ∈ es, (∀ fs, e ≠ list fs) ∧ name ∈ e.ownNames := by
  induction es with
  | nil => simp [ownNamesOfArgs]
  | cons e es ih => cases e <;> simp [ownNamesOfArgs, ih]

theorem mem_names_of_mem_ownNames {name : String} (h : name ∈ e.ownNames) : name ∈ e.names := by
  induction e with
  | null => simp [ownNames] at h
  | atom raw v => cases v <;> simp_all [ownNames, names]
  | list es ih =>
    cases es with
    | nil => simp [ownNames] at h
    | cons head args =>
      rw [mem_names_list]
      rw [ownNames, List.mem_append, mem_ownNamesOfArgs] at h
      obtain h | ⟨a, ha, _, h⟩ := h
      · exact ⟨head, List.mem_cons_self, ih head List.mem_cons_self h⟩
      · exact ⟨a, List.mem_cons_of_mem _ ha, ih a (List.mem_cons_of_mem _ ha) h⟩

theorem evaluateIn_congr (ho : ∀ name ∈ e.ownNames, own name = own' name)
    (hn : ∀ name ∈ e.names, nested name = nested' name) :
    evaluateIn hosts own nested depth e = evaluateIn hosts own' nested' depth e := by
  induction e generalizing own own' depth with
  | null => rfl
  | atom raw v =>
    cases v with
    | identifier name => rw [evaluateIn, evaluateIn, ho name (by simp [ownNames])]
    | _ => rfl
  | list es ih =>
    by_cases hd : depth = nestingLimit
    · subst hd
      rw [evaluateIn_limit, evaluateIn_limit]
    cases es with
    | nil => rfl
    | cons head args =>
      have hn' : ∀ e ∈ head :: args, ∀ name ∈ e.names, nested name = nested' name :=
        fun e he name hm => hn name (mem_names_list.mpr ⟨e, he, hm⟩)
      rw [ownNames, List.forall_mem_append] at ho
      rw [List.forall_mem_cons] at ih hn'
      rw [evaluateIn_cons hosts _ _ hd, evaluateIn_cons hosts _ _ hd, ih.1 ho.1 hn'.1]
      congr 1
      apply List.map_congr_left
      intro a ha
      apply ih.2 a ha _ (hn'.2 a ha)
      intro name hm
      -- what was nested for the whole list is what a list among the arguments sees itself
      cases a with
      | null | atom => exact ho.2 name (mem_ownNamesOfArgs.mpr ⟨_, ha, nofun, hm⟩)
      | list => exact hn'.2 _ ha name (mem_names_of_mem_ownNames hm)

theorem evaluateIn_depth (h : depth + e.nesting ≤ nestingLimit)
    (h' : depth' + e.nesting ≤ nestingLimit) :
    evaluateIn hosts own nested depth e = evaluateIn hosts own nested depth' e := by
  induction e generalizing own depth depth' with
  | null => rfl
  | atom raw v => cases v <;> rfl
  | list es ih =>
    have hes : ∀ e ∈ es, e.nesting < (list es).nesting := fun e he => nesting_lt_of_mem he
    have hd : depth ≠ nestingLimit := by
      rw [nesting] at h
      omega
    have hd' : depth' ≠ nestingLimit := by
      rw [nesting] at h'
      omega
    cases es with
    | nil => rw [evaluateIn, evaluateIn, if_neg hd, if_neg hd']
    | cons head args =>
      rw [List.forall_mem_cons] at ih hes
      have hhead : evaluateIn hosts own nested (depth + 1) head =
          evaluateIn hosts own nested (depth' + 1) head := ih.1 (by omega) (by omega)
      rw [evaluateIn_cons hosts _ _ hd, evaluateIn_cons hosts _ _ hd', hhead]
      congr 1
      apply List.map_congr_left
      intro a ha
      have := hes.2 a ha
      exact ih.2 a ha (by omega) (by omega)

end Expr

end LispCalc
