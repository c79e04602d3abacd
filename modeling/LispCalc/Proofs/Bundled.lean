import LispCalc.Proofs.Calls
import LispCalc.Proofs.Environment

namespace LispCalc

/-- No function of the embedding program. -/
def Value.isBundled : Value → Bool
  | function f => f.builtin.isBundled
  | _ => true

theorem Answers.isBundled {args : List Value} {v : Value} (h : Answers args v) :
    v.isBundled = true := by
  cases h with
  | passed | failed => rfl
  | computed _ hk => cases v <;> simp_all [Value.kind, datumKinds, Value.isBundled]

namespace Scope

def Binds (s : Scope) (v : Value) : Prop :=
  ∃ f ∈ s.current :: s.outer, ∃ name, f.symbols.get? name = some v

def HasFunction (s : Scope) (b : Builtin) : Prop :=
  ∃ f ∈ s.current :: s.outer, ∃ name, f.functions.get? name = some b

/-- All functions of the chain, bound ones too, are bundled ones. -/
def IsBundled (s : Scope) : Prop :=
  (∀ b, s.HasFunction b → b.isBundled = true) ∧ ∀ v, s.Binds v → v.isBundled = true

variable {s : Scope} {name : String} {v : Value} {b : Builtin}

theorem lookup?_cases (h : s.lookup? name = some v) :
    s.Binds v ∨ ∃ b, s.HasFunction b ∧ v = .function ⟨name, b⟩ := by
  obtain ⟨f, hf, hv⟩ := List.exists_of_findSome?_eq_some h
  rw [Frame.lookup?] at hv
  split at hv
  · rename_i u hu
    obtain rfl : u = v := by simpa using hv
    exact .inl ⟨f, hf, name, hu⟩
  · obtain ⟨b, hb, rfl⟩ := Option.map_eq_some_iff.mp hv
    exact .inr ⟨b, ⟨f, hf, name, hb⟩, rfl⟩

theorem IsBundled.resolve (h : s.IsBundled) (name : String) :
    (s.resolve name).isBundled = true := by
  rw [Scope.resolve]
  cases hl : s.lookup? name with
  | none => rfl
  | some v =>
    obtain hv | ⟨b, hb, rfl⟩ := lookup?_cases hl
    · exact h.2 v hv
    · exact h.1 b hb

theorem binds_child : s.child.Binds v ↔ s.Binds v := by
  have hd (name : String) : Frame.default.symbols.get? name = none := rfl
  simp [Binds, child, enter, hd]

theorem isBundled_of_mem_defaultTable :
    ∀ entry ∈ Library.defaultTable.entries, entry.2.isBundled = true := by
  decide

theorem isBundled_of_defaultTable (h : Library.defaultTable.get? name = some b) :
    b.isBundled = true :=
  isBundled_of_mem_defaultTable _ (Table.mem_of_get?_eq_some h)

theorem not_binds_ofFunctions (t : Table Builtin) : ¬ (ofFunctions t).Binds v := by
  rintro ⟨f, hf, name, hv⟩
  obtain rfl : f = .ofFunctions t := by simpa [ofFunctions] using hf
  simp [Frame.ofFunctions] at hv

theorem not_binds_root : ¬ root.Binds v := not_binds_ofFunctions Library.defaultTable

theorem ofFunctions_isBundled {t : Table Builtin}
    (h : ∀ entry ∈ t.entries, entry.2.isBundled = true) : (ofFunctions t).IsBundled := by
  refine ⟨?_, fun v hv => absurd hv (not_binds_ofFunctions t)⟩
  rintro b ⟨f, hf, name, hb⟩
  obtain rfl : f = .ofFunctions t := by simpa [ofFunctions] using hf
  exact h _ (Table.mem_of_get?_eq_some hb)

theorem root_isBundled : root.IsBundled := ofFunctions_isBundled isBundled_of_mem_defaultTable

theorem eq_or_binds_of_bind {u : Value} (h : (s.bind name v).Binds u) : u = v ∨ s.Binds u := by
  obtain ⟨f, hf, n, hu⟩ := h
  obtain rfl | hf := List.mem_cons.mp hf
  · rw [bind, Table.get?_insert] at hu
    split at hu
    · exact .inl (by simpa [eq_comm] using hu)
    · exact .inr ⟨s.current, List.mem_cons_self, n, hu⟩
  · exact .inr ⟨f, List.mem_cons_of_mem _ hf, n, hu⟩

theorem hasFunction_bind : (s.bind name v).HasFunction b ↔ s.HasFunction b := by
  simp [HasFunction, bind]

theorem IsBundled.bind (h : s.IsBundled) (name : String) (hv : v.isBundled = true) :
    (s.bind name v).IsBundled := by
  refine ⟨fun b hb => h.1 b (hasFunction_bind.mp hb), fun u hu => ?_⟩
  obtain rfl | hu := eq_or_binds_of_bind hu
  · exact hv
  · exact h.2 u hu

theorem IsBundled.child (h : s.IsBundled) : s.child.IsBundled := by
  refine ⟨?_, fun v hv => h.2 v (binds_child.mp hv)⟩
  rintro b ⟨f, hf, name, hb⟩
  obtain rfl | hf := List.mem_cons.mp hf
  · exact isBundled_of_defaultTable hb
  · exact h.1 b ⟨f, hf, name, hb⟩

theorem IsBundled.argumentScope (h : s.IsBundled) (e : Expr) : (e.argumentScope s).IsBundled := by
  cases e with
  | list => exact h.child
  | null | atom => exact h

end Scope

namespace Expr

mutual

def values : Expr → List Value
  | null => []
  | atom _ v => [v]
  | list es => valuesAll es

def valuesAll : List Expr → List Value
  | [] => []
  | e :: es => e.values ++ valuesAll es

end

def IsBundled (e : Expr) : Prop := ∀ v ∈ e.values, v.isBundled = true

variable {hosts : Hosts} {s : Scope} {depth : Nat} {e : Expr} {es : List Expr}

theorem mem_values_list {v : Value} : v ∈ (list es).values ↔ ∃ e ∈ es, v ∈ e.values := by
  rw [values]
  induction es with
  | nil => simp [valuesAll]
  | cons e es ih => simp [valuesAll, ih]

theorem isBundled_list : (list es).IsBundled ↔ ∀ e ∈ es, e.IsBundled := by
  constructor
  · intro h e he v hv
    exact h v (mem_values_list.mpr ⟨e, he, hv⟩)
  · intro h v hv
    obtain ⟨e, he, hv⟩ := mem_values_list.mp hv
    exact h e he v hv

theorem call_answers {f : Value} (hosts : Hosts) (head : Expr) (args : List Value)
    (hf : f.isBundled = true) (hn : f ≠ .error .nestingTooDeep) :
    Answers args (call hosts head args f) := by
  unfold call
  split
  · exact Builtin.run_answers hosts hf args
  · exact absurd rfl hn
  · exact .failed rfl

theorem evaluateAt_isBundled (hosts : Hosts) (depth : Nat) (hs : s.IsBundled) (he : e.IsBundled) :
    (evaluateAt hosts s depth e).isBundled = true := by
  induction e generalizing depth with
  | null => rfl
  | atom raw v =>
    have hv : v.isBundled = true := he v (by simp [values])
    cases v with
    | identifier name => exact hs.resolve name
    | _ => exact hv
  | list es ih =>
    by_cases hd : depth = nestingLimit
    · subst hd
      rw [evaluateAt_limit]
      rfl
    cases es with
    | nil =>
      rw [evaluateAt, if_neg hd]
      rfl
    | cons head args =>
      rw [isBundled_list, List.forall_mem_cons] at he
      have hhead := ih head List.mem_cons_self (depth + 1) he.1
      rw [evaluateAt_cons hosts s hd]
      -- the one error of a head that a list passes on unchanged is no answer of a call
      by_cases hn : evaluateAt hosts s (depth + 1) head = .error .nestingTooDeep
      · rw [hn]
        rfl
      · exact (call_answers hosts head _ hhead hn).isBundled

end Expr

end LispCalc
