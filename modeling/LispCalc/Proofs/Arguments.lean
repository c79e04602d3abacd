import LispCalc.Builtin.Combinator

namespace LispCalc

variable {acceptable forbidden : List Kind} {function : String} {v : Value} {vs args : List Value}
  {e : EvalError}

/-- Neither an error nor a name that stands for nothing. -/
def Value.IsValid (v : Value) : Prop := v.kind ≠ .error ∧ v.kind ≠ .identifier

theorem ensureValid_eq_ok_iff : v.ensureValid = .ok () ↔ v.IsValid := by
  cases v <;> simp [Value.ensureValid, Value.IsValid, Value.kind]

theorem ensureValid_eq_error_iff : v.ensureValid = .error e ↔
    v = .error e ∨ ∃ name, v = .identifier name ∧ e = .unresolvedIdentifier name := by
  cases v <;> simp [Value.ensureValid, eq_comm]

theorem ensureKind_of_not_valid (h : v.ensureValid = .error e) :
    ensureKind acceptable forbidden function v = .error e := by
  rw [ensureKind, h]
  rfl

theorem ensureKind_of_valid (h : v.IsValid) :
    ensureKind acceptable forbidden function v =
      if forbidden.contains v.kind then .error (.forbiddenType function v.kind)
      else if !acceptable.isEmpty && !acceptable.contains v.kind then
        .error (.unacceptableType v.kind function)
      else .ok () := by
  rw [ensureKind, ensureValid_eq_ok_iff.mpr h]
  rfl

theorem ensureKind_eq_ok_iff : ensureKind acceptable forbidden function v = .ok () ↔
    v.IsValid ∧ v.kind ∉ forbidden ∧ (acceptable = [] ∨ v.kind ∈ acceptable) := by
  cases hv : v.ensureValid with
  | error e =>
    have hn : ¬ v.IsValid := by simp [← ensureValid_eq_ok_iff, hv]
    simp [ensureKind_of_not_valid hv, hn]
  | ok =>
    have hi : v.IsValid := ensureValid_eq_ok_iff.mp hv
    rw [ensureKind_of_valid hi]
    by_cases hf : v.kind ∈ forbidden
    · simp [hf]
    · by_cases ha : acceptable = [] <;> simp [hf, ha, hi]

theorem ensureKinds_cons_of_ok (h : ensureKind acceptable forbidden function v = .ok ()) :
    ensureKinds acceptable forbidden function (v :: vs) =
      ensureKinds acceptable forbidden function vs := by
  rw [ensureKinds, h]
  rfl

theorem ensureKinds_cons_of_error (h : ensureKind acceptable forbidden function v = .error e) :
    ensureKinds acceptable forbidden function (v :: vs) = .error e := by
  rw [ensureKinds, h]
  rfl

theorem ensureKinds_eq_ok_iff : ensureKinds acceptable forbidden function args = .ok () ↔
    ∀ v ∈ args, ensureKind acceptable forbidden function v = .ok () := by
  induction args with
  | nil => simp [ensureKinds]
  | cons v vs ih =>
    rw [List.forall_mem_cons]
    cases hv : ensureKind acceptable forbidden function v with
    | ok => simp [ensureKinds_cons_of_ok hv, ih]
    | error e => simp [ensureKinds_cons_of_error hv]

theorem ensureKinds_of_kinds (hvalid : .error ∉ acceptable ∧ .identifier ∉ acceptable)
    (function : String) (h : ∀ v ∈ args, v.kind ∈ acceptable) :
    ensureKinds acceptable [] function args = .ok () := by
  rw [ensureKinds_eq_ok_iff]
  intro v hv
  have hk := h v hv
  refine ensureKind_eq_ok_iff.mpr ⟨⟨?_, ?_⟩, List.not_mem_nil, .inr hk⟩
  · exact fun heq => hvalid.1 (heq ▸ hk)
  · exact fun heq => hvalid.2 (heq ▸ hk)

theorem ensureKinds_eq_error_iff : ensureKinds acceptable forbidden function args = .error e ↔
    ∃ before v after, args = before ++ v :: after ∧
      (∀ u ∈ before, ensureKind acceptable forbidden function u = .ok ()) ∧
      ensureKind acceptable forbidden function v = .error e := by
  induction args with
  | nil => simp [ensureKinds]
  | cons v vs ih =>
    cases hv : ensureKind acceptable forbidden function v with
    | ok =>
      rw [ensureKinds_cons_of_ok hv, ih]
      constructor
      · rintro ⟨before, u, after, rfl, hb, hu⟩
        exact ⟨v :: before, u, after, rfl, by simpa [hv] using hb, hu⟩
      · rintro ⟨before, u, after, hargs, hb, hu⟩
        cases before with
        | nil =>
          obtain ⟨rfl, rfl⟩ : v = u ∧ vs = after := by simpa using hargs
          simp [hv] at hu
        | cons w before =>
          obtain ⟨rfl, rfl⟩ : v = w ∧ vs = before ++ u :: after := by simpa using hargs
          rw [List.forall_mem_cons] at hb
          exact ⟨before, u, after, rfl, hb.2, hu⟩
    | error e' =>
      rw [ensureKinds_cons_of_error hv, Except.error.injEq]
      constructor
      · rintro rfl
        exact ⟨[], v, vs, rfl, by simp, hv⟩
      · rintro ⟨before, u, after, hargs, hb, hu⟩
        cases before with
        | nil =>
          obtain ⟨rfl, rfl⟩ : v = u ∧ vs = after := by simpa using hargs
          simpa [hv] using hu
        | cons w before =>
          obtain ⟨rfl, _⟩ : v = w ∧ vs = before ++ u :: after := by simpa using hargs
          simp [hv] at hb

/-- What is wrong with an argument for a function that takes some kinds: that it is an error, that
it is a name that stands for nothing, or that its kind is none of them. -/
def Value.fault? (acceptable : List Kind) (function : String) : Value → Option EvalError
  | .error e => some e
  | .identifier name => some (.unresolvedIdentifier name)
  | v => if v.kind ∈ acceptable then none else some (.unacceptableType v.kind function)

theorem ensureKind_eq_fault? (h : acceptable ≠ []) (function : String) (v : Value) :
    ensureKind acceptable [] function v =
      match v.fault? acceptable function with
      | some e => .error e
      | none => .ok () := by
  by_cases hv : v.IsValid
  · have hf : v.fault? acceptable function =
        if v.kind ∈ acceptable then none else some (.unacceptableType v.kind function) := by
      cases v with
      | error | identifier => simp [Value.IsValid, Value.kind] at hv
      | _ => rfl
    rw [ensureKind_of_valid hv]
    by_cases hm : v.kind ∈ acceptable <;> simp [hf, hm, h]
  · cases v with
    | error | identifier => rfl
    | _ => simp [Value.IsValid, Value.kind] at hv

theorem ensureKind_eq_ok_iff_fault? (h : acceptable ≠ []) :
    ensureKind acceptable [] function v = .ok () ↔ v.fault? acceptable function = none := by
  rw [ensureKind_eq_fault? h]
  cases v.fault? acceptable function <;> simp

theorem ensureKind_eq_error_iff_fault? (h : acceptable ≠ []) :
    ensureKind acceptable [] function v = .error e ↔ v.fault? acceptable function = some e := by
  rw [ensureKind_eq_fault? h]
  cases v.fault? acceptable function <;> simp

theorem ensureKinds_eq_ok_iff_fault? (h : acceptable ≠ []) :
    ensureKinds acceptable [] function args = .ok () ↔
      ∀ v ∈ args, v.fault? acceptable function = none := by
  simp only [ensureKinds_eq_ok_iff, ensureKind_eq_ok_iff_fault? h]

/-- The leftmost argument with a fault decides how a scan fails. -/
theorem ensureKinds_eq_error_iff_fault? (h : acceptable ≠ []) :
    ensureKinds acceptable [] function args = .error e ↔
      ∃ before v after, args = before ++ v :: after ∧
        (∀ u ∈ before, u.fault? acceptable function = none) ∧
        v.fault? acceptable function = some e := by
  simp only [ensureKinds_eq_error_iff, ensureKind_eq_ok_iff_fault? h,
    ensureKind_eq_error_iff_fault? h]

theorem ensureKinds_eq_fault? (h : acceptable ≠ []) (function : String) (args : List Value) :
    ensureKinds acceptable [] function args =
      match args.findSome? (Value.fault? acceptable function) with
      | some e => .error e
      | none => .ok () := by
  induction args with
  | nil => rfl
  | cons v vs ih =>
    have hv := ensureKind_eq_fault? h function v
    rw [List.findSome?_cons]
    cases hf : v.fault? acceptable function with
    | some e =>
      rw [hf] at hv
      exact ensureKinds_cons_of_error hv
    | none =>
      rw [hf] at hv
      rw [ensureKinds_cons_of_ok hv, ih]

theorem ensureAllValid_eq_ensureKinds (function : String) (args : List Value) :
    ensureAllValid args = ensureKinds [] [] function args := by
  induction args with
  | nil => rfl
  | cons v vs ih =>
    rw [ensureAllValid, ih]
    cases hv : v.ensureValid with
    | ok =>
      have hk : ensureKind [] [] function v = .ok () :=
        ensureKind_eq_ok_iff.mpr ⟨ensureValid_eq_ok_iff.mp hv, by simp, .inl rfl⟩
      rw [ensureKinds_cons_of_ok hk]
      rfl
    | error e =>
      rw [ensureKinds_cons_of_error (ensureKind_of_not_valid hv)]
      rfl

theorem ensureAllValid_eq_ok_iff : ensureAllValid args = .ok () ↔ ∀ v ∈ args, v.IsValid := by
  simp [ensureAllValid_eq_ensureKinds "", ensureKinds_eq_ok_iff, ensureKind_eq_ok_iff]

theorem ensureAllValid_eq_error_iff : ensureAllValid args = .error e ↔
    ∃ before v after, args = before ++ v :: after ∧ (∀ u ∈ before, u.IsValid) ∧
      (v = .error e ∨ ∃ name, v = .identifier name ∧ e = .unresolvedIdentifier name) := by
  have hok (v : Value) : ensureKind [] [] "" v = .ok () ↔ v.IsValid := by
    simp [ensureKind_eq_ok_iff]
  have herror (v : Value) : ensureKind [] [] "" v = .error e ↔ v.ensureValid = .error e := by
    cases v <;> rfl
  simp only [ensureAllValid_eq_ensureKinds "", ensureKinds_eq_error_iff, hok, herror,
    ensureValid_eq_error_iff]

theorem ensureAllValid_append (args args' : List Value) :
    ensureAllValid (args ++ args') = ensureAllValid args >>= fun _ => ensureAllValid args' := by
  induction args with
  | nil => rfl
  | cons v vs ih =>
    rw [List.cons_append, ensureAllValid, ensureAllValid, ih]
    cases v.ensureValid <;> rfl

def numberKinds : List Kind := [.bool, .int, .float]

def numberKindOf (v : Value) : NumberKind := if v.kind = .float then .float else .int

def greatestKind (k : NumberKind) (args : List Value) : NumberKind :=
  args.foldl (fun k v => k.max (numberKindOf v)) k

theorem numberKind_eq (function : String) (v : Value) :
    numberKind function v =
      (ensureKind numberKinds [] function v).map fun _ => numberKindOf v := by
  cases v <;> rfl

theorem foldlM_numberKind_eq (function : String) (k : NumberKind) (args : List Value) :
    args.foldlM (fun k v => (numberKind function v).map k.max) k =
      (ensureKinds numberKinds [] function args).map fun _ => greatestKind k args := by
  induction args generalizing k with
  | nil => rfl
  | cons v vs ih =>
    rw [List.foldlM_cons, numberKind_eq]
    cases hv : ensureKind numberKinds [] function v with
    | ok =>
      rw [ensureKinds_cons_of_ok hv, greatestKind, List.foldl_cons]
      exact ih _
    | error e =>
      rw [ensureKinds_cons_of_error hv]
      rfl

theorem promotedKind_eq (args : List Value) (function : String) :
    promotedKind args function =
      (ensureKinds numberKinds [] function args).map fun _ => greatestKind .int args :=
  foldlM_numberKind_eq function .int args

theorem promotedKind_eq_error_iff : promotedKind args function = .error e ↔
    ensureKinds numberKinds [] function args = .error e := by
  rw [promotedKind_eq]
  cases ensureKinds numberKinds [] function args <;> simp [Except.map]

theorem max_eq_int_iff {k l : NumberKind} : k.max l = .int ↔ k = .int ∧ l = .int := by
  cases k <;> cases l <;> simp [NumberKind.max]

theorem greatestKind_eq_int_iff {k : NumberKind} :
    greatestKind k args = .int ↔ k = .int ∧ ∀ v ∈ args, v.kind ≠ .float := by
  induction args generalizing k with
  | nil => simp [greatestKind]
  | cons v vs ih =>
    have hv : numberKindOf v = .int ↔ v.kind ≠ .float := by simp [numberKindOf]
    rw [greatestKind, List.foldl_cons, ← greatestKind, ih, List.forall_mem_cons, max_eq_int_iff, hv,
      and_assoc]

theorem greatestKind_int (args : List Value) :
    greatestKind .int args = if .float ∈ args.map Value.kind then .float else .int := by
  have hint : greatestKind .int args = .int ↔ _ := greatestKind_eq_int_iff
  split
  · rename_i hf
    cases hg : greatestKind .int args with
    | float => rfl
    | int =>
      obtain ⟨v, hv, hk⟩ := List.mem_map.mp hf
      exact absurd hk ((hint.mp hg).2 v hv)
  · rename_i hf
    refine hint.mpr ⟨rfl, fun v hv hk => hf ?_⟩
    exact List.mem_map.mpr ⟨v, hv, hk⟩

theorem toInt_eq_ok (h : v.kind ∈ booleanKinds) : ∃ n, v.toInt = .ok n := by
  cases v <;> simp_all [booleanKinds, Value.kind, Value.toInt]

theorem toBool_eq_ok (h : v.kind ∈ booleanKinds) : ∃ b, v.toBool = .ok b := by
  cases v <;> simp_all [booleanKinds, Value.kind, Value.toBool]

theorem toFloat_eq_ok (h : v.kind ∈ numberKinds) : ∃ x, v.toFloat = .ok x := by
  cases v <;> simp_all [numberKinds, Value.kind, Value.toFloat]

theorem mapM_eq_ok {α : Type} {f : Value → Except EvalError α}
    (h : ∀ v ∈ args, ∃ x, f v = .ok x) : ∃ xs, args.map f = xs.map .ok ∧ args.mapM f = .ok xs := by
  induction args with
  | nil => exact ⟨[], rfl, rfl⟩
  | cons v vs ih =>
    rw [List.forall_mem_cons] at h
    obtain ⟨⟨x, hx⟩, hvs⟩ := h
    obtain ⟨xs, hmap, hxs⟩ := ih hvs
    refine ⟨x :: xs, ?_, ?_⟩
    · rw [List.map_cons, List.map_cons, hx, hmap]
    · rw [List.mapM_cons, hx, hxs]
      rfl

end LispCalc
