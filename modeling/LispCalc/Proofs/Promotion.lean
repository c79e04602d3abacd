import LispCalc.Proofs.Screening

namespace LispCalc

variable {args args' more : List Value} {function : String} {k l : NumberKind} {v : Value}
  {e : EvalError}

theorem ensureKinds_numberKinds_eq_ok_iff (function : String) :
    ensureKinds numberKinds [] function args = .ok () ↔ ∀ v ∈ args, v.kind ∈ numberKinds :=
  ⟨fun h => kind_mem_of_ensureKinds h (by simp [numberKinds]),
    ensureKinds_of_kinds (by decide) function⟩

theorem promotedKind_eq_ok_iff : promotedKind args function = .ok k ↔
    (∀ v ∈ args, v.kind ∈ numberKinds) ∧ greatestKind .int args = k := by
  rw [promotedKind_eq, ← ensureKinds_numberKinds_eq_ok_iff function]
  cases ensureKinds numberKinds [] function args <;> simp [Except.map]

theorem max_eq_float_iff : k.max l = .float ↔ k = .float ∨ l = .float := by
  cases k <;> simp [NumberKind.max]

theorem greatestKind_eq_float_iff :
    greatestKind .int args = .float ↔ ∃ v ∈ args, v.kind = .float := by
  rw [greatestKind_int]
  simp

theorem greatestKind_perm (h : args.Perm args') :
    greatestKind .int args = greatestKind .int args' := by
  rw [greatestKind_int, greatestKind_int]
  simp only [(h.map Value.kind).mem_iff]

theorem greatestKind_append (args more : List Value) :
    greatestKind .int (args ++ more) =
      (greatestKind .int args).max (greatestKind .int more) := by
  simp only [greatestKind_int, List.map_append, List.mem_append]
  by_cases ha : .float ∈ args.map Value.kind
  · simp [ha, NumberKind.max]
  · simp [ha, NumberKind.max]

theorem promotedKind_perm (h : args.Perm args') (hk : promotedKind args function = .ok k) :
    promotedKind args' function = .ok k := by
  obtain ⟨hall, hgreatest⟩ := promotedKind_eq_ok_iff.mp hk
  refine promotedKind_eq_ok_iff.mpr ⟨fun v hv => hall v (h.mem_iff.mpr hv), ?_⟩
  rw [← greatestKind_perm h, hgreatest]

theorem promotedKind_append : promotedKind (args ++ more) function = .ok l ↔
    ∃ k m, promotedKind args function = .ok k ∧ promotedKind more function = .ok m ∧
      k.max m = l := by
  simp only [promotedKind_eq_ok_iff, List.forall_mem_append, greatestKind_append]
  constructor
  · rintro ⟨⟨hargs, hmore⟩, hl⟩
    exact ⟨_, _, ⟨hargs, rfl⟩, ⟨hmore, rfl⟩, hl⟩
  · rintro ⟨_, _, ⟨hargs, rfl⟩, ⟨hmore, rfl⟩, hl⟩
    exact ⟨⟨hargs, hmore⟩, hl⟩

theorem fault?_eq_none_iff : v.fault? numberKinds function = none ↔ v.kind ∈ numberKinds := by
  cases v <;> simp [Value.fault?, Value.kind, numberKinds]

theorem fault?_eq_some_iff : v.fault? numberKinds function = some e ↔
    v = .error e ∨ (∃ name, v = .identifier name ∧ e = .unresolvedIdentifier name) ∨
      v.IsValid ∧ v.kind ∉ numberKinds ∧ e = .unacceptableType v.kind function := by
  cases v <;> simp [Value.fault?, Value.kind, numberKinds, Value.IsValid, eq_comm]

/-- Promotion and a scan for the kinds of number fail alike, as the leftmost argument that is no
number says. The kind of numbers is float if there is a float among them, in whatever order they
are, and that of two lists put together is the greater of their kinds. A scan passes if each
argument is valid, of no refused kind, and of a kind to take where there are such. -/
theorem promotion_agrees_with_scan (args : List Value) (function : String) :
    (∀ e, promotedKind args function = .error e ↔
      ensureKinds [.bool, .int, .float] [] function args = .error e) ∧
    (∀ e, promotedKind args function = .error e ↔
      ∃ before v after, args = before ++ v :: after ∧ (∀ u ∈ before, u.kind ∈ numberKinds) ∧
        (v = .error e ∨ (∃ name, v = .identifier name ∧ e = .unresolvedIdentifier name) ∨
          v.IsValid ∧ v.kind ∉ numberKinds ∧ e = .unacceptableType v.kind function)) ∧
    (∀ k, promotedKind args function = .ok k →
      (k = .float ↔ ∃ v ∈ args, v.kind = .float) ∧
      (∀ args', args.Perm args' → promotedKind args' function = .ok k) ∧
      ∀ more l, promotedKind (args ++ more) function = .ok l ∨
        promotedKind (more ++ args) function = .ok l → k = .float → l = .float) ∧
    (∀ more l, promotedKind (args ++ more) function = .ok l ↔
      ∃ k m, promotedKind args function = .ok k ∧ promotedKind more function = .ok m ∧
        k.max m = l) ∧
    ∀ acceptable forbidden, ensureKinds acceptable forbidden function args = .ok () ↔
      ∀ v ∈ args, v.IsValid ∧ v.kind ∉ forbidden ∧
        (acceptable = [] ∨ v.kind ∈ acceptable) := by
  refine ⟨fun e => promotedKind_eq_error_iff, fun e => ?_, fun k hk => ⟨?_, ?_, ?_⟩,
    fun more l => promotedKind_append, fun acceptable forbidden => ?_⟩
  · rw [promotedKind_eq_error_iff, ensureKinds_eq_error_iff_fault? (by simp [numberKinds])]
    simp only [fault?_eq_none_iff, fault?_eq_some_iff]
  · rw [← (promotedKind_eq_ok_iff.mp hk).2, greatestKind_eq_float_iff]
  · intro args' hperm
    exact promotedKind_perm hperm hk
  · rintro more l (hl | hl) hfloat <;>
      obtain ⟨k', m, hk', hm, rfl⟩ := promotedKind_append.mp hl
    · obtain rfl : k = k' := by simpa [hk] using hk'
      exact max_eq_float_iff.mpr (.inl hfloat)
    · obtain rfl : k = m := by simpa [hk] using hm
      exact max_eq_float_iff.mpr (.inr hfloat)
  · simp only [ensureKinds_eq_ok_iff, ensureKind_eq_ok_iff]

def floatInFront : List Value := [.float 0.5, .bool true]

/-- A float in front decides the kind. It does so behind any other number, and so does it when an
integer is appended. -/
theorem promotion_agrees_with_scan_floatInFront :
    promotedKind floatInFront "add" = .ok .float ∧
      floatInFront.Perm [.bool true, .float 0.5] ∧
      promotedKind [.bool true, .float 0.5] "add" = .ok .float ∧
      ∃ l, promotedKind (floatInFront ++ [.int 3]) "add" = .ok l ∧ l = .float := by
  have hk : promotedKind floatInFront "add" = .ok .float := rfl
  have hl : promotedKind (floatInFront ++ [.int 3]) "add" = .ok .float := rfl
  have hperm : floatInFront.Perm [.bool true, .float 0.5] := .swap _ _ []
  obtain ⟨_, _, hkind, _⟩ := promotion_agrees_with_scan floatInFront "add"
  obtain ⟨_, horder, hmore⟩ := hkind .float hk
  exact ⟨hk, hperm, horder _ hperm, _, hl, hmore _ _ (.inl hl) rfl⟩

end LispCalc
