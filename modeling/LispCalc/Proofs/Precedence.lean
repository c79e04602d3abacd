import LispCalc.Proofs.Bundled
import LispCalc.Proofs.Zero

namespace LispCalc.Builtin

variable {hosts : Hosts} {b : Builtin} {name : String} {args : List Value} {v : Value}
  {e : EvalError}

/-- How a call fails. The leftmost argument with a fault comes before the number of arguments, and
that comes before a zero divisor. -/
inductive Fails (b : Builtin) (args : List Value) : EvalError → Prop where
  | argument {before after : List Value} {v : Value} {e : EvalError} :
      args = before ++ v :: after → (∀ u ∈ before, u.fault? b.kinds b.name = none) →
      v.fault? b.kinds b.name = some e → Fails b args e
  | count : (∀ v ∈ args, v.fault? b.kinds b.name = none) → b.arity.allows args.length = false →
      Fails b args (.arity b.name b.arity)
  | zeroDivisor {v w : Value} : b = .div → args = [v, w] →
      (∀ u ∈ args, u.fault? b.kinds b.name = none) → w ∈ Value.zeros → Fails b args .divideByZero

theorem kinds_ne_nil (b : Builtin) : b.kinds ≠ [] := by
  cases b <;> simp [kinds, numberKinds, booleanKinds, validKinds]

theorem scan_eq_ok_iff : ensureKinds b.kinds [] b.name args = .ok () ↔
    ∀ v ∈ args, v.fault? b.kinds b.name = none :=
  ensureKinds_eq_ok_iff_fault? b.kinds_ne_nil

theorem scan_eq_error_iff : ensureKinds b.kinds [] b.name args = .error e ↔
    ∃ before v after, args = before ++ v :: after ∧
      (∀ u ∈ before, u.fault? b.kinds b.name = none) ∧ v.fault? b.kinds b.name = some e :=
  ensureKinds_eq_error_iff_fault? b.kinds_ne_nil

namespace Fails

theorem of_ensureKinds (h : ensureKinds b.kinds [] b.name args = .error e) : b.Fails args e := by
  obtain ⟨before, v, after, hargs, hbefore, hv⟩ := scan_eq_error_iff.mp h
  exact .argument hargs hbefore hv

theorem scan (h : b.Fails args e) :
    ensureKinds b.kinds [] b.name args = .error e ∨
      ensureKinds b.kinds [] b.name args = .ok () ∧
        (b.arity.allows args.length = false ∧ e = .arity b.name b.arity ∨
          b = .div ∧ (∃ v w, args = [v, w] ∧ w ∈ Value.zeros) ∧ e = .divideByZero) := by
  cases h with
  | @argument before after v _ hargs hbefore hv =>
    exact .inl (scan_eq_error_iff.mpr ⟨before, v, after, hargs, hbefore, hv⟩)
  | count hall hn => exact .inr ⟨scan_eq_ok_iff.mpr hall, .inl ⟨hn, rfl⟩⟩
  | @zeroDivisor v w hb hargs hall hw =>
    exact .inr ⟨scan_eq_ok_iff.mpr hall, .inr ⟨hb, ⟨v, w, hargs, hw⟩, rfl⟩⟩

end Fails

theorem ne_error_of_isDatum (h : v.IsDatum) : v ≠ .error e := by
  rintro rfl
  simp [Value.IsDatum, Value.kind, datumKinds] at h

theorem Computes.eq_error_iff (h : b.Computes args v) :
    v = .error e ↔
      b = .div ∧ (∃ u w, args = [u, w] ∧ w ∈ Value.zeros) ∧ e = .divideByZero := by
  cases h with
  | datum hb hv =>
    refine iff_of_false (ne_error_of_isDatum hv) ?_
    rintro ⟨hdiv, _⟩
    exact hb hdiv
  | @quotient u w x y hb hargs hx hy =>
    have hzero : (∃ u' w', args = [u', w'] ∧ w' ∈ Value.zeros) ↔ (y == 0.0) = true := by
      rw [Value.toFloat_beq_zero hy]
      simp [hargs]
    rw [divide, hzero]
    by_cases hz : (y == 0.0) = true
    · rw [if_pos hz]
      simp [hb, hz, Value.ofResult, Except.map, eq_comm]
    · rw [if_neg hz]
      simp [hz, Value.ofResult, Except.map]

theorem run_eq_error_iff_fails (h : b.isBundled = true) :
    b.run hosts args = .error e ↔ b.Fails args e := by
  have hrun := run_screened hosts h args
  constructor
  · intro he
    rw [he] at hrun
    cases hrun with
    | argument hs => exact .of_ensureKinds hs
    | count hs hn => exact .count (scan_eq_ok_iff.mp hs) hn
    | computed hs _ hc =>
      obtain ⟨hb, ⟨v, w, hargs, hw⟩, rfl⟩ := hc.eq_error_iff.mp rfl
      exact .zeroDivisor hb hargs (scan_eq_ok_iff.mp hs) hw
  · intro hf
    generalize b.run hosts args = r at hrun
    obtain hs' | ⟨hs', hf'⟩ := hf.scan
    · cases hrun with
      | argument hs =>
        rw [hs, Except.error.injEq] at hs'
        rw [hs']
      | count hs | computed hs => simp [hs] at hs'
    · cases hrun with
      | argument hs => simp [hs] at hs'
      | count _ hn =>
        obtain ⟨_, rfl⟩ | ⟨rfl, ⟨v, w, rfl, _⟩, _⟩ := hf'
        · rfl
        · simp [arity, Arity.allows] at hn
      | computed _ hn hc =>
        obtain ⟨hn', _⟩ | hz := hf'
        · simp [hn] at hn'
        · exact hc.eq_error_iff.mpr hz

theorem defaultTable_name (h : Library.defaultTable.get? name = some b) :
    Library.defaultTable.get? b.name = some b := by
  have hall : ∀ entry ∈ Library.defaultTable.entries,
      Library.defaultTable.get? entry.2.name = some entry.2 := by
    decide
  exact hall _ (Table.mem_of_get?_eq_some h)

/-- A default function, by whatever name it is called, fails in the order of the checks and under
its own name, and gives no error otherwise. -/
theorem run_eq_error_iff (h : Library.defaultTable.get? name = some b) :
    Library.defaultTable.get? b.name = some b ∧
      (b.run hosts args = .error e ↔ b.Fails args e) :=
  ⟨defaultTable_name h, run_eq_error_iff_fails (Scope.isBundled_of_defaultTable h)⟩

def quotientOfText : List Value := [.bool true, .string "x", .error .nestingTooDeep]

/-- The text is found before the error behind it, and before there is one argument too many. -/
theorem run_quotientOfText :
    Library.defaultTable.get? "/" = some .div ∧ Library.defaultTable.get? "div" = some .div ∧
      run .none .div quotientOfText = .error (.unacceptableType .string "div") := by
  have h : Library.defaultTable.get? "/" = some .div := by decide
  have hargs : quotientOfText = [.bool true] ++ .string "x" :: [.error .nestingTooDeep] := rfl
  have hbefore : ∀ u ∈ [Value.bool true], u.fault? (kinds .div) (name .div) = none := by
    simp [Value.fault?, kinds, numberKinds, Value.kind]
  have hf : Fails .div quotientOfText (.unacceptableType .string "div") :=
    .argument hargs hbefore rfl
  obtain ⟨hname, hrun⟩ := run_eq_error_iff h
  exact ⟨h, hname, hrun.mpr hf⟩

end LispCalc.Builtin
