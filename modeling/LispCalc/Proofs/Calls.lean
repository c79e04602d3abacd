import LispCalc.Proofs.Screening

namespace LispCalc

variable {acceptable : List Kind} {expected : Arity} {function : String} {v : Value}
  {args : List Value} {P : Value → Prop} {e : EvalError}

/-- The errors that a text can lead to with nothing but the bundled functions. -/
def EvalError.isOrdinary : EvalError → Bool
  | unresolvedIdentifier _ | functionNameNotFound _ | arity _ _ | unacceptableType _ _ => true
  | divideByZero => true
  | _ => false

/-- What a bundled function can give: an error among its arguments, an error of its own, or, if all
arguments are valid, a datum. -/
inductive Answers (args : List Value) : Value → Prop where
  | passed {e : EvalError} : .error e ∈ args → Answers args (.error e)
  | failed {e : EvalError} : e.isOrdinary = true → Answers args (.error e)
  | computed {v : Value} : (∀ u ∈ args, u.IsValid) → v.kind ∈ datumKinds → Answers args v

theorem ensureKind_answers (h : ensureKind acceptable [] function v = .error e) (hv : v ∈ args) :
    Answers args (.error e) := by
  cases hvalid : v.ensureValid with
  | error e' =>
    rw [ensureKind_of_not_valid hvalid, Except.error.injEq] at h
    subst h
    obtain rfl | ⟨name, rfl, rfl⟩ := ensureValid_eq_error_iff.mp hvalid
    · exact .passed hv
    · exact .failed rfl
  | ok =>
    rw [ensureKind_of_valid (ensureValid_eq_ok_iff.mp hvalid), if_neg (by simp)] at h
    split at h
    · rw [Except.error.injEq] at h
      subst h
      exact .failed rfl
    · simp at h

theorem Screened.answers (h : Screened acceptable expected function args P v)
    (hP : ∀ u, P u → u.IsDatum ∨ ∃ e, u = .error e ∧ e.isOrdinary = true) : Answers args v := by
  cases h with
  | argument hs =>
    obtain ⟨before, u, after, rfl, _, hu⟩ := ensureKinds_eq_error_iff.mp hs
    exact ensureKind_answers hu (by simp)
  | count => exact .failed rfl
  | computed hs _ hv =>
    obtain hd | ⟨e, rfl, he⟩ := hP v hv
    · refine .computed (fun u hu => ?_) hd
      exact (ensureKind_eq_ok_iff.mp (ensureKinds_eq_ok_iff.mp hs u hu)).1
    · exact .failed he

theorem Answers.isError_of_mem {u : Value} (h : Answers args v) (hu : u ∈ args)
    (he : u.isError = true) : v.isError = true := by
  cases h with
  | passed | failed => rfl
  | computed hargs _ =>
    cases u with
    | error e => exact absurd rfl (hargs _ hu).1
    | _ => simp [Value.isError] at he

namespace Builtin

theorem Computes.isDatum_or_isOrdinary {b : Builtin} (h : b.Computes args v) :
    v.IsDatum ∨ ∃ e, v = .error e ∧ e.isOrdinary = true := by
  cases h with
  | datum _ hv => exact .inl hv
  | quotient =>
    rw [divide]
    split
    · exact .inr ⟨.divideByZero, rfl, rfl⟩
    · exact .inl (isDatum_float _)

/-- Every bundled function passes on an error among its arguments or finds one of its own, and
computes nothing but data. -/
theorem run_answers {b : Builtin} (hosts : Hosts) (h : b.isBundled = true) (args : List Value) :
    Answers args (b.run hosts args) :=
  (run_screened hosts h args).answers fun _ => Computes.isDatum_or_isOrdinary

end Builtin

end LispCalc
