import LispCalc.Proofs.Regrouping

namespace LispCalc

variable {α : Type} {coerce : Value → Except EvalError α} {op : α → α → α} {wrap : α → Value}
  {args : List Value} {expected : Arity} {f g : String} {u v : Value}

theorem Folds.unique (hu : Folds f coerce op wrap args u) (hv : Folds g coerce op wrap args v)
    (h : args ≠ []) : u = v := by
  cases hu with
  | empty hn => exact absurd hn h
  | fold hmap => exact (hv.eq hmap).symm

theorem foldNumbers_congr (f g : String) (intOp : Int64 → Int64 → Int64)
    (floatOp : Float → Float → Float) (h : ∀ v ∈ args, v.kind ∈ numberKinds) (hne : args ≠ [])
    (hn : expected.allows args.length = true) :
    foldNumbers args expected f intOp floatOp = foldNumbers args expected g intOp floatOp := by
  have hfolds (f : String) := (foldNumbers_folds args expected f intOp floatOp).property
    (ensureKinds_of_kinds (by decide) f h) hn
  have hf := hfolds f
  have hg := hfolds g
  rw [OfNumbers] at hf hg
  split at hf
  · rename_i hfloat
    rw [if_pos hfloat] at hg
    exact hf.unique hg hne
  · rename_i hfloat
    rw [if_neg hfloat] at hg
    exact hf.unique hg hne

namespace Builtin

theorem ensureAllValid_of_numbers (h : ∀ v ∈ args, v.kind ∈ numberKinds) :
    ensureAllValid args = .ok () := by
  have hsub : numberKinds ⊆ validKinds := by decide
  rw [ensureAllValid_eq_validKinds "+"]
  exact ensureKinds_of_kinds (by decide) "+" fun v hv => hsub (h v hv)

theorem runPlus_eq_runAdd (h : ∀ v ∈ args, v.kind ∈ numberKinds) (hne : args ≠ []) :
    runPlus args = runAdd args := by
  have hn : (Arity.atLeast 1).allows args.length = true :=
    decide_eq_true (List.length_pos_iff.mpr hne)
  rw [runPlus, ensureAllValid_of_numbers h, if_pos (all_isNumber_iff.mpr h)]
  exact foldNumbers_congr "+" "add" (· + ·) (· + ·) h hne hn

theorem runPlus_eq_runConcat (h : ¬ ∀ v ∈ args, v.kind ∈ numberKinds) :
    runPlus args = runConcat args := by
  have hne : args ≠ [] := by
    rintro rfl
    exact h fun v hv => absurd hv List.not_mem_nil
  rw [runPlus, if_neg (mt all_isNumber_iff.mp h), foldStrings_eq "+" hne, runConcat_eq hne]
  cases ensureAllValid args <;> rfl

theorem runPlus_of_not_valid {e : EvalError} (h : ensureAllValid args = .error e) :
    runPlus args = .error e := by
  rw [runPlus, h]

theorem mem_of_runPlus_unacceptable {kind : Kind} {function : String}
    (h : runPlus args = .error (.unacceptableType kind function)) :
    .error (.unacceptableType kind function) ∈ args := by
  cases hvalid : ensureAllValid args with
  | error e =>
    rw [runPlus_of_not_valid hvalid, Value.error.injEq] at h
    obtain ⟨before, v, after, rfl, _, rfl | ⟨name, _, rfl⟩⟩ := ensureAllValid_eq_error_iff.mp hvalid
    · simp [h]
    · cases h
  | ok =>
    have hscreened := runPlus_screened args
    rw [h] at hscreened
    rw [ensureAllValid_eq_validKinds "+"] at hvalid
    cases hscreened with
    | argument hs => simp [hvalid] at hs
    | computed _ _ hdatum => simp [Value.IsDatum, Value.kind, datumKinds] at hdatum

/-- Numbers are added and anything else is joined, as the functions for adding and joining do it.
Only a call without arguments is reported under another name. -/
theorem runPlus_agrees (args : List Value) :
    ((∀ v ∈ args, v.kind ∈ numberKinds) → runPlus args = runAdd args ∨
      args = [] ∧ runPlus args = .error (.arity "+" (.atLeast 1)) ∧
        runAdd args = .error (.arity "add" (.atLeast 1))) ∧
    ((∃ v ∈ args, v.kind ∉ numberKinds) → runPlus args = runConcat args) ∧
    (∀ kind function, runPlus args = .error (.unacceptableType kind function) →
      .error (.unacceptableType kind function) ∈ args) ∧
    (∀ before v after e, args = before ++ v :: after → (∀ u ∈ before, u.IsValid) →
      (v = .error e ∨ ∃ name, v = .identifier name ∧ e = .unresolvedIdentifier name) →
      runPlus args = .error e) := by
  refine ⟨fun h => ?_, fun h => ?_, fun _ _ => mem_of_runPlus_unacceptable, ?_⟩
  · by_cases hne : args = []
    · subst hne
      exact .inr ⟨rfl, rfl, rfl⟩
    · exact .inl (runPlus_eq_runAdd h hne)
  · obtain ⟨v, hv, hk⟩ := h
    exact runPlus_eq_runConcat fun hall => hk (hall v hv)
  · intro before v after e hargs hbefore hv
    exact runPlus_of_not_valid
      (ensureAllValid_eq_error_iff.mpr ⟨before, v, after, hargs, hbefore, hv⟩)

end Builtin

end LispCalc
