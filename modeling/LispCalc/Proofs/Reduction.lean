import LispCalc.Proofs.Screening

namespace LispCalc

/-- The leftmost argument with a fault decides how a call ends, else a number of arguments that is
not allowed, else what is computed from all of them. -/
def Concludes (acceptable : List Kind) (expected : Arity) (function : String) (args : List Value)
    (P : Value → Prop) (v : Value) : Prop :=
  match args.findSome? (Value.fault? acceptable function) with
  | some e => v = .error e
  | none =>
    if expected.allows args.length then P v else v = .error (.arity function expected)

variable {acceptable : List Kind} {expected : Arity} {function : String} {args : List Value}
  {P : Value → Prop} {v : Value}

theorem Screened.concludes (h : Screened acceptable expected function args P v)
    (hk : acceptable ≠ []) : Concludes acceptable expected function args P v := by
  have hscan := ensureKinds_eq_fault? hk function args
  rw [Concludes]
  cases hf : args.findSome? (Value.fault? acceptable function) with
  | some e =>
    rw [hf] at hscan
    cases h with
    | argument hs => simpa [hscan, eq_comm] using hs
    | count hs | computed hs => simp [hscan] at hs
  | none =>
    rw [hf] at hscan
    cases h with
    | argument hs => simp [hscan] at hs
    | count _ hn => simp [hn]
    | computed _ hn hv => simpa [hn] using hv

/-- Whatever the operators are, arguments are looked at before they are counted, and counted before
they are coerced. All of them are coerced to one kind before the operator of that kind takes them
from left to right; the other operator is not used. -/
theorem combinators_conclude (args : List Value) (expected : Arity) (function : String)
    (intOp : Int64 → Int64 → Int64) (floatOp : Float → Float → Float) (boolOp : Bool → Bool → Bool)
    (stringOp : String → String → String) (onInt : Int64 → Int64) (onFloat : Float → Float)
    (onBool : Bool → Bool) (partialOp : Float → Float → Except EvalError Float) :
    Concludes numberKinds expected function args
      (OfNumbers args (Folds function Value.toInt intOp .int args)
        (Folds function Value.toFloat floatOp .float args))
      (foldNumbers args expected function intOp floatOp) ∧
    Concludes booleanKinds expected function args (Folds function Value.toBool boolOp .bool args)
      (foldBools args expected function boolOp) ∧
    Concludes validKinds expected function args
      (Folds function (fun v => .ok v.text) stringOp .string args)
      (foldStrings args expected function stringOp) ∧
    Concludes numberKinds (.exactly 1) function args
      (OfNumbers args (Maps Value.toInt onInt .int args) (Maps Value.toFloat onFloat .float args))
      (unaryNumber args function onInt onFloat) ∧
    Concludes booleanKinds (.exactly 1) function args (Maps Value.toBool onBool .bool args)
      (unaryBool args function onBool) ∧
    Concludes numberKinds (.exactly 2) function args
      (fun v => ∃ x y, args.map Value.toFloat = [.ok x, .ok y] ∧
        v = .ofResult ((partialOp x y).map .float))
      (binaryFloat args function partialOp) := by
  refine ⟨(foldNumbers_folds ..).concludes (by simp [numberKinds]),
    (foldBools_folds ..).concludes (by simp [booleanKinds]),
    (foldStrings_folds ..).concludes (by simp [validKinds]),
    (unaryNumber_maps ..).concludes (by simp [numberKinds]),
    (unaryBool_maps ..).concludes (by simp [booleanKinds]), ?_⟩
  refine ((binaryFloat_screened args function partialOp).mono ?_).concludes (by simp [numberKinds])
  rintro _ _ ⟨v, w, x, y, rfl, hx, hy, rfl⟩
  exact ⟨x, y, by simp [hx, hy], rfl⟩

end LispCalc
