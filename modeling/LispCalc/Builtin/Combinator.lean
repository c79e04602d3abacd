import LispCalc.Builtin.Check

namespace LispCalc

def reduce {α : Type} (function : String) (op : α → α → α) : List α → Except EvalError α
  | [] => .error (.arity function (.atLeast 1))
  | x :: xs => .ok (xs.foldl op x)

def foldNumbers (args : List Value) (arity : Arity) (function : String)
    (intOp : Int64 → Int64 → Int64) (floatOp : Float → Float → Float) : Value :=
  .ofResult do
    let kind ← promotedKind args function
    ensureArity args arity function
    match kind with
    | .int => (reduce function intOp (← args.mapM Value.toInt)).map .int
    | .float => (reduce function floatOp (← args.mapM Value.toFloat)).map .float

def binaryNumber (args : List Value) (function : String)
    (intOp : Int64 → Int64 → Int64) (floatOp : Float → Float → Float) : Value :=
  foldNumbers args (.exactly 2) function intOp floatOp

def unaryNumber (args : List Value) (function : String)
    (intOp : Int64 → Int64) (floatOp : Float → Float) : Value :=
  .ofResult do
    let kind ← promotedKind args function
    match args with
    | [v] =>
      match kind with
      | .int => v.toInt.map fun n => .int (intOp n)
      | .float => v.toFloat.map fun x => .float (floatOp x)
    | _ => .error (.arity function (.exactly 1))

def binaryFloat (args : List Value) (function : String)
    (op : Float → Float → Except EvalError Float) : Value :=
  .ofResult do
    let _ ← promotedKind args function
    match args with
    | [v, w] => (op (← v.toFloat) (← w.toFloat)).map .float
    | _ => .error (.arity function (.exactly 2))

/-- Reduces truth values; an integer is true unless it is zero. -/
def foldBools (args : List Value) (arity : Arity) (function : String) (op : Bool → Bool → Bool) :
    Value :=
  .ofResult do
    ensureKinds booleanKinds [] function args
    ensureArity args arity function
    (reduce function op (← args.mapM Value.toBool)).map .bool

def unaryBool (args : List Value) (function : String) (op : Bool → Bool) : Value :=
  .ofResult do
    ensureKinds booleanKinds [] function args
    match args with
    | [v] => v.toBool.map fun b => .bool (op b)
    | _ => .error (.arity function (.exactly 1))

def foldStrings (args : List Value) (arity : Arity) (function : String)
    (op : String → String → String) : Value :=
  .ofResult do
    ensureAllValid args
    ensureArity args arity function
    (reduce function op (args.map Value.text)).map .string

end LispCalc
