import LispCalc.Builtin.Combinator

namespace LispCalc

/-- The functions of the embedding program by their ids. -/
abbrev Hosts := String → List Value → Value

def Hosts.none : Hosts := fun id _ => .error (.host ("no function " ++ Text.quote id))

namespace Builtin

def runAdd (args : List Value) : Value := foldNumbers args (.atLeast 1) "add" (· + ·) (· + ·)

def isNumber : Value → Bool
  | .bool _ | .int _ | .float _ => true
  | _ => false

def runPlus (args : List Value) : Value :=
  match ensureAllValid args with
  | .error e => .error e
  | .ok () =>
    if args.all isNumber then foldNumbers args (.atLeast 1) "+" (· + ·) (· + ·)
    else foldStrings args (.atLeast 1) "+" (· ++ ·)

/-- One number is negated, of two the second is subtracted. -/
def runSub (args : List Value) : Value :=
  match promotedKind args "sub" with
  | .error e => .error e
  | .ok _ =>
    match args.length with
    | 1 => unaryNumber args "sub" (fun n => -n) (fun x => -x)
    | 2 => binaryNumber args "sub" (· - ·) (· - ·)
    | _ => .error (.arity "sub" .oneOrTwo)

def runMul (args : List Value) : Value := foldNumbers args (.atLeast 1) "mul" (· * ·) (· * ·)

def divide (a b : Float) : Except EvalError Float :=
  if b == 0.0 then .error .divideByZero else .ok (a / b)

def runDiv (args : List Value) : Value := binaryFloat args "div" divide

def runPow (args : List Value) : Value := binaryFloat args "pow" fun a b => .ok (a.pow b)

def negate : Value → Value
  | .bool b => .bool (!b)
  | v => v

def runAnd (args : List Value) : Value := foldBools args (.atLeast 2) "and" (· && ·)

def runOr (args : List Value) : Value := foldBools args (.atLeast 2) "or" (· || ·)

def runNand (args : List Value) : Value := negate (foldBools args (.atLeast 2) "nand" (· && ·))

def runNor (args : List Value) : Value := negate (foldBools args (.atLeast 2) "nor" (· || ·))

def runXor (args : List Value) : Value := foldBools args (.exactly 2) "xor" (· != ·)

def runXnor (args : List Value) : Value := foldBools args (.exactly 2) "xnor" (· == ·)

def runNot (args : List Value) : Value := unaryBool args "not" (!·)

def runConcat (args : List Value) : Value := foldStrings args (.atLeast 1) "concat" (· ++ ·)

def run (hosts : Hosts) : Builtin → List Value → Value
  | plus => runPlus
  | add => runAdd
  | sub => runSub
  | mul => runMul
  | div => runDiv
  | pow => runPow
  | and => runAnd
  | or => runOr
  | nand => runNand
  | nor => runNor
  | xor => runXor
  | xnor => runXnor
  | not => runNot
  | concat => runConcat
  | host id => hosts id

end Builtin

end LispCalc
