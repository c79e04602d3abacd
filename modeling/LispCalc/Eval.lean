import LispCalc.Builtin.Run
import LispCalc.Expr.Basic
import LispCalc.Scope

namespace LispCalc.Expr

/-- The scope that an argument is evaluated in: a list gets one of its own. -/
def argumentScope (s : Scope) : Expr → Scope
  | list _ => s.child
  | _ => s

mutual

def evaluateAt (hosts : Hosts) (s : Scope) (depth : Nat) : Expr → Value
  | null => .null
  | atom _ v =>
    match v with
    | .identifier name => s.resolve name
    | v => v
  | list es =>
    if depth = nestingLimit then .error .nestingTooDeep
    else
      match es with
      | [] => .null
      | head :: args =>
        match evaluateAt hosts s (depth + 1) head with
        | .function f => f.builtin.run hosts (evaluateArgs hosts s (depth + 1) args)
        | .error .nestingTooDeep => .error .nestingTooDeep
        | _ => .error (.functionNameNotFound (String.ofList head.text))

def evaluateArgs (hosts : Hosts) (s : Scope) (depth : Nat) : List Expr → List Value
  | [] => []
  | e :: es => evaluateAt hosts (e.argumentScope s) depth e :: evaluateArgs hosts s depth es

end

/-- The value of an expression; failures are errors among the values. -/
def evaluate (hosts : Hosts) (e : Expr) (s : Scope) : Value := evaluateAt hosts s 0 e

def evalInto (hosts : Hosts) (e : Expr) (s : Scope) : Scope := s.setValue (e.evaluate hosts s)

end LispCalc.Expr
