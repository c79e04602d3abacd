import LispCalc.Decimal.Scientific
import LispCalc.Value.Basic

namespace LispCalc.Value

def mismatch (v : Value) (target : Kind) : EvalError := .type v.kind target

def ensureValid : Value → Except EvalError Unit
  | error e => .error e
  | identifier name => .error (.unresolvedIdentifier name)
  | _ => .ok ()

def toBool : Value → Except EvalError Bool
  | bool b => .ok b
  | int n => .ok (n != 0)
  | v => .error (v.mismatch .bool)

def toInt : Value → Except EvalError Int64
  | int n => .ok n
  | bool b => .ok (if b then 1 else 0)
  | v => .error (v.mismatch .int)

def toFloat : Value → Except EvalError Float
  | float x => .ok x
  | int n => .ok (Binary.ofInt n.toInt)
  | bool b => .ok (if b then 1.0 else 0.0)
  | v => .error (v.mismatch .float)

def boolText (b : Bool) : String := if b then "true" else "false"

def intText (n : Int64) : String := String.ofList (Decimal.integer n.toInt)

def identifierText (name : String) : String := "Name(" ++ Text.quote name ++ ")"

def text : Value → String
  | unknown => "UNKNOWN"
  | null => "NIL"
  | date t => t.render
  | bool b => boolText b
  | float x => Decimal.scientific x
  | int n => intText n
  | string s => s
  | identifier name => name
  | function f => f.name
  | error e => e.message

def asDate : Value → Except EvalError Calendar.Instant
  | date t => .ok t
  | v => .error (v.mismatch .date)

def asIdentifier : Value → Except EvalError String
  | identifier name => .ok name
  | v => .error (v.mismatch .identifier)

def asFunction : Value → Except EvalError Function
  | function f => .ok f
  | v => .error (v.mismatch .function)

def asError : Value → Except EvalError EvalError
  | error e => .ok e
  | v => .error (v.mismatch .error)

end LispCalc.Value
