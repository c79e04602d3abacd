import LispCalc.Builtin.Basic
import LispCalc.Calendar.Instant
import LispCalc.Error

namespace LispCalc

/-- A value of the language. Errors are values like any other. -/
inductive Value where
  | unknown
  | null
  | date (t : Calendar.Instant)
  | bool (b : Bool)
  | float (x : Float)
  | int (n : Int64)
  | string (s : String)
  | identifier (name : String)
  | function (f : Function)
  | error (e : EvalError)

namespace Value

def kind : Value → Kind
  | unknown => .unknown
  | null => .null
  | date _ => .date
  | bool _ => .bool
  | float _ => .float
  | int _ => .int
  | string _ => .string
  | identifier _ => .identifier
  | function _ => .function
  | error _ => .error

def isError : Value → Bool
  | error _ => true
  | _ => false

def ofResult : Except EvalError Value → Value
  | .ok v => v
  | .error e => .error e

/-- Equality of values. Numbers compare as numbers, so that not-a-number differs from itself, and
dates as points in time. -/
def same : Value → Value → Bool
  | unknown, unknown => true
  | null, null => true
  | date a, date b => a.same b
  | bool a, bool b => a == b
  | float a, float b => a == b
  | int a, int b => a == b
  | string a, string b => a == b
  | identifier a, identifier b => a == b
  | function a, function b => a == b
  | error a, error b => a == b
  | _, _ => false

end Value

end LispCalc
