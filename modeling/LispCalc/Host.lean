import LispCalc.Decimal.Shortest
import LispCalc.Value.Coercion

namespace LispCalc

/-- Data of an embedding program, with a type that is known only when it runs. -/
inductive HostValue where
  | nil
  | bool (b : Bool)
  | int8 (n : Int8)
  | int16 (n : Int16)
  | int32 (n : Int32)
  | int64 (n : Int64)
  | uint8 (n : UInt8)
  | uint16 (n : UInt16)
  | uint32 (n : UInt32)
  | uint64 (n : UInt64)
  | single (x : Float32)
  | double (x : Float)
  | text (s : String)
  | time (t : Calendar.Instant)
  | error (message : String)

namespace HostValue

def integer? : HostValue → Option Int
  | int8 n => some n.toInt
  | int16 n => some n.toInt
  | int32 n => some n.toInt
  | int64 n => some n.toInt
  | uint8 n => some n.toNat
  | uint16 n => some n.toNat
  | uint32 n => some n.toNat
  | uint64 n => some n.toNat
  | _ => none

/-- An integer in 64 bits with a sign; the upper half of the unsigned ones wraps. -/
def int64? (v : HostValue) : Option Int64 := v.integer?.map Int64.ofInt

def float? : HostValue → Option Float
  | single x => some (Binary.ofSingle x)
  | double x => some x
  | v => v.integer?.map Binary.ofInt

def render? : HostValue → Option String
  | nil => none
  | bool b => some (Value.boolText b)
  | single x => some (Decimal.scientific (Binary.ofSingle x))
  | double x => some (Decimal.scientific x)
  | text s => some s
  | time t => some t.render
  | error message => some message
  | v => v.integer?.map fun n => String.ofList (Decimal.integer n)

def display : HostValue → String
  | nil => "<nil>"
  | single x => Decimal.plain Binary.single (Binary.single.decode x.toBits.toNat)
  | double x => Decimal.plain Binary.double (Binary.datum x)
  | v => v.render?.getD ""

end HostValue

namespace Value

def ofHost? : Kind → HostValue → Option Value
  | .unknown, _ => some unknown
  | .null, _ => some null
  | .date, .time t => some (date t)
  | .bool, .bool b => some (bool b)
  | .bool, v => v.int64?.map fun n => bool (n != 0)
  | .int, .bool b => some (int (if b then 1 else 0))
  | .int, v => v.int64?.map int
  | .float, .bool b => some (float (if b then 1.0 else 0.0))
  | .float, v => v.float?.map float
  | .string, v => v.render?.map string
  | .identifier, .text s => some (identifier s)
  | .error, .error message => some (error (.host message))
  | _, _ => none

/-- Host data as a value of the kind asked for, if that kind can hold it. -/
def ofHost (kind : Kind) (v : HostValue) : Except EvalError Value :=
  match ofHost? kind v with
  | some value => .ok value
  | none => .error (.inconsistentType v.display kind)

end Value

end LispCalc
