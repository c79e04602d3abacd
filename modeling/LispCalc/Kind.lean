namespace LispCalc

inductive Kind where
  | unknown
  | null
  | date
  | bool
  | float
  | int
  | string
  | identifier
  | function
  | error
deriving DecidableEq

namespace Kind

def all : List Kind :=
  [unknown, null, date, bool, float, int, string, identifier, function, error]

def tag : Kind → Nat
  | unknown => 0
  | null => 1
  | date => 2
  | bool => 3
  | float => 4
  | int => 5
  | string => 6
  | identifier => 7
  | function => 8
  | error => 9

def ofTag? (tag : Nat) : Option Kind := all[tag]?

def name : Kind → String
  | unknown => "Unknown"
  | null => "Null"
  | date => "Date"
  | bool => "Bool"
  | float => "Float"
  | int => "Int"
  | string => "String"
  | identifier => "Identifier"
  | function => "Function"
  | error => "Error"

theorem ofTag?_tag (k : Kind) : ofTag? k.tag = some k := by cases k <;> rfl

end Kind

end LispCalc
