import LispCalc.Calendar.Reader
import LispCalc.Numeral
import LispCalc.Value.Basic

namespace LispCalc.Literal

def trueWords : List String := ["1", "t", "T", "TRUE", "true", "True"]

def falseWords : List String := ["0", "f", "F", "FALSE", "false", "False"]

def bool? (s : List Char) : Option Bool :=
  if trueWords.contains (String.ofList s) then some true
  else if falseWords.contains (String.ofList s) then some false
  else none

/-- The value of a symbol: the first kind of literal that it is a literal of, among dates, integers,
floats and truth values, or else a name. -/
def classify (s : List Char) : Value :=
  match Calendar.date? s with
  | some t => .date t
  | none =>
    match Numeral.int64? s with
    | some n => .int n
    | none =>
      match Decimal.float? s with
      | some x => .float x
      | none =>
        match bool? s with
        | some b => .bool b
        | none => .identifier (String.ofList s)

end LispCalc.Literal
