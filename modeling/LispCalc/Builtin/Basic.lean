namespace LispCalc

/-- What a function name can stand for: a bundled function, or one that the embedding program
supplies under an id of its own. -/
inductive Builtin where
  /-- Adds numbers and joins everything else. -/
  | plus
  | add
  | sub
  | mul
  | div
  | pow
  | and
  | or
  | nand
  | nor
  | xor
  | xnor
  | not
  | concat
  | host (id : String)
deriving DecidableEq

namespace Builtin

/-- The name that error messages use, whatever name the function was called by. -/
def name : Builtin → String
  | plus => "+"
  | add => "add"
  | sub => "sub"
  | mul => "mul"
  | div => "div"
  | pow => "pow"
  | and => "and"
  | or => "or"
  | nand => "nand"
  | nor => "nor"
  | xor => "xor"
  | xnor => "xnor"
  | not => "not"
  | concat => "concat"
  | host id => id

def isBundled : Builtin → Bool
  | host _ => false
  | _ => true

end Builtin

structure Function where
  name : String
  builtin : Builtin
deriving DecidableEq

def Function.written (f : Function) : String := "Function(" ++ f.name ++ ")"

end LispCalc
