import LispCalc.Value.Basic

namespace LispCalc

/-- An expression. An atom keeps the text it was written with beside its value. -/
inductive Expr where
  | null
  | atom (raw : List Char) (value : Value)
  | list (children : List Expr)

namespace Expr

def isNull : Expr → Bool
  | null => true
  | _ => false

def children : Expr → List Expr
  | list es => es
  | _ => []

mutual

def text : Expr → List Char
  | null => ['N', 'I', 'L']
  | atom raw _ => raw
  | list es => '(' :: texts es ++ [')']

def texts : List Expr → List Char
  | [] => []
  | [e] => e.text
  | e :: es => e.text ++ ' ' :: texts es

end

mutual

/-- The same tree, with the same texts and equal values. -/
def same : Expr → Expr → Bool
  | null, null => true
  | atom r v, atom s w => r == s && v.same w
  | list es, list fs => sameAll es fs
  | _, _ => false

def sameAll : List Expr → List Expr → Bool
  | [], [] => true
  | e :: es, f :: fs => e.same f && sameAll es fs
  | _, _ => false

end

end Expr

end LispCalc
