import LispCalc.Definition
import LispCalc.Eval

namespace LispCalc

/-- One scope for all that is evaluated, one line after another. -/
structure Session where
  policy : SlashPolicy
  root : Scope

namespace Session

def start (p : SlashPolicy) : Session := ⟨p, .root⟩

def bind (s : Session) (d : Definition) : Session := { s with root := s.root.bind d.name d.value }

def define (s : Session) (text : List Char) : Except DefinitionError Session :=
  (Definition.parse s.policy text).map s.bind

/-- The value of a line. It leaves nothing behind in the session. -/
def eval (s : Session) (text : List Char) : Except ParseError Value :=
  (Expr.parse s.policy text).map fun e => ((e.evalInto .none s.root).takeValue).1

end Session

end LispCalc
