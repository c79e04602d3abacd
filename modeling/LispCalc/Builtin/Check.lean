import LispCalc.Value.Coercion

namespace LispCalc

def ensureArity (args : List Value) (expected : Arity) (function : String) :
    Except EvalError Unit :=
  if expected.allows args.length then .ok () else .error (.arity function expected)

/-- The first error or unresolved name among the arguments fails. -/
def ensureAllValid : List Value → Except EvalError Unit
  | [] => .ok ()
  | v :: vs => do
    v.ensureValid
    ensureAllValid vs

/-- One argument against the kinds a function takes and those it refuses; no kinds to take means
any. -/
def ensureKind (acceptable forbidden : List Kind) (function : String) (v : Value) :
    Except EvalError Unit := do
  v.ensureValid
  if forbidden.contains v.kind then .error (.forbiddenType function v.kind)
  else if !acceptable.isEmpty && !acceptable.contains v.kind then
    .error (.unacceptableType v.kind function)
  else .ok ()

def ensureKinds (acceptable forbidden : List Kind) (function : String) :
    List Value → Except EvalError Unit
  | [] => .ok ()
  | v :: vs => do
    ensureKind acceptable forbidden function v
    ensureKinds acceptable forbidden function vs

def booleanKinds : List Kind := [.bool, .int]

/-- The kinds of number that a numeric function computes with. -/
inductive NumberKind where
  | int
  | float
deriving DecidableEq

namespace NumberKind

def max : NumberKind → NumberKind → NumberKind
  | int, k => k
  | float, _ => float

def kind : NumberKind → Kind
  | int => .int
  | float => .float

end NumberKind

def numberKind (function : String) (v : Value) : Except EvalError NumberKind := do
  v.ensureValid
  match v with
  | .bool _ | .int _ => .ok .int
  | .float _ => .ok .float
  | v => .error (.unacceptableType v.kind function)

def promotedKind (args : List Value) (function : String) : Except EvalError NumberKind :=
  args.foldlM (fun k v => (numberKind function v).map k.max) .int

end LispCalc
