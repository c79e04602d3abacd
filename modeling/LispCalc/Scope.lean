import LispCalc.Builtin.Library
import LispCalc.Value.Basic

namespace LispCalc

/-- One level of an environment: its functions, its symbols, and the last value left in it. -/
structure Frame where
  functions : Table Builtin
  symbols : Table Value
  value : Value

namespace Frame

def ofFunctions (functions : Table Builtin) : Frame := ⟨functions, .empty, .unknown⟩

def default : Frame := ofFunctions Library.defaultTable

/-- A symbol hides a function of the same name. -/
def lookup? (f : Frame) (name : String) : Option Value :=
  match f.symbols.get? name with
  | some v => some v
  | none => (f.functions.get? name).map fun b => .function ⟨name, b⟩

end Frame

/-- An environment: the current frame and those around it, the nearest first. -/
structure Scope where
  current : Frame
  outer : List Frame

namespace Scope

def root : Scope := ⟨.default, []⟩

def ofFunctions (functions : Table Builtin) : Scope := ⟨.ofFunctions functions, []⟩

variable (s : Scope)

def depth : Nat := s.outer.length

def enter (f : Frame) : Scope := ⟨f, s.current :: s.outer⟩

def child : Scope := s.enter .default

def leave? : Option Scope :=
  match s.outer with
  | [] => none
  | f :: fs => some ⟨f, fs⟩

def bind (name : String) (v : Value) : Scope :=
  { s with current := { s.current with symbols := s.current.symbols.insert name v } }

def unbind (name : String) : Option Value × Scope :=
  (s.current.symbols.get? name,
    { s with current := { s.current with symbols := s.current.symbols.erase name } })

def define (name : String) (b : Builtin) : Scope :=
  { s with current := { s.current with functions := s.current.functions.insert name b } }

def register (l : Library) : Scope :=
  { s with current := { s.current with functions := l.inject s.current.functions } }

def setValue (v : Value) : Scope := { s with current := { s.current with value := v } }

def takeValue : Value × Scope := (s.current.value, s.setValue .unknown)

/-- What a name stands for in the nearest frame that knows it. -/
def lookup? (name : String) : Option Value := (s.current :: s.outer).findSome? (·.lookup? name)

def resolve (name : String) : Value := (s.lookup? name).getD (.error (.unresolvedIdentifier name))

end Scope

end LispCalc
