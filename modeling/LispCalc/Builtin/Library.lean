import LispCalc.Builtin.Basic
import LispCalc.Table

namespace LispCalc

inductive Library where
  | addition
  | logical
  | arithmetic
  | string
deriving DecidableEq

namespace Library

def name : Library → String
  | addition => "addition"
  | logical => "logical"
  | arithmetic => "arithmetic"
  | string => "string"

def functions : Library → List (String × Builtin)
  | addition => [("+", .plus)]
  | logical =>
    [("and", .and), ("&&", .and), ("or", .or), ("||", .or), ("nand", .nand), ("nor", .nor),
      ("xor", .xor), ("xnor", .xnor), ("not", .not), ("!", .not)]
  | arithmetic =>
    [("add", .add), ("+", .add), ("sub", .sub), ("-", .sub), ("mul", .mul), ("*", .mul),
      ("div", .div), ("/", .div), ("pow", .pow), ("^", .pow)]
  | string => [("concat", .concat), ("++", .concat)]

/-- Adds the functions of a library to a table, in place of those with the same names. -/
def inject (l : Library) (t : Table Builtin) : Table Builtin :=
  l.functions.foldl (fun t f => t.insert f.1 f.2) t

/-- The libraries of the default table. Arithmetic comes behind addition and takes over its name. -/
def all : List Library := [addition, logical, arithmetic, string]

def injectAll (t : Table Builtin) (ls : List Library) : Table Builtin :=
  ls.foldl (fun t l => l.inject t) t

def defaultTable : Table Builtin := injectAll .empty all

end Library

end LispCalc
