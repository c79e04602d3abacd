import LispCalc.Kind
import LispCalc.Text.Quoted
import LispCalc.Decimal.Digits

namespace LispCalc

/-- The deepest nesting of lists that is read from text and evaluated. -/
def nestingLimit : Nat := 256

inductive ParseError where
  | unclosedList
  | unopenedParen
  | trailingText
  | nestingTooDeep
deriving DecidableEq

def ParseError.message : ParseError → String
  | unclosedList => "parse error: unexpected end of string"
  | unopenedParen => "parse error: unexpected close paren"
  | trailingText => "parse error: unexpected trailing text"
  | nestingTooDeep => "parse error: lists nested deeper than " ++ Decimal.text nestingLimit

inductive Arity where
  | exactly (n : Nat)
  | atLeast (n : Nat)
  | atMost (n : Nat)
  | oneOrTwo
deriving DecidableEq

namespace Arity

def allows : Arity → Nat → Bool
  | exactly n, count => count == n
  | atLeast n, count => n ≤ count
  | atMost n, count => count ≤ n
  | oneOrTwo, count => count == 1 || count == 2

def text : Arity → String
  | exactly n => "exactly " ++ Decimal.text n
  | atLeast n => "at least " ++ Decimal.text n
  | atMost n => "at most " ++ Decimal.text n
  | oneOrTwo => "exactly 1 or 2"

end Arity

inductive EvalError where
  | unresolvedIdentifier (name : String)
  | functionNameNotFound (name : String)
  | arity (function : String) (expected : Arity)
  | forbiddenType (function : String) (kind : Kind)
  | unacceptableType (kind : Kind) (function : String)
  /-- Host data that a kind cannot hold. -/
  | inconsistentType (value : String) (kind : Kind)
  | type (actual target : Kind)
  | divideByZero
  | nestingTooDeep
  | host (message : String)
  | kindOutOfRange (tag : Nat)
deriving DecidableEq

namespace EvalError

def message : EvalError → String
  | unresolvedIdentifier name => "scope error: unresolved identifier " ++ Text.quote name
  | functionNameNotFound name =>
    "scope error: requested function " ++ Text.quote name ++ " not found"
  | arity function expected =>
    "arity error: expected " ++ expected.text ++ " arguments for " ++ Text.quote function
  | forbiddenType function kind =>
    "type error: argument to " ++ Text.quote function ++ " can never be of type \""
      ++ kind.name ++ "\""
  | unacceptableType kind function =>
    "type error: argument of unacceptable type \"" ++ kind.name ++ "\" passed to "
      ++ Text.quote function
  | inconsistentType value kind =>
    "type error: value [" ++ value ++ "] is inconsistent with type \"" ++ kind.name ++ "\""
  | type actual target =>
    "type error: cannot represent variant of type \"" ++ actual.name ++ "\" as \""
      ++ target.name ++ "\""
  | divideByZero => "math error: attempt to divide by zero"
  | nestingTooDeep => "eval error: expression nested deeper than " ++ Decimal.text nestingLimit
  | host message => message
  | kindOutOfRange tag => "dev error: variant kind tag " ++ Decimal.text tag ++ " is out of range"

end EvalError

def Kind.ofTag (tag : Nat) : Except EvalError Kind :=
  match ofTag? tag with
  | some k => .ok k
  | none => .error (.kindOutOfRange tag)

end LispCalc
