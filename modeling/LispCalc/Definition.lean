import LispCalc.Decimal.Shortest
import LispCalc.Expr.Parser
import LispCalc.Value.Coercion

namespace LispCalc

inductive DefinitionError where
  | noEquals (definition : List Char)
  | emptyName (definition : List Char)
  | unreadable (e : ParseError)
  | notLiteral (identifier : String) (name : List Char)
  | notSingle (name : List Char) (e : Expr)

def quoteChars (s : List Char) : String := Text.quote (String.ofList s)

def DefinitionError.message : DefinitionError → String
  | noEquals d => "definition " ++ quoteChars d ++ " is not NAME=LITERAL"
  | emptyName d => "definition " ++ quoteChars d ++ " has an empty name"
  | unreadable e => e.message
  | notLiteral identifier name =>
    Value.identifierText identifier ++ " in definition of " ++ quoteChars name
      ++ " is not a literal"
  | notSingle name e =>
    "definition of " ++ quoteChars name ++ " must be a single literal, got "
      ++ String.ofList e.text

structure Definition where
  name : String
  value : Value

/-- A value as the log of definitions shows it: its kind, and its content without loss. -/
def Value.written (v : Value) : String :=
  let content := match v with
    | .float x => Decimal.pointed x
    | .string s => Text.quote s
    | .date t => t.exact
    | v => v.text
  v.kind.name ++ "(" ++ content ++ ")"

def splitEquals? (s : List Char) : Option (List Char × List Char) :=
  match s.dropWhile (· != '=') with
  | _ :: r => some (s.takeWhile (· != '='), r)
  | [] => none

def Definition.parse (p : SlashPolicy) (s : List Char) : Except DefinitionError Definition :=
  match splitEquals? s with
  | none => .error (.noEquals s)
  | some (name, literal) =>
    let name := Text.trim name
    if name.isEmpty then .error (.emptyName s)
    else
      match Expr.parse p (Text.trim literal) with
      | .error e => .error (.unreadable e)
      | .ok (.atom _ (.identifier identifier)) => .error (.notLiteral identifier name)
      | .ok (.atom _ v) => .ok ⟨String.ofList name, v⟩
      | .ok e => .error (.notSingle name e)

end LispCalc
