import LispCalc.Expr.Basic
import LispCalc.Literal
import LispCalc.Token.Lexer

namespace LispCalc.Expr

def ofToken (t : Token) : Expr :=
  match t.kind with
  | .quoted => atom t.text (.string (String.ofList t.text.tail.dropLast))
  | _ => atom t.text (Literal.classify t.text)

/-- Reads one expression and tells what tokens it leaves. `opened` holds the children read so far of
every list that is open, last first, the innermost list first. No token at all is the null
expression. -/
def read : (opened : List (List Expr)) → List Token → Except ParseError Expr × List Token
  | [], [] => (.ok null, [])
  | _ :: _, [] => (.error .unclosedList, [])
  | opened, t :: ts =>
    match t.kind with
    | .comment => read opened ts
    | .openParen =>
      if opened.length = nestingLimit then (.error .nestingTooDeep, ts) else read ([] :: opened) ts
    | .closeParen =>
      match opened with
      | [] => (.error .unopenedParen, ts)
      | [es] => (.ok (list es.reverse), ts)
      | es :: fs :: outer => read ((list es.reverse :: fs) :: outer) ts
    | _ =>
      match opened with
      | [] => (.ok (ofToken t), ts)
      | es :: outer => read ((ofToken t :: es) :: outer) ts

/-- The one expression that tokens spell. With `stuck`, the text goes on behind the last of them. -/
def ofTokens (ts : List Token) (stuck : Bool) : Except ParseError Expr :=
  match read [] ts with
  | (.error e, _) => .error e
  | (.ok e, rest) => if !rest.all Token.isComment || stuck then .error .trailingText else .ok e

def parse (p : SlashPolicy) (source : List Char) : Except ParseError Expr :=
  let (ts, final) := lex p source
  ofTokens ts final.hasMoreText

def isIncomplete (p : SlashPolicy) (source : List Char) : Bool :=
  match parse p source with
  | .error .unclosedList => true
  | _ => false

end LispCalc.Expr
