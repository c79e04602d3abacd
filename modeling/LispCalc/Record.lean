import LispCalc.Session

namespace LispCalc

inductive Record where
  | token (t : Token)
  /-- The lexer cannot go on at an offset. -/
  | stopped (offset : Nat)
  | resolved (name : String) (kind : Kind)
  | unresolved (name : String)
  | calling (name : String) (count : Nat)
  | registering (l : Library)
  | defining (d : Definition)

namespace Record

inductive Level where
  | trace
  | debug
deriving DecidableEq

def Level.label : Level → String
  | trace => "TRACE"
  | debug => "DEBUG"

def level : Record → Level
  | calling _ _ | defining _ => .debug
  | _ => .trace

def message : Record → String
  | token t =>
    "token " ++ t.kind.label ++ " " ++ quoteChars t.text ++ " at " ++ Decimal.text t.start ++ ".."
      ++ Decimal.text t.stop
  | stopped offset => "lexer stopped at offset " ++ Decimal.text offset
  | resolved name kind => "resolved " ++ name ++ " to " ++ kind.name
  | unresolved name => "unresolved identifier " ++ name
  | calling name count => "calling " ++ name ++ " with " ++ Decimal.text count ++ " arguments"
  | registering l => "registering library " ++ l.name
  | defining d => "defining " ++ d.name ++ " as " ++ d.value.written

end Record

/-- What the lexer notes each time it is asked for a token at the place where it ends. -/
def Cursor.stopRecords (c : Cursor) : List Record :=
  if c.hasMoreText then [.stopped c.position] else []

def lexRecords (p : SlashPolicy) (source : List Char) : List Record :=
  let (ts, final) := lex p source
  ts.map .token ++ final.stopRecords

def Scope.resolveRecord (s : Scope) (name : String) : Record :=
  match s.lookup? name with
  | some v => .resolved name v.kind
  | none => .unresolved name

namespace Expr

/-- The tokens that are read until one that is no comment, and what the lexer notes if there is
none. -/
def probeRecords (rest : List Token) (final : Cursor) : List Record :=
  let comments := rest.takeWhile Token.isComment
  (comments ++ (rest.drop comments.length).take 1).map .token
    ++ (if comments.length = rest.length then final.stopRecords else [])

/-- The records of reading a text as one expression. No token is read behind the one that decides
the result. -/
def parseRecords (p : SlashPolicy) (source : List Char) : List Record :=
  let (ts, final) := lex p source
  let (result, rest) := read [] ts
  let taken : List Record := (ts.take (ts.length - rest.length)).map .token
  match result with
  | .error .unclosedList => taken ++ final.stopRecords
  | .error _ => taken
  | .ok .null => taken ++ final.stopRecords ++ final.stopRecords
  | .ok _ => taken ++ probeRecords rest final

mutual

/-- The records of evaluating an expression inside `depth` lists: one for each name in the order of
the text, and one for each call behind those of its arguments. -/
def evalRecordsAt (hosts : Hosts) (s : Scope) (depth : Nat) : Expr → List Record
  | null => []
  | atom _ v =>
    match v with
    | .identifier name => [s.resolveRecord name]
    | _ => []
  | list es =>
    if depth = nestingLimit then []
    else
      match es with
      | [] => []
      | head :: args =>
        evalRecordsAt hosts s (depth + 1) head ++
          match evaluateAt hosts s (depth + 1) head with
          | .function f =>
            evalRecordsArgs hosts s (depth + 1) args ++ [.calling f.name args.length]
          | _ => []

def evalRecordsArgs (hosts : Hosts) (s : Scope) (depth : Nat) : List Expr → List Record
  | [] => []
  | e :: es => evalRecordsAt hosts (e.argumentScope s) depth e ++ evalRecordsArgs hosts s depth es

end

def evalRecords (hosts : Hosts) (e : Expr) (s : Scope) : List Record := evalRecordsAt hosts s 0 e

end Expr

def Definition.parseRecords (p : SlashPolicy) (text : List Char) : List Record :=
  match splitEquals? text with
  | none => []
  | some (name, literal) =>
    if (Text.trim name).isEmpty then [] else Expr.parseRecords p (Text.trim literal)

namespace Session

def defineRecords (s : Session) (text : List Char) : List Record :=
  Definition.parseRecords s.policy text ++
    match Definition.parse s.policy text with
    | .ok d => [.defining d]
    | .error _ => []

def evalRecords (s : Session) (text : List Char) : List Record :=
  Expr.parseRecords s.policy text ++
    match Expr.parse s.policy text with
    | .ok e => e.evalRecords .none s.root
    | .error _ => []

end Session

end LispCalc
