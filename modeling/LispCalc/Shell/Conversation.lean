import LispCalc.Session
import LispCalc.Text.Backspace

namespace LispCalc.Shell

structure Output where
  out : String
  err : String

namespace Output

def empty : Output := ⟨"", ""⟩

def toOut (s : String) : Output := ⟨s ++ "\n", ""⟩

def toErr (s : String) : Output := ⟨"", s ++ "\n"⟩

def append (a b : Output) : Output := ⟨a.out ++ b.out, a.err ++ b.err⟩

end Output

structure Outcome where
  exit : Nat
  output : Output

def Outcome.behind (r : Outcome) (o : Output) : Outcome := ⟨r.exit, o.append r.output⟩

def report : Value → Output
  | .error e => .toErr e.message
  | v => .toOut v.text

def greeting : Output :=
  ⟨"varlisp v0.1.0\nType expressions to evaluate, or (exit) to quit\n\n", ""⟩

structure Conversation where
  session : Session
  pending : List Char

namespace Conversation

def start (s : Session) : Conversation := ⟨s, []⟩

def isExit (s : List Char) : Bool := s == "exit".toList || s == "(exit)".toList

/-- Answers a complete text; none means that it ends the conversation. -/
def answer? (s : Session) (text : List Char) : Option Output :=
  let input := Text.trim text
  if input.isEmpty then some .empty
  else if isExit input then none
  else
    match s.eval input with
    | .ok v => some (report v)
    | .error e => some (.toErr e.message)

def splitEnding (line : List Char) : List Char × List Char :=
  match line.reverse with
  | '\n' :: '\r' :: r => (r.reverse, ['\r', '\n'])
  | '\n' :: r => (r.reverse, ['\n'])
  | r => (r.reverse, [])

inductive Step where
  | goesOn (next : Conversation) (o : Output)
  | ends
  /-- A backspace in the line would cut a character in two. -/
  | breaksOff

/-- Takes in a line with its ending. A text that is not complete waits for the next line. -/
def step (c : Conversation) (line : List Char) : Step :=
  let (text, ending) := splitEnding (c.pending ++ line)
  match Text.applyBackspaces? text with
  | none => .breaksOff
  | some text =>
    if Expr.isIncomplete c.session.policy text then
      .goesOn { c with pending := text ++ ending } .empty
    else
      match answer? c.session text with
      | some o => .goesOn { c with pending := [] } o
      | none => .ends

def ended : Outcome := ⟨0, .empty⟩

/-- The exit code is that of a fault of the line reader, and the text stands for its report, which
is left out. -/
def brokenOff : Outcome := ⟨101, .toErr "a backspace cuts a character in two"⟩

def run (c : Conversation) : List (List Char) → Outcome
  | [] => ended
  | line :: lines =>
    match c.step line with
    | .goesOn c o => (run c lines).behind o
    | .ends => ended
    | .breaksOff => brokenOff

end Conversation

/-- The lines of a text, each with the newline that ends it, behind the characters of the first line
already seen in reverse. -/
def linesFrom (seen : List Char) : List Char → List (List Char)
  | [] => if seen.isEmpty then [] else [seen.reverse]
  | '\n' :: r => ('\n' :: seen).reverse :: linesFrom [] r
  | c :: r => linesFrom (c :: seen) r

def lines (s : List Char) : List (List Char) := linesFrom [] s

end LispCalc.Shell
