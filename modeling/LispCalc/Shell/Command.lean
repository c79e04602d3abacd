import LispCalc.Shell.Conversation
import LispCalc.Shell.Options

namespace LispCalc.Shell

def failure (message : String) : Outcome := ⟨1, .toErr ("Error: " ++ message)⟩

def defineAll (s : Session) : List (List Char) → Except DefinitionError Session
  | [] => .ok s
  | d :: ds => do
    let s ← s.define d
    defineAll s ds

def evalOnce (s : Session) (text : List Char) : Outcome :=
  match s.eval text with
  | .error e => failure e.message
  | .ok v =>
    if v.isError then ⟨1, (report v).append (failure "evaluation failed").output⟩ else ⟨0, report v⟩

def converse (s : Session) (input : List Char) : Outcome :=
  ((Conversation.start s).run (lines input)).behind greeting

/-- What the command writes and how it exits, but for the log that `debug` asks for. -/
def runOptions (o : Options) (input : List Char) : Outcome :=
  match defineAll (.start o.policy) o.definitions with
  | .error e => failure e.message
  | .ok s =>
    match o.expression with
    | some text => evalOnce s text
    | none => converse s input

/-- What is left of a command line that makes no sense, with the exit code of a usage error. The
text stands for the one that says what is wrong, which is left out. So are help and the version,
which would be written to the standard output with the exit code 0. -/
def misuse : Outcome := ⟨2, .toErr "error: the arguments are not understood"⟩

def run (args : List String) (input : String) : Outcome :=
  match Options.ofArgs? args with
  | some o => runOptions o input.toList
  | none => misuse

end LispCalc.Shell
