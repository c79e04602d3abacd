import LispCalc.Shell.Command

namespace LispCalc.Shell

def Output.write (o : Output) : IO Unit := do
  let out ← IO.getStdout
  let err ← IO.getStderr
  out.putStr o.out
  out.flush
  err.putStr o.err
  err.flush

def finish (r : Outcome) : IO UInt32 := do
  r.output.write
  return UInt32.ofNat r.exit

partial def Conversation.listen (c : Conversation) : IO UInt32 := do
  let line ← (← IO.getStdin).getLine
  if line.isEmpty then finish Conversation.ended
  else
    match c.step line.toList with
    | .goesOn c o =>
      o.write
      c.listen
    | .ends => finish Conversation.ended
    | .breaksOff => finish Conversation.brokenOff

def start (o : Options) : IO UInt32 := do
  match o.expression, defineAll (.start o.policy) o.definitions with
  | none, .ok s =>
    greeting.write
    (Conversation.start s).listen
  | _, _ => finish (runOptions o [])

end LispCalc.Shell

def main (args : List String) : IO UInt32 :=
  match LispCalc.Shell.Options.ofArgs? args with
  | some o => LispCalc.Shell.start o
  | none => LispCalc.Shell.finish LispCalc.Shell.misuse
