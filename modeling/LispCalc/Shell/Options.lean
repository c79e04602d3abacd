import LispCalc.Token.Lexer

namespace LispCalc.Shell

structure Options where
  policy : SlashPolicy
  /-- Whether a log of what is read and called is asked for. Its lines carry the time and stand
  between those of the answers; they are left out, so what a shell with this flag writes is not all
  here. -/
  debug : Bool
  expression : Option (List Char)
  definitions : List (List Char)

namespace Options

def initial : Options := ⟨.joins, false, none, []⟩

def setDebug (o : Options) : Option Options :=
  if o.debug then none else some { o with debug := true }

def setSeparates (o : Options) : Option Options :=
  if o.policy = .separates then none else some { o with policy := .separates }

def setExpression (o : Options) (s : List Char) : Option Options :=
  if o.expression.isSome then none else some { o with expression := some s }

def addDefinition (o : Options) (s : List Char) : Options :=
  { o with definitions := o.definitions ++ [s] }

/-- An argument that starts like an option is no value of the option before it. -/
def isValue : List Char → Bool
  | '-' :: _ :: _ => false
  | _ => true

/-- Ends the options. No argument may follow it. -/
def endMark : List Char := "--".toList

def evalMark : List Char := "--eval".toList

def defineMark : List Char := "--define".toList

def debugMark : List Char := "--debug".toList

def separatorMark : List Char := "--slash-separator".toList

def attached? (mark arg : List Char) : Option (List Char) :=
  if (mark ++ ['=']).isPrefixOf arg then some (arg.drop (mark.length + 1)) else none

/-- Letters behind a single dash. The letter `e` takes the rest of them as its value, or the next
argument if there is no rest; true means that it still waits for that. -/
def letters (o : Options) : List Char → Option (Options × Bool)
  | [] => some (o, false)
  | 'd' :: r => o.setDebug.bind fun o => letters o r
  | ['e'] => some (o, true)
  | 'e' :: '=' :: r => (o.setExpression r).map (·, false)
  | 'e' :: r => (o.setExpression r).map (·, false)
  | _ => none

/-- Reads arguments one after another; a command line that makes no sense is none. The flags that
ask for help and for the version are left out, and are none as well. -/
def read (o : Options) : List (List Char) → Option Options
  | [] => some o
  | arg :: args =>
    if arg = endMark then if args.isEmpty then some o else none
    else if arg = debugMark then o.setDebug.bind fun o => read o args
    else if arg = separatorMark then o.setSeparates.bind fun o => read o args
    else
      match attached? evalMark arg, attached? defineMark arg with
      | some v, _ => (o.setExpression v).bind fun o => read o args
      | _, some v => read (o.addDefinition v) args
      | none, none =>
        if arg = defineMark then
          match args with
          | v :: args => if isValue v then read (o.addDefinition v) args else none
          | [] => none
        else if arg = evalMark then
          match args with
          | v :: args =>
            if isValue v then (o.setExpression v).bind fun o => read o args else none
          | [] => none
        else
          match arg with
          | '-' :: c :: r =>
            match letters o (c :: r) with
            | some (o, false) => read o args
            | some (o, true) =>
              match args with
              | v :: args =>
                if isValue v then (o.setExpression v).bind fun o => read o args else none
              | [] => none
            | none => none
          | _ => none

def ofArgs? (args : List String) : Option Options := read initial (args.map String.toList)

end Options

end LispCalc.Shell
