import LispCalc.Main
import LispCalc.Record
import LispCalc.Host
import LispCalc.Proofs.Lexeme
import LispCalc.Proofs.Lexing
import LispCalc.Proofs.Spelling
import LispCalc.Proofs.RoundTrip
import LispCalc.Proofs.Grammar
import LispCalc.Proofs.Environment
import LispCalc.Proofs.NestedList
import LispCalc.Proofs.Arguments
import LispCalc.Proofs.Screening
import LispCalc.Proofs.Calls
import LispCalc.Proofs.Bundled
import LispCalc.Proofs.Failure
import LispCalc.Proofs.ResultKind
import LispCalc.Proofs.Layout
import LispCalc.Proofs.Counter
import LispCalc.Proofs.Cut
import LispCalc.Proofs.Completion
import LispCalc.Proofs.Entry
import LispCalc.Proofs.Printable
import LispCalc.Proofs.LooseEnd
import LispCalc.Proofs.Zero
import LispCalc.Proofs.Precedence
import LispCalc.Proofs.Limit
import LispCalc.Proofs.Substitution
import LispCalc.Proofs.History
import LispCalc.Proofs.Tiling
import LispCalc.Proofs.Dependence
import LispCalc.Proofs.Naming
import LispCalc.Proofs.LongestMatch
import LispCalc.Proofs.IntegerLiteral
import LispCalc.Proofs.Rounding
import LispCalc.Proofs.Nearest
import LispCalc.Proofs.Overflow
import LispCalc.Proofs.LineBreak
import LispCalc.Proofs.LineEntry
import LispCalc.Proofs.Slashes
import LispCalc.Proofs.Reduction
import LispCalc.Proofs.Regrouping
import LispCalc.Proofs.Connective
import LispCalc.Proofs.Traversal
import LispCalc.Proofs.Digits
import LispCalc.Proofs.DayCount
import LispCalc.Proofs.Timestamp
import LispCalc.Proofs.DateText
import LispCalc.Proofs.SumOrJoin
import LispCalc.Proofs.HostData
import LispCalc.Proofs.Succession
import LispCalc.Proofs.DaySpelling
import LispCalc.Proofs.Scientific
import LispCalc.Proofs.Promotion
import LispCalc.Proofs.Injection
import LispCalc.Proofs.Shadowing
import LispCalc.Proofs.OneShot
