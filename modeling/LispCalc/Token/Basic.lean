import LispCalc.Text.Bytes

namespace LispCalc

/-- The classes of token. Those that bracket the others never come from a text. -/
inductive TokenKind where
  | start
  | openParen
  | closeParen
  | comment
  | quoted
  | symbol
  | finish
  | unknown
deriving DecidableEq

namespace TokenKind

def ofIndex : Nat → TokenKind
  | 0 => start
  | 1 => openParen
  | 2 => closeParen
  | 3 => comment
  | 4 => quoted
  | 5 => symbol
  | 6 => finish
  | _ => unknown

def label : TokenKind → String
  | start => "BEGIN"
  | openParen => "LPAREN"
  | closeParen => "RPAREN"
  | comment => "COMMENT"
  | quoted => "QUOTEDSTRING"
  | symbol => "SYMBOL"
  | finish => "END"
  | unknown => "UNKNOWN"

end TokenKind

/-- A piece of a source text with the byte offset where it starts. -/
structure Token where
  kind : TokenKind
  start : Nat
  text : List Char
deriving DecidableEq

namespace Token

def stop (t : Token) : Nat := t.start + Text.byteLength t.text

def isComment (t : Token) : Bool := t.kind == .comment

end Token

end LispCalc
