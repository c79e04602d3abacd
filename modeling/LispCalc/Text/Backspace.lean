import LispCalc.Text.Bytes
import LispCalc.Text.Cluster

namespace LispCalc.Text

/-- A text under entry, last character first, and the bytes that each coming backspace takes
back. -/
structure Entry where
  text : List Char
  sizes : List Nat

namespace Entry

def empty : Entry := ⟨[], []⟩

/-- Adds what a user sees as one character. Its size is kept in a single byte, so a backspace takes
back only the end of a cluster of 256 bytes or more. -/
def add (e : Entry) (cluster : List Char) : Entry :=
  ⟨cluster.reverse ++ e.text, byteLength cluster % 256 :: e.sizes⟩

/-- Takes back what the last size says. It cannot cut a character in two. -/
def back? (e : Entry) : Option Entry :=
  match e.sizes with
  | [] => some e
  | n :: ns => (dropBytes? n e.text).map (⟨·, ns⟩)

def enter? (e : Entry) (cluster : List Char) : Option Entry :=
  if cluster == ['\x08'] then e.back? else some (e.add cluster)

end Entry

/-- What is left when every backspace has taken back the character before it; none if one of them
would cut a character in two. -/
def applyBackspaces? (s : List Char) : Option (List Char) :=
  if s.contains '\x08' then ((clusters s).foldlM Entry.enter? .empty).map (·.text.reverse)
  else some s

end LispCalc.Text
