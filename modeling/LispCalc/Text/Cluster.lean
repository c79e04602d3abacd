import LispCalc.Text.Conjunct
import LispCalc.Text.Extending
import LispCalc.Text.Pictographic
import LispCalc.Text.Spacing

namespace LispCalc.Text

/-- The classes of character that decide where a user sees one character end and the next begin. -/
inductive Cluster where
  | carriageReturn
  | lineFeed
  | control
  | extend
  | joiner
  | spacing
  | prepend
  | regional
  | pictographic
  | leading
  | vowel
  | trailing
  | openSyllable
  | closedSyllable
  | other
deriving DecidableEq

namespace Cluster

def controlRanges : Ranges :=
  [(0x00, 0x1F), (0x7F, 0x9F), (0xAD, 0xAD), (0x61C, 0x61C), (0x180E, 0x180E), (0x200B, 0x200B),
   (0x200E, 0x200F), (0x2028, 0x202E), (0x2060, 0x206F), (0xFEFF, 0xFEFF), (0xFFF0, 0xFFFB),
   (0x13430, 0x1343F), (0x1BCA0, 0x1BCA3), (0x1D173, 0x1D17A), (0xE0000, 0xE001F),
   (0xE0080, 0xE00FF), (0xE01F0, 0xE0FFF)]

def prependRanges : Ranges :=
  [(0x600, 0x605), (0x6DD, 0x6DD), (0x70F, 0x70F), (0x890, 0x891), (0x8E2, 0x8E2), (0xD4E, 0xD4E),
   (0x110BD, 0x110BD), (0x110CD, 0x110CD), (0x111C2, 0x111C3), (0x113D1, 0x113D1),
   (0x1193F, 0x1193F), (0x11941, 0x11941), (0x11A84, 0x11A89), (0x11D46, 0x11D46),
   (0x11F02, 0x11F02)]

def vowelRanges : Ranges :=
  [(0x1160, 0x11A7), (0xD7B0, 0xD7C6), (0x16D63, 0x16D63), (0x16D67, 0x16D6A)]

def ofChar (c : Char) : Cluster :=
  let n := c.toNat
  if c == '\r' then carriageReturn
  else if c == '\n' then lineFeed
  else if 0x20 ≤ n && n < 0x7F then other
  else if n == 0x200D then joiner
  else if controlRanges.has c then control
  else if isExtending c || (0x1F3FB ≤ n && n ≤ 0x1F3FF) then extend
  else if isSpacing c then spacing
  else if prependRanges.has c then prepend
  else if 0x1F1E6 ≤ n && n ≤ 0x1F1FF then regional
  else if isPictographic c then pictographic
  else if (0x1100 ≤ n && n ≤ 0x115F) || (0xA960 ≤ n && n ≤ 0xA97C) then leading
  else if vowelRanges.has c then vowel
  else if (0x11A8 ≤ n && n ≤ 0x11FF) || (0xD7CB ≤ n && n ≤ 0xD7FB) then trailing
  else if 0xAC00 ≤ n && n ≤ 0xD7A3 then
    if (n - 0xAC00) % 28 == 0 then openSyllable else closedSyllable
  else other

def isControl : Cluster → Bool
  | carriageReturn | lineFeed | control => true
  | _ => false

def isConjunctMark (c : Char) : Bool :=
  c != '\u200C' && (ofChar c == extend || ofChar c == joiner)

def endsInLink (s : List Char) : Bool :=
  (s.takeWhile isConjunctMark).any isLinker && (s.dropWhile isConjunctMark).head?.any isConsonant

/-- Whether `c` continues a cluster of the characters `before`, last first. -/
def joins (before : List Char) (c : Char) : Bool :=
  match before with
  | [] => false
  | a :: r =>
    match ofChar a, ofChar c with
    | carriageReturn, lineFeed => true
    | a, extend | a, joiner | a, spacing => !a.isControl
    | prepend, b => !b.isControl
    | leading, leading | leading, vowel => true
    | leading, openSyllable | leading, closedSyllable => true
    | openSyllable, vowel | openSyllable, trailing => true
    | vowel, vowel | vowel, trailing => true
    | closedSyllable, trailing | trailing, trailing => true
    | joiner, pictographic =>
      (r.dropWhile (ofChar · == extend)).head?.map ofChar == some pictographic
    | regional, regional => (r.takeWhile (ofChar · == regional)).length % 2 == 0
    | _, other => isConsonant c && endsInLink (a :: r)
    | _, _ => false

end Cluster

/-- The characters as a user sees them, behind those already found; the last comes first, and so it
does in each of them. -/
def clustersOnto (found : List (List Char)) : List Char → List (List Char)
  | [] => found
  | c :: s =>
    match found with
    | g :: gs =>
      if Cluster.joins g c then clustersOnto ((c :: g) :: gs) s
      else clustersOnto ([c] :: g :: gs) s
    | [] => clustersOnto [[c]] s

def clusters (s : List Char) : List (List Char) := (clustersOnto [] s).reverse.map List.reverse

end LispCalc.Text
