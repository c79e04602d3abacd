import LispCalc.Text.Blank
import LispCalc.Token.Basic

namespace LispCalc

/-- What a slash does to a symbol: it can be a part of one, or stand between two as a symbol of its
own. -/
inductive SlashPolicy where
  | joins
  | separates
deriving DecidableEq

def SlashPolicy.isSeparator (p : SlashPolicy) (c : Char) : Bool :=
  Text.isBlank c || c == '(' || c == ')' || (p == .separates && c == '/')

/-- A place in a source text: a byte offset, and the characters from there on. -/
structure Cursor where
  position : Nat
  rest : List Char

/-- A text up to and with the first `*/`, behind the characters already seen in reverse, and what
follows it. -/
def throughClose? (seen : List Char) : List Char → Option (List Char × List Char)
  | '*' :: '/' :: r => some (('/' :: '*' :: seen).reverse, r)
  | c :: r => throughClose? (c :: seen) r
  | [] => none

def quoted? : List Char → Option (List Char × List Char)
  | '"' :: r =>
    match r.dropWhile (· != '"') with
    | q :: rest => some ('"' :: r.takeWhile (· != '"') ++ [q], rest)
    | [] => none
  | _ => none

/-- As many characters as there are without a separator, or a slash that separates. -/
def symbol? (p : SlashPolicy) (s : List Char) : Option (List Char × List Char) :=
  match p, s with
  | .separates, '/' :: r => some (['/'], r)
  | p, s =>
    let text := s.takeWhile (!p.isSeparator ·)
    if text.isEmpty then none else some (text, s.dropWhile (!p.isSeparator ·))

/-- The token at the front of a text, and what follows it. An open comment without a close is none;
a double quote without a partner begins a symbol. -/
def lexeme? (p : SlashPolicy) : List Char → Option (TokenKind × List Char × List Char)
  | '(' :: r => some (.openParen, ['('], r)
  | ')' :: r => some (.closeParen, [')'], r)
  | '/' :: '*' :: r => (throughClose? ['*', '/'] r).map fun t => (.comment, t)
  | s =>
    match quoted? s with
    | some t => some (.quoted, t)
    | none => (symbol? p s).map fun t => (.symbol, t)

namespace Cursor

def ofText (s : List Char) : Cursor := ⟨0, s⟩

def skipBlanks (c : Cursor) : Cursor :=
  ⟨c.position + Text.byteLength (c.rest.takeWhile Text.isBlank), c.rest.dropWhile Text.isBlank⟩

def hasMoreText (c : Cursor) : Bool := c.rest.any (!Text.isBlank ·)

def next (p : SlashPolicy) (c : Cursor) : Option Token × Cursor :=
  let c := c.skipBlanks
  match lexeme? p c.rest with
  | none => (none, c)
  | some (kind, text, rest) =>
    (some ⟨kind, c.position, text⟩, ⟨c.position + Text.byteLength text, rest⟩)

end Cursor

theorem throughClose?_append {seen s t r : List Char} (h : throughClose? seen s = some (t, r)) :
    t ++ r = seen.reverse ++ s := by
  fun_induction throughClose? seen s with
  | case1 seen r' =>
    simp only [Option.some.injEq, Prod.mk.injEq] at h
    obtain ⟨rfl, rfl⟩ := h
    simp
  | case2 seen c r' _ ih => simpa using ih h
  | case3 => simp at h

theorem length_throughClose? {seen s t r : List Char} (h : throughClose? seen s = some (t, r)) :
    r.length < s.length := by
  fun_induction throughClose? seen s with
  | case1 seen r' =>
    simp only [Option.some.injEq, Prod.mk.injEq] at h
    obtain ⟨rfl, rfl⟩ := h
    simp only [List.length_cons]; omega
  | case2 seen c r' _ ih =>
    have := ih h
    simp only [List.length_cons]; omega
  | case3 => simp at h

theorem quoted?_append {s t r : List Char} (h : quoted? s = some (t, r)) : t ++ r = s := by
  unfold quoted? at h
  split at h
  · rename_i s
    split at h
    · rename_i q rest hq
      simp only [Option.some.injEq, Prod.mk.injEq] at h
      obtain ⟨rfl, rfl⟩ := h
      have := List.takeWhile_append_dropWhile (p := (· != '"')) (l := s)
      rw [hq] at this
      simp [this]
    · simp at h
  · simp at h

theorem symbol?_append {p : SlashPolicy} {s t r : List Char} (h : symbol? p s = some (t, r)) :
    t ++ r = s := by
  unfold symbol? at h
  split at h
  · simp only [Option.some.injEq, Prod.mk.injEq] at h
    obtain ⟨rfl, rfl⟩ := h
    rfl
  · dsimp only at h
    split at h
    · simp at h
    · simp only [Option.some.injEq, Prod.mk.injEq] at h
      obtain ⟨rfl, rfl⟩ := h
      exact List.takeWhile_append_dropWhile

theorem quoted?_ne_nil {s t r : List Char} (h : quoted? s = some (t, r)) : t ≠ [] := by
  unfold quoted? at h
  split at h
  · split at h
    · simp only [Option.some.injEq, Prod.mk.injEq] at h
      obtain ⟨rfl, _⟩ := h
      simp
    · simp at h
  · simp at h

theorem symbol?_ne_nil {p : SlashPolicy} {s t r : List Char} (h : symbol? p s = some (t, r)) :
    t ≠ [] := by
  unfold symbol? at h
  split at h
  · simp only [Option.some.injEq, Prod.mk.injEq] at h
    obtain ⟨rfl, _⟩ := h
    simp
  · dsimp only at h
    split at h
    · simp at h
    · rename_i hne
      simp only [Option.some.injEq, Prod.mk.injEq] at h
      obtain ⟨rfl, _⟩ := h
      simpa using hne

theorem lexeme?_append {p : SlashPolicy} {s t r : List Char} {k : TokenKind}
    (h : lexeme? p s = some (k, t, r)) : t ++ r = s := by
  unfold lexeme? at h
  split at h
  · simp only [Option.some.injEq, Prod.mk.injEq] at h
    obtain ⟨_, rfl, rfl⟩ := h
    rfl
  · simp only [Option.some.injEq, Prod.mk.injEq] at h
    obtain ⟨_, rfl, rfl⟩ := h
    rfl
  · simp only [Option.map_eq_some_iff, Prod.mk.injEq] at h
    obtain ⟨⟨t', r'⟩, ht, _, rfl, rfl⟩ := h
    simpa using throughClose?_append ht
  · split at h
    · rename_i q hq
      simp only [Option.some.injEq, Prod.mk.injEq] at h
      obtain ⟨_, rfl⟩ := h
      exact quoted?_append hq
    · simp only [Option.map_eq_some_iff, Prod.mk.injEq] at h
      obtain ⟨⟨t', r'⟩, ht, _, rfl, rfl⟩ := h
      exact symbol?_append ht

theorem lexeme?_ne_nil {p : SlashPolicy} {s t r : List Char} {k : TokenKind}
    (h : lexeme? p s = some (k, t, r)) : t ≠ [] := by
  unfold lexeme? at h
  split at h
  · simp only [Option.some.injEq, Prod.mk.injEq] at h
    obtain ⟨_, rfl, _⟩ := h
    simp
  · simp only [Option.some.injEq, Prod.mk.injEq] at h
    obtain ⟨_, rfl, _⟩ := h
    simp
  · simp only [Option.map_eq_some_iff, Prod.mk.injEq] at h
    obtain ⟨⟨t', r'⟩, ht, _, rfl, rfl⟩ := h
    have ha := throughClose?_append ht
    have hl := length_throughClose? ht
    intro hn
    rw [hn, List.nil_append] at ha
    rw [ha] at hl
    simp only [List.length_append, List.length_reverse] at hl
    omega
  · split at h
    · rename_i q hq
      simp only [Option.some.injEq, Prod.mk.injEq] at h
      obtain ⟨_, rfl⟩ := h
      exact quoted?_ne_nil hq
    · simp only [Option.map_eq_some_iff, Prod.mk.injEq] at h
      obtain ⟨⟨t', r'⟩, ht, _, rfl, rfl⟩ := h
      exact symbol?_ne_nil ht

theorem lexeme?_length {p : SlashPolicy} {s t r : List Char} {k : TokenKind}
    (h : lexeme? p s = some (k, t, r)) : r.length < s.length := by
  have hl := congrArg List.length (lexeme?_append h)
  have hp := List.length_pos_iff.mpr (lexeme?_ne_nil h)
  simp only [List.length_append] at hl
  omega

namespace Cursor

theorem length_skipBlanks (c : Cursor) : c.skipBlanks.rest.length ≤ c.rest.length :=
  (List.dropWhile_sublist _).length_le

theorem length_next {p : SlashPolicy} {c c' : Cursor} {t : Token} (h : c.next p = (some t, c')) :
    c'.rest.length < c.rest.length := by
  unfold next at h
  dsimp only at h
  split at h
  · simp at h
  · rename_i k text rest hx
    simp only [Prod.mk.injEq] at h
    obtain ⟨_, rfl⟩ := h
    have := lexeme?_length hx
    have := c.length_skipBlanks
    simp only
    omega

/-- All tokens from a place on, behind those already seen in reverse, and the place where they
end. -/
def tokensFrom (p : SlashPolicy) (seen : List Token) (c : Cursor) : List Token × Cursor :=
  match h : c.next p with
  | (none, c') => (seen.reverse, c')
  | (some t, c') =>
    have : c'.rest.length < c.rest.length := length_next h
    tokensFrom p (t :: seen) c'
termination_by c.rest.length

end Cursor

def lex (p : SlashPolicy) (s : List Char) : List Token × Cursor :=
  (Cursor.ofText s).tokensFrom p []

end LispCalc
