import LispCalc.Proofs.Lexing
import LispCalc.Proofs.Spelling

namespace LispCalc

inductive Piece where
  | openParen
  | closeParen
  | raw (text : List Char)
deriving DecidableEq

namespace Token

def piece (t : Token) : Piece :=
  match t.kind with
  | .openParen => .openParen
  | .closeParen => .closeParen
  | _ => .raw t.text

/-- A quoted string stands for the text between its quotes, a symbol for what it is a literal of. -/
def StandsFor (t : Token) (v : Value) : Prop :=
  (t.kind = .quoted ∧
      ∃ inner, t.text = '"' :: (inner ++ ['"']) ∧ v = .string (String.ofList inner)) ∨
    (t.kind = .symbol ∧ v = Literal.classify t.text)

theorem piece_eq_openParen {t : Token} : t.piece = .openParen ↔ t.kind = .openParen := by
  cases hk : t.kind <;> simp [piece, hk]

theorem piece_eq_closeParen {t : Token} : t.piece = .closeParen ↔ t.kind = .closeParen := by
  cases hk : t.kind <;> simp [piece, hk]

theorem piece_eq_raw {t : Token} {text : List Char} :
    t.piece = .raw text ↔ t.text = text ∧ t.kind ≠ .openParen ∧ t.kind ≠ .closeParen := by
  cases hk : t.kind <;> simp [piece, hk]

theorem IsAtom.piece_eq {t : Token} (ht : t.IsAtom) : t.piece = .raw t.text :=
  piece_eq_raw.mpr ⟨rfl, ht.2⟩

end Token

open Token

namespace Expr

mutual

def flatten : Expr → List Piece
  | null => []
  | atom raw _ => [.raw raw]
  | list es => .openParen :: (flattenAll es ++ [.closeParen])

def flattenAll : List Expr → List Piece
  | [] => []
  | e :: es => e.flatten ++ flattenAll es

end

mutual

/-- Every leaf is an atom that comes from one of the tokens. -/
def LeavesFrom (ts : List Token) : Expr → Prop
  | null => False
  | atom raw v => ∃ t ∈ ts, t.text = raw ∧ t.StandsFor v
  | list es => LeavesFromAll ts es

def LeavesFromAll (ts : List Token) : List Expr → Prop
  | [] => True
  | e :: es => e.LeavesFrom ts ∧ LeavesFromAll ts es

end

variable {p : SlashPolicy} {s r : List Char} {e : Expr} {es : List Expr} {t : Token}
  {ts us : List Token} {ls : List Lexeme}

theorem flatten_ofToken (t : Token) : (ofToken t).flatten = [.raw t.text] := by
  obtain ⟨v, ht⟩ := exists_ofToken_eq_atom t
  rw [ht]
  rfl

theorem ofToken_eq_atom {v : Value} (h : t.StandsFor v) : ofToken t = atom t.text v := by
  obtain ⟨hk, inner, ht, rfl⟩ | ⟨hk, rfl⟩ := h
  · simp [ofToken, hk, ht]
  · simp [ofToken, hk]

theorem exists_standsFor (ht : t.IsAtom) (hs : t.lexeme.Shaped p) : ∃ v, t.StandsFor v := by
  obtain ⟨hc, ho, hl⟩ := ht
  cases hk : t.kind with
  | comment => exact absurd hk hc
  | openParen => exact absurd hk ho
  | closeParen => exact absurd hk hl
  | quoted =>
    have hq : Lexeme.IsQuoted t.text := by simpa only [Lexeme.Shaped, lexeme, hk] using hs
    obtain ⟨inner, _, htext⟩ := hq
    exact ⟨_, .inl ⟨hk, inner, htext, rfl⟩⟩
  | symbol => exact ⟨_, .inr ⟨hk, rfl⟩⟩
  | start | finish | unknown => simp [Lexeme.Shaped, lexeme, hk] at hs

theorem Spelled.flattenAll_eq (h : Spelled es ts) : flattenAll es = ts.map piece := by
  induction h with
  | nil => rfl
  | atom ht _ ih => simp [flattenAll, flatten_ofToken, ht.piece_eq, ih]
  | list ha hb _ _ ihf ih =>
    simp [flattenAll, flatten, piece_eq_openParen.mpr ha, piece_eq_closeParen.mpr hb, ihf, ih]

theorem Spelled.leavesFromAll (h : Spelled es us) (hs : ∀ t ∈ us, t.lexeme.Shaped p)
    (hm : ∀ t ∈ us, t ∈ ts) : LeavesFromAll ts es := by
  induction h with
  | nil => trivial
  | @atom t es us ht _ ih =>
    rw [List.forall_mem_cons] at hs hm
    obtain ⟨v, hv⟩ := exists_standsFor ht hs.1
    refine ⟨?_, ih hs.2 hm.2⟩
    rw [ofToken_eq_atom hv]
    exact ⟨t, hm.1, rfl, hv⟩
  | list _ _ _ _ ihf ih =>
    simp only [List.forall_mem_cons, List.forall_mem_append] at hs hm
    exact ⟨ihf hs.2.1 hm.2.1, ih hs.2.2.2 hm.2.2.2⟩

theorem spelled_of_flattenAll (hm : ∀ t ∈ us, t ∈ ts) (hl : LeavesFromAll ts es)
    (hf : flattenAll es = us.map piece)
    (h : ∀ e ∈ es, ∀ us : List Token, (∀ t ∈ us, t ∈ ts) → e.LeavesFrom ts →
      e.flatten = us.map piece → Spelled [e] us) : Spelled es us := by
  induction es generalizing us with
  | nil =>
    rw [flattenAll, eq_comm, List.map_eq_nil_iff] at hf
    subst hf
    exact .nil
  | cons e es ih =>
    rw [flattenAll, eq_comm, List.map_eq_append_iff] at hf
    obtain ⟨vs, ws, rfl, hvs, hws⟩ := hf
    rw [List.forall_mem_append] at hm
    rw [List.forall_mem_cons] at h
    have he := h.1 vs hm.1 hl.1 hvs.symm
    exact he.append (ih hm.2 hl.2 hws.symm h.2)

/-- The pieces of an expression leave no choice which of the tokens spell it. -/
theorem spelled_of_flatten (hs : ∀ t ∈ ts, t.lexeme.Shaped p) (hc : ∀ t ∈ ts, t.kind ≠ .comment)
    (hm : ∀ t ∈ us, t ∈ ts) (he : e.LeavesFrom ts) (hf : e.flatten = us.map piece) :
    Spelled [e] us := by
  induction e generalizing us with
  | null => exact he.elim
  | atom raw v =>
    obtain ⟨u, hu, rfl, hv⟩ := he
    rw [flatten, eq_comm, List.map_eq_cons_iff] at hf
    obtain ⟨t, us, rfl, ht, hus⟩ := hf
    rw [List.map_eq_nil_iff] at hus
    subst hus
    have htm := hm t List.mem_cons_self
    obtain ⟨htext, ho, hl⟩ := piece_eq_raw.mp ht
    have hk : t.kind = u.kind := (hs t htm).kind_eq (hs u hu) htext
    -- the token has the text of the leaf's token, so also its kind and what it stands for
    have htv : t.StandsFor v := by rwa [StandsFor, htext, hk]
    rw [← htext, ← ofToken_eq_atom htv]
    exact .atom ⟨hc t htm, ho, hl⟩ .nil
  | list es ih =>
    rw [flatten, eq_comm, List.map_eq_cons_iff] at hf
    obtain ⟨a, us, rfl, ha, hus⟩ := hf
    rw [List.map_eq_append_iff] at hus
    obtain ⟨vs, bs, rfl, hvs, hb⟩ := hus
    rw [List.map_eq_cons_iff] at hb
    obtain ⟨b, bs, rfl, hb, hbs⟩ := hb
    rw [List.map_eq_nil_iff] at hbs
    subst hbs
    rw [List.forall_mem_cons, List.forall_mem_append] at hm
    have hfs : Spelled es vs :=
      spelled_of_flattenAll hm.2.1 he hvs.symm fun e he us hm hl hf => ih e he hm hl hf
    exact .list (piece_eq_openParen.mp ha) (piece_eq_closeParen.mp hb) hfs .nil

end Expr

/-- Nothing but blanks and comments that are closed. -/
inductive Skippable : List Char → Prop where
  | nil : Skippable []
  | blank {c : Char} {s : List Char} : Text.isBlank c = true → Skippable s → Skippable (c :: s)
  | comment {t s : List Char} : Lexeme.IsComment t → Skippable s → Skippable (t ++ s)

namespace Skippable

variable {p : SlashPolicy} {s r : List Char} {ls : List Lexeme}

theorem of_blanks (h : ∀ c ∈ s, Text.isBlank c = true) : Skippable s := by
  induction s with
  | nil => exact .nil
  | cons c s ih =>
    rw [List.forall_mem_cons] at h
    exact .blank h.1 (ih h.2)

theorem of_trimStart (h : Skippable (Text.trimStart s)) : Skippable s := by
  induction s with
  | nil => exact .nil
  | cons c s ih =>
    cases hc : Text.isBlank c with
    | true => exact .blank hc (ih (by simpa [Text.trimStart, hc] using h))
    | false => simpa [Text.trimStart, hc] using h

theorem of_lexes (h : Lexes p s ls r) (hc : ∀ x ∈ ls, x.kind = .comment)
    (hr : ∀ c ∈ r, Text.isBlank c = true) : Skippable s := by
  induction h with
  | stop => exact of_trimStart (of_blanks hr)
  | @token s t u r k ls ht _ ih =>
    rw [List.forall_mem_cons] at hc
    obtain rfl : k = .comment := hc.1
    obtain ⟨hs, hshape, _⟩ := lexeme?_sound ht
    apply of_trimStart
    rw [hs]
    exact .comment hshape (ih hc.2 hr)

theorem lexes (p : SlashPolicy) (h : Skippable s) :
    ∃ ls, Lexes p s ls [] ∧ ∀ x ∈ ls, x.kind = .comment := by
  induction h with
  | nil => exact ⟨[], .nil, by simp⟩
  | blank hc _ ih =>
    obtain ⟨ls, hl, hk⟩ := ih
    exact ⟨ls, hl.blank hc, hk⟩
  | @comment t s ht _ ih =>
    obtain ⟨ls, hl, hk⟩ := ih
    have hx : Lexeme.Shaped p ⟨.comment, t⟩ := ht
    refine ⟨⟨.comment, t⟩ :: ls, hl.cons_of_ne_symbol hx nofun, ?_⟩
    rw [List.forall_mem_cons]
    exact ⟨rfl, hk⟩

end Skippable

namespace Expr

theorem parse_eq_null_iff {p : SlashPolicy} {s : List Char} :
    parse p s = .ok null ↔ Skippable s := by
  rw [parse_eq_ofTokens, ofTokens_eq_null_iff]
  have hlex := lex_lexes p s
  constructor
  · rintro ⟨hstuck, hnil⟩
    refine Skippable.of_lexes hlex ?_ (by simpa [Cursor.hasMoreText] using hstuck)
    intro x hx
    obtain ⟨t, ht, rfl⟩ := List.mem_map.mp hx
    by_contra hk
    have hm : t ∈ significant (lex p s).1 := mem_significant.mpr ⟨ht, hk⟩
    simp [hnil] at hm
  · intro h
    obtain ⟨ls, hl, hk⟩ := h.lexes p
    obtain ⟨rfl, hr⟩ := hlex.unique hl
    refine ⟨by simp [Cursor.hasMoreText, hr], ?_⟩
    refine List.eq_nil_iff_forall_not_mem.mpr fun t ht => ?_
    obtain ⟨htm, hc⟩ := mem_significant.mp ht
    exact hc (hk _ (List.mem_map_of_mem htm))

/-- The reader accepts its grammar and nothing else: the parentheses and texts of the expression
are those of the tokens, in order. -/
theorem parse_eq_ok_iff (p : SlashPolicy) (s : List Char) :
    (∀ e, parse p s = .ok e ∧ e ≠ null ↔
      (lex p s).2.hasMoreText = false ∧ e.nesting ≤ nestingLimit ∧
        e.LeavesFrom (significant (lex p s).1) ∧
        e.flatten = (significant (lex p s).1).map piece) ∧
    (parse p s = .ok null ↔ Skippable s) := by
  have hs : ∀ t ∈ significant (lex p s).1, t.lexeme.Shaped p := fun t ht =>
    (lex_lexes p s).shaped _ (List.mem_map_of_mem (mem_significant.mp ht).1)
  have hc : ∀ t ∈ significant (lex p s).1, t.kind ≠ .comment := fun t ht =>
    (mem_significant.mp ht).2
  refine ⟨fun e => ⟨?_, ?_⟩, parse_eq_null_iff⟩
  · rintro ⟨h, he⟩
    rw [parse_eq_ofTokens, ofTokens_eq_ok_iff he] at h
    obtain ⟨hstuck, hspell, hn⟩ := h
    refine ⟨hstuck, hn, (hspell.leavesFromAll hs fun _ ht => ht).1, ?_⟩
    simpa [flattenAll] using hspell.flattenAll_eq
  · rintro ⟨hstuck, hn, hl, hf⟩
    have hspell := spelled_of_flatten hs hc (fun _ ht => ht) hl hf
    refine ⟨?_, hspell.ne_null⟩
    rw [parse_eq_ofTokens, ofTokens_eq_ok_iff hspell.ne_null]
    exact ⟨hstuck, hspell, hn⟩

end Expr

end LispCalc
