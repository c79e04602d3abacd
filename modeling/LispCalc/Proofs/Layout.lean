import LispCalc.Proofs.RoundTrip

namespace LispCalc

def Blanks (w : List Char) : Prop := ∀ c ∈ w, Text.isBlank c = true

instance : DecidablePred Blanks := fun w => List.decidableBAll _ w

/-- Blanks in place of others. Where there are some, some have to stay. -/
structure Respaced (w w' : List Char) : Prop where
  before : Blanks w
  after : Blanks w'
  keeps : w ≠ [] → w' ≠ []

/-- The second text is the first one with other blanks around its tokens and with a blank in place
of some of its comments. What is left behind the last token is the same. -/
inductive Relaid (p : SlashPolicy) : List Char → List Char → Prop where
  | finish {w w' r : List Char} : Respaced w w' → lexeme? p r = none → Text.trimStart r = r →
      Relaid p (w ++ r) (w' ++ r)
  | token {w w' t u u' : List Char} {k : TokenKind} : Respaced w w' →
      lexeme? p (t ++ u) = some (k, t, u) → Relaid p u u' →
      Relaid p (w ++ (t ++ u)) (w' ++ (t ++ u'))
  | comment {w w' t u u' : List Char} : Respaced w w' →
      lexeme? p (t ++ u) = some (.comment, t, u) → Relaid p u u' →
      Relaid p (w ++ (t ++ u)) (w' ++ ' ' :: u')

def BeginsLike (s s' : List Char) : Prop :=
  s'.head? = s.head? ∨ ∃ c, s'.head? = some c ∧ Text.isBlank c = true

variable {p : SlashPolicy} {s s' w w' t u u' r : List Char} {ls : List Lexeme}

theorem Respaced.beginsLike (h : Respaced w w') (hu : BeginsLike u u') :
    BeginsLike (w ++ u) (w' ++ u') := by
  cases w' with
  | nil =>
    have hw : w = [] := by
      by_contra hne
      exact h.keeps hne rfl
    rwa [hw]
  | cons c w' => exact .inr ⟨c, rfl, h.after c List.mem_cons_self⟩

theorem Respaced.refl (h : Blanks w) : Respaced w w := ⟨h, h, id⟩

theorem Respaced.insert (h : Blanks w) : Respaced [] w :=
  ⟨by simp [Blanks], h, fun hn => absurd rfl hn⟩

theorem not_quote_mem_blanks (h : Blanks w) : '"' ∉ w := fun hq => by
  have := h _ hq
  revert this
  decide

namespace Lexeme

def significant (ls : List Lexeme) : List Lexeme := ls.filter (·.kind != .comment)

variable {x : Lexeme}

theorem EndsBefore.of_beginsLike (h : x.EndsBefore p u) (hb : BeginsLike u u')
    (hq : '"' ∈ u' → '"' ∈ u) : x.EndsBefore p u' := by
  intro hk
  obtain ⟨hslash, hword, hquote⟩ := h hk
  refine ⟨?_, ?_, fun ho hm => hquote ho (hq hm)⟩
  · intro hs hstar
    obtain he | ⟨c, hc, hblank⟩ := hb
    · exact hslash hs (he ▸ hstar)
    · obtain rfl : c = '*' := by simpa [hc] using hstar
      revert hblank
      decide
  · intro hs
    obtain he | ⟨c, hc, hblank⟩ := hb
    · rw [he]
      exact hword hs
    · rw [hc]
      simp [SlashPolicy.isSeparator, hblank]

end Lexeme

theorem Lexes.blanks (hw : Blanks w) (h : Lexes p s ls r) : Lexes p (w ++ s) ls r := by
  induction w with
  | nil => exact h
  | cons c w ih =>
    rw [Blanks, List.forall_mem_cons] at hw
    exact (ih hw.2).blank hw.1

theorem Lexes.of_none (h : lexeme? p r = none) (ht : Text.trimStart r = r) : Lexes p r [] r := by
  rw [← ht] at h
  have hl := Lexes.stop h
  rwa [ht] at hl

namespace Relaid

theorem beginsLike (h : Relaid p s s') : BeginsLike s s' := by
  cases h with
  | finish hw => exact hw.beginsLike (.inl rfl)
  | @token w w' t u u' k hw ht =>
    have hne := lexeme?_ne_nil ht
    obtain ⟨c, t, rfl⟩ := List.exists_cons_of_ne_nil hne
    exact hw.beginsLike (.inl rfl)
  | comment hw => exact hw.beginsLike (.inr ⟨' ', rfl, by decide⟩)

theorem quote_mem (h : Relaid p s s') (hq : '"' ∈ s') : '"' ∈ s := by
  induction h with
  | finish hw =>
    have hm := (List.mem_append.mp hq).resolve_left (not_quote_mem_blanks hw.after)
    exact List.mem_append_right _ hm
  | token hw _ _ ih =>
    have hm := (List.mem_append.mp hq).resolve_left (not_quote_mem_blanks hw.after)
    obtain hm | hm := List.mem_append.mp hm
    · simp [hm]
    · simp [ih hm]
  | comment hw _ _ ih =>
    have hm := (List.mem_append.mp hq).resolve_left (not_quote_mem_blanks hw.after)
    have hu := (List.mem_cons.mp hm).resolve_left (by decide)
    simp [ih hu]

theorem lexes (h : Relaid p s s') : ∃ ls ls' r, Lexes p s ls r ∧ Lexes p s' ls' r ∧
    Lexeme.significant ls' = Lexeme.significant ls := by
  induction h with
  | finish hw hr ht =>
    have hl := Lexes.of_none hr ht
    exact ⟨[], [], _, hl.blanks hw.before, hl.blanks hw.after, rfl⟩
  | @token w w' t u u' k hw ht h ih =>
    obtain ⟨ls, ls', r, hl, hl', hls⟩ := ih
    obtain ⟨_, hshape, hends⟩ := lexeme?_sound ht
    -- what follows the token begins as before or with a blank, and has no quote that is new
    have hends' := hends.of_beginsLike h.beginsLike h.quote_mem
    refine ⟨⟨k, t⟩ :: ls, ⟨k, t⟩ :: ls', r, (hl.cons hshape hends).blanks hw.before,
      (hl'.cons hshape hends').blanks hw.after, ?_⟩
    simp only [Lexeme.significant, List.filter_cons] at hls ⊢
    rw [hls]
  | @comment w w' t u u' hw ht h ih =>
    obtain ⟨ls, ls', r, hl, hl', hls⟩ := ih
    obtain ⟨_, hshape, hends⟩ := lexeme?_sound ht
    refine ⟨⟨.comment, t⟩ :: ls, ls', r, (hl.cons hshape hends).blanks hw.before,
      (hl'.blank (by decide)).blanks hw.after, ?_⟩
    simpa [Lexeme.significant] using hls

end Relaid

namespace Expr

open Token

variable {opened : List (List Expr)} {ts us : List Token}

theorem map_lexeme_significant (ts : List Token) :
    (significant ts).map lexeme = Lexeme.significant (ts.map lexeme) := by
  rw [significant, Lexeme.significant, List.filter_map]
  rfl

theorem read_congr (opened : List (List Expr)) (h : us.map lexeme = ts.map lexeme) :
    (read opened us).1 = (read opened ts).1 ∧
      (read opened us).2.map lexeme = (read opened ts).2.map lexeme := by
  -- nothing of a token but its kind and its text is looked at
  induction ts generalizing opened us with
  | nil =>
    rw [List.map_nil, List.map_eq_nil_iff] at h
    subst h
    exact ⟨rfl, rfl⟩
  | cons t ts ih =>
    rw [List.map_cons, List.map_eq_cons_iff] at h
    obtain ⟨u, us, rfl, hu, h⟩ := h
    have hk : u.kind = t.kind := congrArg Lexeme.kind hu
    obtain ht | ht | ht | ht := t.kind_cases
    · rw [read_comment ht, read_comment (hk.trans ht)]
      exact ih opened h
    · by_cases hl : opened.length = nestingLimit
      · rw [read_tooDeep ht hl, read_tooDeep (hk.trans ht) hl]
        exact ⟨rfl, h⟩
      · rw [read_open ht hl, read_open (hk.trans ht) hl]
        exact ih _ h
    · obtain _ | ⟨es, _ | ⟨fs, outer⟩⟩ := opened
      · rw [read_unopened ht, read_unopened (hk.trans ht)]
        exact ⟨rfl, h⟩
      · rw [read_last ht, read_last (hk.trans ht)]
        exact ⟨rfl, h⟩
      · rw [read_close ht, read_close (hk.trans ht)]
        exact ih _ h
    · have hua : u.IsAtom := by rwa [Token.IsAtom, hk]
      cases opened with
      | nil =>
        rw [Expr.read_single ht, Expr.read_single hua, ofToken_congr hu]
        exact ⟨rfl, h⟩
      | cons es outer =>
        rw [read_atom ht, read_atom hua, ofToken_congr hu]
        exact ih _ h

theorem all_isComment_congr (h : us.map lexeme = ts.map lexeme) :
    us.all isComment = ts.all isComment := by
  have hall (vs : List Token) : vs.all isComment = (vs.map lexeme).all (·.kind == .comment) := by
    rw [List.all_map]
    rfl
  rw [hall, hall, h]

theorem ofTokens_congr (stuck : Bool)
    (h : (significant us).map lexeme = (significant ts).map lexeme) :
    ofTokens us stuck = ofTokens ts stuck := by
  rw [← ofTokens_significant us, ← ofTokens_significant ts, ofTokens, ofTokens]
  obtain ⟨hresult, hrest⟩ := read_congr [] h
  cases hu : read [] (significant us) with
  | mk result rest =>
    cases ht : read [] (significant ts) with
    | mk result' rest' =>
      rw [hu, ht] at hresult hrest
      dsimp only at hresult hrest
      subst hresult
      cases result with
      | error e => rfl
      | ok e => simp only [all_isComment_congr hrest]

theorem parse_congr {ls' : List Lexeme} {r' : List Char} (hl : Lexes p s ls r)
    (hl' : Lexes p s' ls' r') (hls : Lexeme.significant ls' = Lexeme.significant ls)
    (hr : r'.any (!Text.isBlank ·) = r.any (!Text.isBlank ·)) : parse p s' = parse p s := by
  obtain ⟨hlex, hrest⟩ := lex_eq_of_lexes hl
  obtain ⟨hlex', hrest'⟩ := lex_eq_of_lexes hl'
  have hstuck : (lex p s').2.hasMoreText = (lex p s).2.hasMoreText := by
    rw [Cursor.hasMoreText, Cursor.hasMoreText, hrest, hrest', hr]
  rw [parse_eq_ofTokens, parse_eq_ofTokens, hstuck]
  apply ofTokens_congr
  rw [map_lexeme_significant, map_lexeme_significant, hlex, hlex', hls]

/-- Neither blanks nor comments make a difference to what a text is read as, or to why it is not
read. -/
theorem parse_eq_of_relaid (h : Relaid p s s') : parse p s' = parse p s := by
  obtain ⟨ls, ls', r, hl, hl', hls⟩ := h.lexes
  exact parse_congr hl hl' hls rfl

/-- The first comment takes a quote with it, and the one behind it has no partner all the same. The
second comment has no close. -/
theorem relaid_mixed :
    Relaid .separates "(a/* \" */\"b )/*".toList "(\n a \"b\t) /*".toList := by
  have hnone : Respaced [] [] := .refl (by decide)
  have hend : Relaid .separates ['/', '*'] [' ', '/', '*'] :=
    @Relaid.finish _ [] [' '] ['/', '*'] (.insert (by decide)) rfl rfl
  have hclose : Relaid .separates " )/*".toList "\t) /*".toList :=
    @Relaid.token _ [' '] ['\t'] [')'] _ _ .closeParen ⟨by decide, by decide, by simp⟩ rfl hend
  have hquote : Relaid .separates "\"b )/*".toList "\"b\t) /*".toList :=
    @Relaid.token _ [] [] ['"', 'b'] _ _ .symbol hnone rfl hclose
  have hcomment : Relaid .separates "/* \" */\"b )/*".toList " \"b\t) /*".toList :=
    @Relaid.comment _ [] [] "/* \" */".toList _ _ hnone rfl hquote
  have ha : Relaid .separates "a/* \" */\"b )/*".toList "\n a \"b\t) /*".toList :=
    @Relaid.token _ [] ['\n', ' '] ['a'] _ _ .symbol (.insert (by decide)) rfl hcomment
  exact @Relaid.token _ [] [] ['('] _ _ .openParen hnone rfl ha

theorem parse_eq_of_relaid_mixed :
    Relaid .separates "(a/* \" */\"b )/*".toList "(\n a \"b\t) /*".toList ∧
      parse .separates "(\n a \"b\t) /*".toList =
        parse .separates "(a/* \" */\"b )/*".toList :=
  ⟨relaid_mixed, parse_eq_of_relaid relaid_mixed⟩

end Expr

end LispCalc
