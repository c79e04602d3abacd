import Mathlib
import LispCalc.Proofs.Lexing
import LispCalc.Proofs.Spelling

namespace LispCalc.Expr

open Token

variable {p : SlashPolicy} {e : Expr} {es : List Expr} {ts us : List Token} {ls : List Lexeme}
  {s after r : List Char}

theorem ofToken_congr {t u : Token} (h : t.lexeme = u.lexeme) : ofToken t = ofToken u := by
  simp only [lexeme, Lexeme.mk.injEq] at h
  simp only [ofToken, h.1, h.2]

theorem Spelled.congr (h : Spelled es ts) (hl : us.map lexeme = ts.map lexeme) :
    Spelled es us := by
  induction h generalizing us with
  | nil =>
    rw [List.map_nil, List.map_eq_nil_iff] at hl
    subst hl
    exact .nil
  | atom ht _ ih =>
    rw [List.map_cons, List.map_eq_cons_iff] at hl
    obtain ⟨u, us, rfl, hu, hl⟩ := hl
    rw [← ofToken_congr hu]
    refine .atom ?_ (ih hl)
    have hk := congrArg Lexeme.kind hu
    simp only [lexeme] at hk
    rwa [Token.IsAtom, hk]
  | list ha hb _ _ ihf ih =>
    rw [List.map_cons, List.map_append, List.map_cons, List.map_eq_cons_iff] at hl
    obtain ⟨a', us, rfl, ha', hl⟩ := hl
    rw [List.map_eq_append_iff] at hl
    obtain ⟨vs, ws, rfl, hvs, hl⟩ := hl
    rw [List.map_eq_cons_iff] at hl
    obtain ⟨b', ws, rfl, hb', hws⟩ := hl
    refine .list ?_ ?_ (ihf hvs) (ih hws)
    · exact (congrArg Lexeme.kind ha').trans ha
    · exact (congrArg Lexeme.kind hb').trans hb

/-- What stands behind an expression in the text of a list. -/
def gap : List Expr → List Char
  | [] => []
  | es => ' ' :: texts es

theorem texts_cons (e : Expr) (es : List Expr) : texts (e :: es) = e.text ++ gap es := by
  cases es with
  | nil => simp [texts, gap]
  | cons => simp [texts, gap]

theorem texts_eq_tail_gap (es : List Expr) : texts es = (gap es).tail := by
  cases es <;> rfl

theorem gap_cons (e : Expr) (es : List Expr) : gap (e :: es) = ' ' :: (e.text ++ gap es) := by
  rw [← texts_cons]
  rfl

theorem quote_mem_gap : '"' ∈ gap es ↔ '"' ∈ texts es := by
  cases es with
  | nil => simp [gap, texts]
  | cons e es => simp [gap]

theorem separator_gap (hsep : ∀ c ∈ after.head?, p.isSeparator c = true) :
    ∀ c ∈ (gap es ++ after).head?, p.isSeparator c = true := by
  cases es with
  | nil => exact hsep
  | cons e es =>
    intro c hc
    obtain rfl : ' ' = c := by simpa [gap] using hc
    rfl

theorem lexes_gap (h : Lexes p (texts es ++ after) ls r) : Lexes p (gap es ++ after) ls r := by
  cases es with
  | nil => exact h
  | cons e es => exact h.blank (by decide)

theorem text_ofToken (t : Token) : (ofToken t).text = t.text := by
  obtain ⟨v, ht⟩ := exists_ofToken_eq_atom t
  rw [ht]
  rfl

theorem Spelled.quote_mem (h : Spelled es ts) (hq : '"' ∈ texts es) :
    ∃ t ∈ ts, '"' ∈ t.text := by
  induction h with
  | nil => simp [texts] at hq
  | @atom t es ts _ _ ih =>
    rw [texts_cons, List.mem_append, quote_mem_gap, text_ofToken] at hq
    obtain hq | hq := hq
    · exact ⟨t, List.mem_cons_self, hq⟩
    · obtain ⟨u, hu, hc⟩ := ih hq
      exact ⟨u, List.mem_cons_of_mem _ hu, hc⟩
  | list _ _ _ _ ihf ih =>
    rw [texts_cons, List.mem_append, quote_mem_gap] at hq
    obtain hq | hq := hq
    · obtain ⟨u, hu, hc⟩ := ihf (by simpa [text] using hq)
      exact ⟨u, by simp [hu], hc⟩
    · obtain ⟨u, hu, hc⟩ := ih hq
      exact ⟨u, by simp [hu], hc⟩

theorem lexes_openParen {a : Token} (ha : a.lexeme.Shaped p) (hk : a.kind = .openParen)
    (h : Lexes p s ls r) : Lexes p ('(' :: s) (a.lexeme :: ls) r := by
  have ht : a.text = ['('] := by simpa only [Lexeme.Shaped, lexeme, hk] using ha
  have hl := h.cons_of_ne_symbol ha (by simp [lexeme, hk])
  rwa [lexeme, ht] at hl ⊢

theorem lexes_closeParen {b : Token} (hb : b.lexeme.Shaped p) (hk : b.kind = .closeParen)
    (h : Lexes p s ls r) : Lexes p (')' :: s) (b.lexeme :: ls) r := by
  have ht : b.text = [')'] := by simpa only [Lexeme.Shaped, lexeme, hk] using hb
  have hl := h.cons_of_ne_symbol hb (by simp [lexeme, hk])
  rwa [lexeme, ht] at hl ⊢

/-- Expressions written one after the other are cut into the tokens that spell them. Only a symbol
that begins with a quote minds how the text goes on. -/
theorem Spelled.lexes (h : Spelled es ts) (hshape : ∀ t ∈ ts, t.lexeme.Shaped p)
    (hquote : ts.Pairwise fun t u => t.lexeme.OpensQuote → '"' ∉ u.text)
    (hafter : ∀ t ∈ ts, t.lexeme.OpensQuote → '"' ∉ after)
    (hsep : ∀ c ∈ after.head?, p.isSeparator c = true) (hl : Lexes p after ls r) :
    Lexes p (texts es ++ after) (ts.map lexeme ++ ls) r := by
  induction h generalizing after ls with
  | nil => exact hl
  | @atom t es ts ht hs ih =>
    rw [List.forall_mem_cons] at hshape hafter
    rw [List.pairwise_cons] at hquote
    have hg := lexes_gap (ih hshape.2 hquote.2 hafter.2 hsep hl)
    have hb : t.lexeme.EndsBefore p (gap es ++ after) := by
      refine Lexeme.endsBefore_of_separator (separator_gap hsep) fun ho => ?_
      rw [List.mem_append, quote_mem_gap, not_or]
      refine ⟨fun hq => ?_, hafter.1 ho⟩
      obtain ⟨u, hu, hc⟩ := hs.quote_mem hq
      exact hquote.1 u hu ho hc
    rw [texts_cons, text_ofToken, List.append_assoc]
    exact hg.cons hshape.1 hb
  | @list a b fs es us ts ha hb hf hs ihf ih =>
    simp only [List.forall_mem_cons, List.forall_mem_append] at hshape hafter
    obtain ⟨hsa, hsus, hsb, hsts⟩ := hshape
    simp only [List.pairwise_cons, List.pairwise_append, List.forall_mem_cons] at hquote
    obtain ⟨_, hqus, ⟨_, hqts⟩, hcross⟩ := hquote
    have hg := lexes_gap (ih hsts hqts hafter.2.2.2 hsep hl)
    have hclose := lexes_closeParen hsb hb hg
    -- the children are followed by the close, and no quote comes in with it
    have hqclose : ∀ t ∈ us, t.lexeme.OpensQuote → '"' ∉ ')' :: (gap es ++ after) := by
      intro t ht ho
      simp only [List.mem_cons, List.mem_append, quote_mem_gap, not_or]
      refine ⟨by decide, fun hq => ?_, hafter.2.1 t ht ho⟩
      obtain ⟨u, hu, hc⟩ := hs.quote_mem hq
      exact (hcross t ht).2 u hu ho hc
    have hfs := ihf hsus hqus hqclose (fun c hc => by cases hc; cases p <;> rfl) hclose
    have hopen := lexes_openParen hsa ha hfs
    simpa [texts_cons, text] using hopen

theorem significant_lexeme {us : List Token} (hl : us.map lexeme = (significant ts).map lexeme) :
    significant us = us := by
  refine significant_eq_self fun u hu => ?_
  have hm : u.lexeme ∈ (significant ts).map lexeme := hl ▸ List.mem_map_of_mem hu
  obtain ⟨t, ht, he⟩ := List.mem_map.mp hm
  have hk : u.kind = t.kind := (congrArg Lexeme.kind he).symm
  exact hk ▸ (mem_significant.mp ht).2

theorem shaped_of_mem_significant (p : SlashPolicy) (s : List Char) :
    ∀ t ∈ significant (lex p s).1, t.lexeme.Shaped p := fun _ ht =>
  (lex_lexes p s).shaped _ (List.mem_map_of_mem (mem_significant.mp ht).1)

theorem pairwise_significant (p : SlashPolicy) (s : List Char) :
    (significant (lex p s).1).Pairwise fun t u => t.lexeme.OpensQuote → '"' ∉ u.text :=
  List.pairwise_map.mp ((lex_lexes p s).pairwise.sublist (List.filter_sublist.map _))

theorem lexes_text (h : Spelled [e] (significant (lex p s).1)) :
    Lexes p e.text ((significant (lex p s).1).map lexeme) [] := by
  have hl := h.lexes (shaped_of_mem_significant p s) (pairwise_significant p s)
    (fun _ _ _ => by simp) (by simp) Lexes.nil
  simpa [texts] using hl

/-- An expression that was read from a text is read again from what it is written as, whatever
comments, blanks and lone quotes the text had. -/
theorem parse_text_of_parse (h : parse p s = .ok e) (he : e ≠ null) : parse p e.text = .ok e := by
  rw [parse_eq_ofTokens, ofTokens_eq_ok_iff he] at h ⊢
  obtain ⟨_, hs, hn⟩ := h
  obtain ⟨hl, hr⟩ := lex_eq_of_lexes (lexes_text hs)
  refine ⟨?_, ?_, hn⟩
  · simp [Cursor.hasMoreText, hr]
  · rw [significant_lexeme hl]
    exact hs.congr hl

/-- Two comments, one with a quote in it, lone slashes, tokens without a blank between them, and at
the end a quote without a partner. -/
theorem parse_text_of_parse_mixed :
    ∃ e, parse .separates "(/* \" */a\"b/\"c (d\"x/ /**//(1)\"y)".toList = .ok e ∧ e ≠ null ∧
      parse .separates e.text = .ok e := by
  have h : parse .separates "(/* \" */a\"b/\"c (d\"x/ /**//(1)\"y)".toList =
      .ok (list [atom "a\"b".toList (.identifier "a\"b"), atom ['/'] (.identifier "/"),
        atom "\"c (d\"".toList (.string "c (d"), atom ['x'] (.identifier "x"),
        atom ['/'] (.identifier "/"), atom ['/'] (.identifier "/"), list [atom ['1'] (.int 1)],
        atom "\"y".toList (.identifier "\"y")]) := by
    cbv
  refine ⟨_, h, ?_, parse_text_of_parse h ?_⟩ <;> simp

end LispCalc.Expr
