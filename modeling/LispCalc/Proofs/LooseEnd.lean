import LispCalc.Proofs.Completion

namespace LispCalc.Expr

open Token

variable {p : SlashPolicy} {s q : List Char} {t : Token}

/-- What a text can be completed from though it is refused and no list is open. -/
inductive LooseEnd (p : SlashPolicy) (s : List Char) : Prop where
  /-- The first quote without a partner begins a symbol where an expression can stand. -/
  | quote {done later : List Token} {t : Token} : (lex p s).1 = done ++ t :: later →
      (∀ u ∈ done, ¬ u.lexeme.OpensQuote) → t.lexeme.OpensQuote →
      (ofTokens done false = .ok null ∨ ofTokens done false = .error .unclosedList) → LooseEnd p s
  /-- A comment without a close stands behind a whole expression or behind none. -/
  | comment {e : Expr} : (lex p s).2.hasMoreText = true → ofTokens (lex p s).1 false = .ok e →
      LooseEnd p s
  /-- A slash stands behind a whole expression, and nothing behind the slash. -/
  | slash {done : List Token} {t : Token} {e : Expr} : (lex p s).1 = done ++ [t] →
      t.lexeme = ⟨.symbol, ['/']⟩ → (lex p s).2.hasMoreText = false → ['/'] <:+ s →
      ofTokens done false = .ok e → LooseEnd p s

theorem exists_verdict_atom {done : List Token}
    (h : ofTokens done false = .ok null ∨ ofTokens done false = .error .unclosedList) :
    ∃ n, ∀ t : Token, t.IsAtom →
      verdict false (significant done ++ t :: List.replicate n closer) = .ok () := by
  obtain hnull | hopen := h
  · refine ⟨0, fun t ht => ?_⟩
    rw [(ofTokens_eq_null_iff.mp hnull).2]
    exact verdict_atom ht
  · obtain ⟨n, hn, hw⟩ := exists_verdict_append (ofTokens_eq_unclosed_iff.mp hopen)
    refine ⟨n, fun t ht => ?_⟩
    rw [hw, walk_atom ht]
    exact walk_replicate_close rfl hn

theorem exists_parse_append_quote {done later : List Token} (hts : (lex p s).1 = done ++ t :: later)
    (hdone : ∀ u ∈ done, ¬ u.lexeme.OpensQuote) (ht : t.lexeme.OpensQuote)
    (hread : ofTokens done false = .ok null ∨ ofTokens done false = .error .unclosedList) :
    ∃ q e, parse p (s ++ q) = .ok e := by
  obtain ⟨n, hverdict⟩ := exists_verdict_atom hread
  have hlex := lex_lexes p s
  rw [hts, List.map_append, List.map_cons] at hlex
  have hq : ∀ x ∈ done.map lexeme, x.OpensQuote → '"' ∉ '"' :: List.replicate n ')' := by
    intro x hx ho
    obtain ⟨u, hu, rfl⟩ := List.mem_map.mp hx
    exact absurd ho (hdone u hu)
  obtain ⟨u, _, hu, hfront⟩ := hlex.exists_suffix (by simp) hq
  obtain ⟨text, htext⟩ := hu.close_quote ht (lexes_replicate_close p n)
  have hwhole : Lexes p (s ++ '"' :: List.replicate n ')')
      ((done ++ ⟨.quoted, 0, text⟩ :: List.replicate n closer).map lexeme) [] := by
    simpa [lexeme] using hfront _ _ htext
  refine ⟨_, exists_parse_of_lexes hwhole ?_⟩
  rw [significant_append, significant_cons_of_ne (by simp), significant_replicate_closer]
  exact hverdict _ (by simp [Token.IsAtom])

theorem exists_parse_append_slash {done : List Token} {e : Expr} (hts : (lex p s).1 = done ++ [t])
    (ht : t.lexeme = ⟨.symbol, ['/']⟩) (hstuck : (lex p s).2.hasMoreText = false)
    (hslash : ['/'] <:+ s) (hread : ofTokens done false = .ok e) :
    ∃ q e, parse p (s ++ q) = .ok e := by
  have hverdict := exists_ofTokens_eq_ok_iff.mp ⟨e, hread⟩
  obtain ⟨_, hr⟩ := (stuck_cases p s).resolve_right (by simp [hstuck])
  have hlex := lex_lexes p s
  rw [hts, hr, List.map_append, List.map_cons, List.map_nil, ht] at hlex
  obtain ⟨u, hus, hu, hfront⟩ := hlex.exists_suffix (q := ['*', '*', '/']) (by simp) (by simp)
  have hne : u ≠ [] := by
    rintro rfl
    simpa using hu.eq_nil_of_nil.1
  have hlast : ['/'] <:+ u :=
    List.suffix_of_suffix_length_le hslash hus (List.length_pos_iff.mpr hne)
  let comment : Token := ⟨.comment, 0, ['/', '*', '*', '/']⟩
  have hwhole : Lexes p (s ++ ['*', '*', '/']) ((done ++ [comment]).map lexeme) [] := by
    simpa [comment, lexeme] using hfront _ _ (hu.slash_becomes_comment hlast)
  have hsig : significant (done ++ [comment]) = significant done := by
    rw [significant_append, significant_cons_of_comment rfl]
    exact List.append_nil _
  exact ⟨_, exists_parse_of_lexes hwhole (hsig ▸ hverdict)⟩

theorem LooseEnd.exists_parse_append (h : LooseEnd p s) : ∃ q e, parse p (s ++ q) = .ok e := by
  cases h with
  | quote hts hdone ht hread => exact exists_parse_append_quote hts hdone ht hread
  | @comment e hstuck hread =>
    have hverdict := exists_ofTokens_eq_ok_iff.mp ⟨e, hread⟩
    refine ⟨_, exists_parse_append_closing (n := 0) ?_⟩
    rwa [List.replicate_zero, List.append_nil]
  | slash hts ht hstuck hslash hread => exact exists_parse_append_slash hts ht hstuck hslash hread

theorem not_opensQuote_of_quoted {done later : List Token} (hlex : (lex p s).1 = done ++ t :: later)
    (ht : t.kind = .quoted) : ∀ u ∈ done, ¬ u.lexeme.OpensQuote := by
  intro u hu ho
  have hlexes := lex_lexes p s
  rw [hlex, List.map_append, List.map_cons] at hlexes
  obtain ⟨inner, _, htext⟩ : Lexeme.IsQuoted t.text := by
    have hshape := hlexes.shaped t.lexeme (by simp)
    simpa only [Lexeme.Shaped, lexeme, ht] using hshape
  have hpair := (List.pairwise_append.mp hlexes.pairwise).2.2 u.lexeme (List.mem_map_of_mem hu)
    t.lexeme List.mem_cons_self ho
  exact hpair (by simp [lexeme, htext])

/-- A text that some text completes is whole, waits for more or has a loose end. -/
theorem cases_of_parse_append {e : Expr} (h : parse p (s ++ q) = .ok e) :
    (∃ e, parse p s = .ok e) ∨ isIncomplete p s = true ∨ LooseEnd p s := by
  obtain ⟨hr, hv⟩ := lex_of_parse h
  have hplaced := lex_placed p (s ++ q)
  rw [hr] at hplaced
  obtain ⟨done, later, tail, r, hts, hs, _, _, htorn⟩ := hplaced.cut
  obtain ⟨hlex, hrest⟩ := lex_eq_of_placed hs
  rw [hts, significant_append] at hv
  have hfront := verdict_front_cases hv
  -- by what the end of the text leaves of the token that it falls into
  cases htorn with
  | between =>
    obtain ⟨_, hok⟩ | hopen := hfront
    · rw [← List.append_nil done, ← hlex] at hok
      exact .inl (exists_parse_of_lex hrest hok)
    · exact .inr (.inl (isIncomplete_of_unclosed hlex (by simp) hopen))
  | @symbol t v later ht hv' =>
    have hatom : ∀ u ∈ [v], u.IsAtom := List.forall_mem_singleton.mpr (isAtom_of_symbol hv')
    obtain ⟨hnil, _⟩ | hopen := hfront
    · rw [significant_cons_of_ne (by simp [ht])] at hnil
      refine .inl (exists_parse_of_lex hrest ?_)
      rw [hlex, significant_append, hnil.resolve_right (by simp),
        significant_eq_self fun t ht => (hatom t ht).1]
      exact verdict_atom (isAtom_of_symbol hv')
    · exact .inr (.inl (isIncomplete_of_unclosed hlex hatom hopen))
  | @opening t v later ht hv' htext hslash =>
    have hatom : ∀ u ∈ [v], u.IsAtom := List.forall_mem_singleton.mpr (isAtom_of_symbol hv')
    obtain ⟨_, hok⟩ | hopen := hfront
    · obtain ⟨e, he⟩ := exists_ofTokens_eq_ok_iff.mpr hok
      refine .inr (.inr (.slash hlex (by rw [lexeme, hv', htext]) ?_ hslash he))
      simp [Cursor.hasMoreText, hrest]
    · exact .inr (.inl (isIncomplete_of_unclosed hlex hatom hopen))
  | @comment t later r ht hcomment =>
    obtain ⟨_, hok⟩ | hopen := hfront
    · obtain ⟨e, he⟩ := exists_ofTokens_eq_ok_iff.mpr hok
      obtain ⟨_, hnil⟩ | ⟨hstuck, _⟩ := stuck_cases p s
      · simp [← hrest, hnil, OpenComment] at hcomment
      · rw [← List.append_nil done, ← hlex] at he
        exact .inr (.inr (.comment hstuck he))
    · exact .inr (.inl (isIncomplete_of_unclosed hlex (by simp) hopen))
  | @quoted t v later tail r ht _ _ hv' =>
    have hdone := not_opensQuote_of_quoted hts ht
    rw [significant_cons_of_ne (by simp [ht])] at hfront
    refine .inr (.inr (.quote hlex hdone hv' ?_))
    obtain ⟨hnil, _⟩ | hopen := hfront
    · exact .inl (ofTokens_eq_null_iff.mpr ⟨rfl, hnil.resolve_right (by simp)⟩)
    · exact .inr (ofTokens_eq_unclosed_iff.mpr hopen)

/-- Which texts can be completed: those that are whole, those that wait for more and those with a
loose end. The last are refused without waiting, unless they are among the others too. -/
theorem exists_parse_append_iff (p : SlashPolicy) (s : List Char) :
    (∃ q e, parse p (s ++ q) = .ok e) ↔
      (∃ e, parse p s = .ok e) ∨ isIncomplete p s = true ∨ LooseEnd p s := by
  constructor
  · rintro ⟨q, e, h⟩
    exact cases_of_parse_append h
  · rintro (⟨e, h⟩ | h | h)
    · exact ⟨[], e, by rwa [List.append_nil]⟩
    · obtain ⟨n, e, he⟩ := exists_parse_append_closing_of_unclosed (isIncomplete_iff.mp h)
      exact ⟨_, e, he⟩
    · exact h.exists_parse_append

/-- A string over two lines with a parenthesis in its first line: the text can be completed and does
not wait. -/
theorem not_isIncomplete_of_openString :
    parse .joins "(concat \"a) b".toList = .error .trailingText ∧
      (∃ e, parse .joins ("(concat \"a) b".toList ++ "\")".toList) = .ok e) ∧
      isIncomplete .joins "(concat \"a) b".toList = false := by
  have hwhole : parse .joins ("(concat \"a) b".toList ++ "\")".toList) =
      .ok (list [atom "concat".toList (.identifier "concat"),
        atom "\"a) b\"".toList (.string "a) b")]) := by
    cbv
  exact ⟨by cbv, ⟨_, hwhole⟩, by cbv⟩

end LispCalc.Expr
