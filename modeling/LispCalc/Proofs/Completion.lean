import LispCalc.Proofs.Counter
import LispCalc.Proofs.Cut

namespace LispCalc.Expr

open Token

variable {p : SlashPolicy} {s : List Char} {stuck : Bool} {count n : Nat} {t : Token}
  {ts us : List Token}

theorem walk_skip (ho : t.kind ≠ .openParen) (hl : t.kind ≠ .closeParen) :
    walk stuck count (t :: ts) = walk stuck count ts := by
  rw [walk]
  split <;> first | contradiction | rfl

theorem verdict_open (h : t.kind = .openParen) : verdict stuck (t :: ts) = walk stuck 1 ts := by
  have hfirst : walk stuck 0 (t :: ts) = walk stuck 1 ts := walk_open h (by decide)
  rw [← hfirst]
  simp [verdict, h]

theorem verdict_close (h : t.kind = .closeParen) :
    verdict stuck (t :: ts) = .error .unopenedParen := by
  simp [verdict, h]

theorem verdict_single (ho : t.kind ≠ .openParen) (hl : t.kind ≠ .closeParen) :
    verdict stuck (t :: ts) = ending stuck ts := by
  rw [verdict]
  split <;> first | contradiction | rfl

theorem ending_ne_unclosed : ending stuck ts ≠ .error .unclosedList := by
  rw [ending]
  split <;> simp

theorem ending_append_cons : ending stuck (ts ++ t :: us) = .error .trailingText := by
  simp [ending]

theorem exists_walk_append (hc : 0 < count) (h : walk stuck count ts = .error .unclosedList) :
    ∃ n, 0 < n ∧ ∀ stuck us, walk stuck count (ts ++ us) = walk stuck n us := by
  fun_induction walk stuck count ts with
  | case1 count => exact ⟨count, hc, fun _ _ => rfl⟩
  | case2 => simp at h
  | case3 count t ts ho hlimit ih =>
    obtain ⟨n, hn, hw⟩ := ih (by omega) h
    exact ⟨n, hn, fun stuck us => by rw [List.cons_append, walk_open ho hlimit, hw]⟩
  | case4 => exact absurd h ending_ne_unclosed
  | case5 count t ts hl hone ih =>
    obtain ⟨count, rfl⟩ : ∃ m, count = m + 2 := ⟨count - 2, by omega⟩
    obtain ⟨n, hn, hw⟩ := ih (by omega) h
    refine ⟨n, hn, fun stuck us => ?_⟩
    rw [List.cons_append, walk_close hl]
    exact hw stuck us
  | case6 count t ts ho hl ih =>
    obtain ⟨n, hn, hw⟩ := ih hc h
    exact ⟨n, hn, fun stuck us => by rw [List.cons_append, walk_skip ho hl, hw]⟩

theorem walk_unclosed_of_append {stuck' : Bool} (hc : 0 < count)
    (h : walk stuck' count (ts ++ t :: us) = .ok ()) :
    walk stuck count ts = .error .unclosedList := by
  fun_induction walk stuck count ts with
  | case1 => rfl
  | case2 v ts ho => simp [walk_tooDeep ho] at h
  | case3 count v ts ho hlimit ih =>
    rw [List.cons_append, walk_open ho hlimit] at h
    exact ih (by omega) h
  | case4 v ts hl =>
    rw [List.cons_append, walk_last hl, ending_append_cons] at h
    simp at h
  | case5 count v ts hl hone ih =>
    obtain ⟨count, rfl⟩ : ∃ m, count = m + 2 := ⟨count - 2, by omega⟩
    rw [List.cons_append, walk_close hl] at h
    exact ih (by omega) h
  | case6 count v ts ho hl ih =>
    rw [List.cons_append, walk_skip ho hl] at h
    exact ih hc h

theorem walk_replicate_close (hk : t.kind = .closeParen) (hn : 0 < n) :
    walk false n (List.replicate n t) = .ok () := by
  induction n with
  | zero => omega
  | succ n ih =>
    cases n with
    | zero => exact walk_last hk
    | succ n =>
      rw [List.replicate_succ, walk_close hk]
      exact ih (by omega)

theorem exists_verdict_append (h : verdict stuck ts = .error .unclosedList) :
    ∃ n, 0 < n ∧ ∀ stuck us, verdict stuck (ts ++ us) = walk stuck n us := by
  cases ts with
  | nil => exact absurd h ending_ne_unclosed
  | cons t ts =>
    by_cases ho : t.kind = .openParen
    · rw [verdict_open ho] at h
      obtain ⟨n, hn, hw⟩ := exists_walk_append (by decide) h
      exact ⟨n, hn, fun stuck us => by rw [List.cons_append, verdict_open ho, hw]⟩
    · by_cases hl : t.kind = .closeParen
      · simp [verdict_close hl] at h
      · rw [verdict_single ho hl] at h
        exact absurd h ending_ne_unclosed

theorem verdict_unclosed_append_atoms {stuck' : Bool} (h : verdict stuck ts = .error .unclosedList)
    (hu : ∀ t ∈ us, t.IsAtom) : verdict stuck' (ts ++ us) = .error .unclosedList := by
  obtain ⟨n, _, hw⟩ := exists_verdict_append h
  rw [hw]
  induction us with
  | nil => rfl
  | cons t us ih =>
    rw [List.forall_mem_cons] at hu
    rw [walk_atom hu.1, ih hu.2]

theorem verdict_unclosed_of_append {stuck' : Bool} (h : verdict stuck' (ts ++ t :: us) = .ok ())
    (hne : ts ≠ []) : verdict stuck ts = .error .unclosedList := by
  obtain ⟨v, ts, rfl⟩ := List.exists_cons_of_ne_nil hne
  rw [List.cons_append] at h
  by_cases ho : v.kind = .openParen
  · rw [verdict_open ho] at h ⊢
    exact walk_unclosed_of_append (by decide) h
  · by_cases hl : v.kind = .closeParen
    · simp [verdict_close hl] at h
    · rw [verdict_single ho hl, ending_append_cons] at h
      simp at h

/-- The first tokens of an expression are all of it, or none of it, or leave lists open. -/
theorem verdict_front_cases (h : verdict false (ts ++ us) = .ok ()) :
    (ts = [] ∨ us = []) ∧ verdict false ts = .ok () ∨
      verdict false ts = .error .unclosedList := by
  cases us with
  | nil =>
    rw [List.append_nil] at h
    exact .inl ⟨.inr rfl, h⟩
  | cons u us =>
    by_cases hts : ts = []
    · subst hts
      exact .inl ⟨.inl rfl, rfl⟩
    · exact .inr (verdict_unclosed_of_append h hts)

theorem map_ofTokens_eq_verdict (ts : List Token) (stuck : Bool) :
    (ofTokens ts stuck).map (fun _ => ()) = verdict stuck (significant ts) := by
  rw [map_ofTokens_eq_outcome]
  exact outcome_read_eq_verdict fun t ht => (mem_significant.mp ht).2

theorem exists_ofTokens_eq_ok_iff :
    (∃ e, ofTokens ts stuck = .ok e) ↔ verdict stuck (significant ts) = .ok () := by
  rw [← map_ofTokens_eq_verdict]
  cases ofTokens ts stuck <;> simp [Except.map]

theorem ofTokens_eq_unclosed_iff :
    ofTokens ts stuck = .error .unclosedList ↔
      verdict stuck (significant ts) = .error .unclosedList := by
  rw [← map_ofTokens_eq_verdict]
  cases ofTokens ts stuck <;> simp [Except.map]

theorem isIncomplete_iff :
    isIncomplete p s = true ↔
      verdict (lex p s).2.hasMoreText (significant (lex p s).1) = .error .unclosedList := by
  rw [← ofTokens_eq_unclosed_iff, isIncomplete, parse_eq_ofTokens]
  split <;> simp_all

theorem parse_eq_of_lexes (h : Lexes p s (ts.map lexeme) []) : parse p s = ofTokens ts false := by
  obtain ⟨hlex, hr⟩ := lex_eq_of_lexes h
  have hstuck : (lex p s).2.hasMoreText = false := by simp [Cursor.hasMoreText, hr]
  rw [parse_eq_ofTokens, hstuck]
  apply ofTokens_congr
  rw [map_lexeme_significant, map_lexeme_significant, hlex]

theorem exists_parse_of_lexes (h : Lexes p s (ts.map lexeme) [])
    (hv : verdict false (significant ts) = .ok ()) : ∃ e, parse p s = .ok e := by
  rw [parse_eq_of_lexes h]
  exact exists_ofTokens_eq_ok_iff.mpr hv

theorem exists_parse_of_lex (hr : (lex p s).2.rest = [])
    (hv : verdict false (significant (lex p s).1) = .ok ()) : ∃ e, parse p s = .ok e :=
  exists_parse_of_lexes (hr ▸ lex_lexes p s) hv

theorem isIncomplete_of_unclosed {done tail : List Token} (hlex : (lex p s).1 = done ++ tail)
    (ha : ∀ t ∈ tail, t.IsAtom) (h : verdict stuck (significant done) = .error .unclosedList) :
    isIncomplete p s = true := by
  rw [isIncomplete_iff, hlex, significant_append, significant_eq_self fun t ht => (ha t ht).1]
  exact verdict_unclosed_append_atoms h ha

theorem stuck_cases (p : SlashPolicy) (s : List Char) :
    (lex p s).2.hasMoreText = false ∧ (lex p s).2.rest = [] ∨
      (lex p s).2.hasMoreText = true ∧ OpenComment (lex p s).2.rest := by
  obtain hr | hr := (lex_lexes p s).rest_cases
  · exact .inl ⟨by simp [Cursor.hasMoreText, hr], hr⟩
  · refine .inr ⟨?_, hr⟩
    obtain ⟨body, _, hbody⟩ := hr
    rw [Cursor.hasMoreText, hbody]
    rfl

theorem lex_of_parse {e : Expr} (h : parse p s = .ok e) :
    (lex p s).2.rest = [] ∧ verdict false (significant (lex p s).1) = .ok () := by
  rw [parse_eq_ofTokens] at h
  have hstuck := (spelled_of_ofTokens h).1
  rw [hstuck] at h
  refine ⟨?_, exists_ofTokens_eq_ok_iff.mp ⟨e, h⟩⟩
  obtain ⟨_, hr⟩ | ⟨htrue, _⟩ := stuck_cases p s
  · exact hr
  · simp [hstuck] at htrue

def closer : Token := ⟨.closeParen, 0, [')']⟩

theorem lexes_replicate_close (p : SlashPolicy) (n : Nat) :
    Lexes p (List.replicate n ')') ((List.replicate n closer).map lexeme) [] := by
  induction n with
  | zero => exact .nil
  | succ n ih =>
    rw [List.replicate_succ, List.replicate_succ, List.map_cons]
    exact lexes_closeParen rfl rfl ih

/-- What ends an open comment and then closes `n` lists. -/
def closing (p : SlashPolicy) (s : List Char) (n : Nat) : List Char :=
  (if (lex p s).2.hasMoreText then ['*', '/'] else []) ++ List.replicate n ')'

theorem shaped_of_openComment (h : OpenComment s) :
    Lexeme.Shaped p ⟨.comment, s ++ ['*', '/']⟩ := by
  obtain ⟨body, hbody, rfl⟩ := h
  exact ⟨body, hbody, rfl⟩

theorem significant_replicate_closer (n : Nat) :
    significant (List.replicate n closer) = List.replicate n closer := by
  refine significant_eq_self fun t ht => ?_
  rw [List.eq_of_mem_replicate ht]
  nofun

theorem exists_parse_append_closing
    (h : verdict false (significant (lex p s).1 ++ List.replicate n closer) = .ok ()) :
    ∃ e, parse p (s ++ closing p s n) = .ok e := by
  have hlex := lex_lexes p s
  have hclose := lexes_replicate_close p n
  have hq : '"' ∉ closing p s n := by
    rw [closing, List.mem_append, List.mem_replicate]
    split <;> simp
  obtain ⟨hstuck, hr⟩ | ⟨hstuck, hr⟩ := stuck_cases p s
  · have hsep : ∀ c ∈ (List.replicate n ')').head?, p.isSeparator c = true := by
      intro c hc
      obtain rfl := List.eq_of_mem_replicate (List.mem_of_mem_head? hc)
      rfl
    simp only [closing, hstuck, Bool.false_eq_true, if_false, List.nil_append] at hq ⊢
    rw [hr] at hlex
    have happ := hlex.append (fun _ => hsep) (fun _ _ _ => hq) hclose
    rw [← List.map_append] at happ
    refine exists_parse_of_lexes happ ?_
    rwa [significant_append, significant_replicate_closer]
  · -- what is left is a comment, and the closing ends it first
    simp only [closing, hstuck, if_true] at hq ⊢
    have hcomment : Lexes p ((lex p s).2.rest ++ (['*', '/'] ++ List.replicate n ')'))
        ((⟨.comment, 0, (lex p s).2.rest ++ ['*', '/']⟩ :: List.replicate n closer).map lexeme)
        [] := by
      rw [← List.append_assoc]
      exact hclose.cons_of_ne_symbol (shaped_of_openComment hr) (by simp)
    have happ := hlex.append (fun hn => by simp [hn, OpenComment] at hr) (fun _ _ _ => hq) hcomment
    rw [← List.map_append] at happ
    refine exists_parse_of_lexes happ ?_
    rwa [significant_append, significant_cons_of_comment rfl, significant_replicate_closer]

theorem exists_parse_append_closing_of_unclosed
    (h : verdict stuck (significant (lex p s).1) = .error .unclosedList) :
    ∃ n e, parse p (s ++ closing p s n) = .ok e := by
  obtain ⟨n, hn, hw⟩ := exists_verdict_append h
  obtain ⟨e, he⟩ := exists_parse_append_closing
    ((hw false (List.replicate n closer)).trans (walk_replicate_close rfl hn))
  exact ⟨n, e, he⟩

/-- A text that waits for more is completed by ending its open comment, if it has one, and closing
the lists that are open. -/
theorem exists_parse_append_of_isIncomplete (h : isIncomplete p s = true) :
    ∃ n e, parse p (s ++ closing p s n) = .ok e :=
  exists_parse_append_closing_of_unclosed (isIncomplete_iff.mp h)

/-- A list in a list, a quote without a partner and a comment without a close. -/
theorem exists_parse_append_of_isIncomplete_mixed :
    isIncomplete .separates "(a/ (\"b c /* d *".toList = true ∧
      ∃ n e, parse .separates ("(a/ (\"b c /* d *".toList ++
        closing .separates "(a/ (\"b c /* d *".toList n) = .ok e := by
  have h : isIncomplete .separates "(a/ (\"b c /* d *".toList = true := by cbv
  exact ⟨h, exists_parse_append_of_isIncomplete h⟩

end LispCalc.Expr
