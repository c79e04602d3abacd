import LispCalc.Proofs.Cut
import LispCalc.Proofs.Tiling

namespace LispCalc

/-- What the text of a token of each kind looks like, and what can follow it. -/
def Token.Fits (p : SlashPolicy) (t : Token) (after : List Char) : Prop :=
  match t.kind with
  | .openParen => t.text = ['(']
  | .closeParen => t.text = [')']
  | .comment =>
    4 ≤ Text.byteLength t.text ∧ ['/', '*'] <+: t.text ∧ ['*', '/'] <:+ t.text ∧
      ¬ ['*', '/'] <:+: (t.text.drop 2).dropLast.dropLast
  | .quoted =>
    2 ≤ t.text.length ∧ t.text.head? = some '"' ∧ t.text.getLast? = some '"' ∧
      '"' ∉ t.text.tail.dropLast
  | .symbol =>
    (p = .separates ∧ t.text = ['/'] ∨
      t.text ≠ [] ∧ (∀ c ∈ t.text, p.isSeparator c = false) ∧
        ∀ c ∈ after.head?, p.isSeparator c = true) ∧
      (t.text.head? = some '"' → '"' ∉ t.text.tail ++ after) ∧ ¬ ['/', '*'] <+: t.text ++ after
  | .start | .finish | .unknown => False

variable {p : SlashPolicy} {source t after : List Char} {x y : Lexeme}

namespace Lexeme

theorem not_comment_prefix (hx : Shaped p ⟨.symbol, t⟩) (hr : EndsBefore p ⟨.symbol, t⟩ after) :
    ¬ ['/', '*'] <+: t ++ after := by
  obtain ⟨hslash, hword, _⟩ := hr rfl
  rintro ⟨u, hu⟩
  obtain ⟨hp, rfl⟩ | hw := hx
  · simp only [List.cons_append, List.nil_append, List.cons.injEq, true_and] at hu
    exact hslash ⟨hp, rfl⟩ (by rw [← hu]; rfl)
  · obtain ⟨c, t, rfl⟩ := List.exists_cons_of_ne_nil hw.1
    cases t with
    | nil =>
      simp only [List.cons_append, List.nil_append, List.cons.injEq] at hu
      have hstar := hword (fun hs => not_isWord_of_isSlash hs hw) '*' (by rw [← hu.2]; rfl)
      simp [not_separator_star] at hstar
    | cons d t =>
      simp only [List.cons_append, List.nil_append, List.cons.injEq] at hu
      obtain ⟨rfl, rfl, _⟩ := hu
      exact hw.2.2.1 ⟨t, rfl⟩

theorem Shaped.quoted_ends (hx : Shaped p ⟨.quoted, t⟩) :
    2 ≤ t.length ∧ t.head? = some '"' ∧ t.getLast? = some '"' ∧ '"' ∉ t.tail.dropLast := by
  obtain ⟨inner, hinner, rfl⟩ := hx
  refine ⟨by simp, rfl, by rw [← List.cons_append, List.getLast?_concat], ?_⟩
  rwa [List.tail_cons, List.dropLast_concat]

theorem Shaped.comment_ends (hx : Shaped p ⟨.comment, t⟩) :
    4 ≤ Text.byteLength t ∧ ['/', '*'] <+: t ∧ ['*', '/'] <:+ t ∧
      ¬ ['*', '/'] <:+: (t.drop 2).dropLast.dropLast := by
  obtain ⟨body, hbody, rfl⟩ := hx
  have hsplit : '/' :: '*' :: (body ++ ['*', '/']) = ['/', '*'] ++ (body ++ ['*', '/']) := rfl
  have hopen : Text.byteLength ['/', '*'] = 2 := by decide
  have hclose : Text.byteLength ['*', '/'] = 2 := by decide
  refine ⟨?_, ⟨body ++ ['*', '/'], rfl⟩, ⟨'/' :: '*' :: body, rfl⟩, ?_⟩
  · rw [hsplit, Text.byteLength_append, Text.byteLength_append, hopen, hclose]
    omega
  · have hdrop : ((body ++ ['*', '/']).dropLast).dropLast = body := by simp
    rwa [List.drop_succ_cons, List.drop_succ_cons, List.drop_zero, hdrop]

theorem fits_of_shaped {t : Token} (hx : t.lexeme.Shaped p) (hr : t.lexeme.EndsBefore p after) :
    t.Fits p after := by
  obtain ⟨k, start, text⟩ := t
  cases k with
  | openParen | closeParen => exact hx
  | comment => exact Shaped.comment_ends hx
  | quoted => exact Shaped.quoted_ends hx
  | symbol =>
    obtain ⟨_, hword, hquote⟩ := hr rfl
    refine ⟨?_, fun hh => ?_, not_comment_prefix hx hr⟩
    · obtain hs | hw := hx
      · exact .inl hs
      · exact .inr ⟨hw.1, hw.2.1, hword fun hs => not_isWord_of_isSlash hs hw⟩
    · rw [List.mem_append, not_or]
      refine ⟨?_, hquote hh⟩
      obtain ⟨_, hs⟩ | hw := hx
      · simp [show text = ['/'] from hs]
      · exact hw.2.2.2 hh
  | start | finish | unknown => exact hx.elim

theorem Shaped.length_le (hx : x.Shaped p) (hr : x.EndsBefore p after) (hy : y.Shaped p)
    (h : y.text <+: x.text ++ after) : y.text.length ≤ x.text.length := by
  obtain ⟨w, hw⟩ := h
  obtain ⟨v, hv, _⟩ | ⟨v, hv, rfl⟩ := List.append_eq_append_iff.mp hw
  · rw [hv, List.length_append]
    omega
  · -- both are cut off whole from the longer of the two
    have hcut := lexeme?_complete hx hr.of_append
    have hcut' : lexeme? p (y.text ++ []) = some (y.kind, y.text, []) :=
      lexeme?_complete hy (endsBefore_of_separator (by simp) (by simp))
    rw [List.append_nil, hv, hcut] at hcut'
    simp only [Option.some.injEq, Prod.mk.injEq] at hcut'
    rw [hv, ← hcut'.2.1]

end Lexeme

theorem Cursor.Calls.cut_at {c final : Cursor} {ts : List Token} {t : Token}
    (h : Calls p c ts final) (hc : c.IsIn source) (ht : t ∈ ts) :
    ∃ before after, source = before ++ (t.text ++ after) ∧ Text.byteLength before = t.start ∧
      lexeme? p (t.text ++ after) = some (t.kind, t.text, after) := by
  induction h with
  | stop => simp at ht
  | @token c c' final u ts h _ ih =>
    obtain ⟨w, _, hrest, hstart, _, hpos⟩ := next_some_spec h
    obtain rfl | ht := List.mem_cons.mp ht
    · obtain ⟨before, rfl, hb⟩ := hc
      have hcut := (next_eq_some h).1
      rw [← lexeme?_append hcut] at hcut
      refine ⟨before ++ w, c'.rest, by rw [hrest, List.append_assoc], ?_, hcut⟩
      rw [Text.byteLength_append, hb, hstart]
    · apply ih _ ht
      refine hc.move (w := w ++ _) (by rw [hrest, List.append_assoc]) ?_
      rw [hpos, Token.stop, hstart, Text.byteLength_append, Nat.add_assoc]

/-- Every token has exactly the form of its kind, ends where its kind says and leaves no longer
front of the text that has the form of a token. -/
theorem fits_of_mem_lex {t : Token} (ht : t ∈ (lex p source).1) :
    ∃ before after, source = before ++ (t.text ++ after) ∧ Text.byteLength before = t.start ∧
      t.Fits p after ∧
      ∀ y : Lexeme, y.Shaped p → y.text <+: t.text ++ after → y.text.length ≤ t.text.length := by
  obtain ⟨before, after, hsource, hstart, hcut⟩ :=
    (lex_calls p source).cut_at ⟨[], rfl, rfl⟩ ht
  obtain ⟨_, hx, hr⟩ := lexeme?_sound hcut
  exact ⟨before, after, hsource, hstart, Lexeme.fits_of_shaped hx hr,
    fun y hy h => Lexeme.Shaped.length_le hx hr hy h⟩

/-- A quote without a partner, between two slashes that separate. -/
theorem fits_of_mem_lex_loneQuote :
    ∃ t, t ∈ (lex .separates "(é/\"b*/ /**/".toList).1 ∧ t.kind = .symbol ∧
      t.text = "\"b*".toList ∧
      ∃ before after, "(é/\"b*/ /**/".toList = before ++ (t.text ++ after) ∧
        Text.byteLength before = t.start ∧ t.Fits .separates after ∧
        ∀ y : Lexeme, y.Shaped .separates → y.text <+: t.text ++ after →
          y.text.length ≤ t.text.length := by
  have hlex : (lex .separates "(é/\"b*/ /**/".toList).1 =
      [⟨.openParen, 0, ['(']⟩, ⟨.symbol, 1, ['é']⟩, ⟨.symbol, 3, ['/']⟩,
        ⟨.symbol, 4, "\"b*".toList⟩, ⟨.symbol, 7, ['/']⟩, ⟨.comment, 9, "/**/".toList⟩] := by
    cbv
  have hmem : ⟨.symbol, 4, "\"b*".toList⟩ ∈ (lex .separates "(é/\"b*/ /**/".toList).1 := by
    rw [hlex]
    decide
  exact ⟨_, hmem, rfl, rfl, fits_of_mem_lex hmem⟩

end LispCalc
