import LispCalc.Proofs.Lexeme

namespace LispCalc

/-- A text is blanks and tokens in turn, up to a rest that no token can be cut from. -/
inductive Lexes (p : SlashPolicy) : List Char → List Lexeme → List Char → Prop where
  | stop {s : List Char} : lexeme? p (Text.trimStart s) = none → Lexes p s [] (Text.trimStart s)
  | token {s t u r : List Char} {k : TokenKind} {ls : List Lexeme} :
      lexeme? p (Text.trimStart s) = some (k, t, u) → Lexes p u ls r → Lexes p s (⟨k, t⟩ :: ls) r

variable {p : SlashPolicy} {s r : List Char} {ls : List Lexeme}

namespace Lexes

theorem unique {ls' : List Lexeme} {r' : List Char} (h : Lexes p s ls r) (h' : Lexes p s ls' r') :
    ls = ls' ∧ r = r' := by
  induction h generalizing ls' r' with
  | stop hs =>
    cases h' with
    | stop => exact ⟨rfl, rfl⟩
    | token ht => simp [hs] at ht
  | token ht _ ih =>
    cases h' with
    | stop hs => simp [hs] at ht
    | token ht' h' =>
      rw [ht] at ht'
      simp only [Option.some.injEq, Prod.mk.injEq] at ht'
      obtain ⟨rfl, rfl, rfl⟩ := ht'
      obtain ⟨rfl, rfl⟩ := ih h'
      exact ⟨rfl, rfl⟩

theorem blank {c : Char} (hc : Text.isBlank c = true) (h : Lexes p s ls r) :
    Lexes p (c :: s) ls r := by
  have ht : Text.trimStart (c :: s) = Text.trimStart s := by simp [Text.trimStart, hc]
  cases h with
  | stop hs =>
    rw [← ht] at hs ⊢
    exact .stop hs
  | token hs h =>
    rw [← ht] at hs
    exact .token hs h

theorem nil : Lexes p [] [] [] := .stop (by cases p <;> rfl)

theorem cons {x : Lexeme} (hx : x.Shaped p) (hs : x.EndsBefore p s) (h : Lexes p s ls r) :
    Lexes p (x.text ++ s) (x :: ls) r := by
  refine .token ?_ h
  rw [hx.trimStart_append]
  exact lexeme?_complete hx hs

theorem cons_of_ne_symbol {x : Lexeme} (hx : x.Shaped p) (hk : x.kind ≠ .symbol)
    (h : Lexes p s ls r) : Lexes p (x.text ++ s) (x :: ls) r :=
  h.cons hx fun hs => absurd hs hk

theorem shaped (h : Lexes p s ls r) : ∀ x ∈ ls, x.Shaped p := by
  induction h with
  | stop => simp
  | token ht _ ih =>
    rw [List.forall_mem_cons]
    exact ⟨(lexeme?_sound ht).2.1, ih⟩

theorem mem_of_mem_text (h : Lexes p s ls r) {x : Lexeme} (hx : x ∈ ls) {c : Char}
    (hc : c ∈ x.text) : c ∈ s := by
  induction h with
  | stop => simp at hx
  | @token s t u r k ls ht _ ih =>
    have hs : Text.trimStart s = t ++ u := (lexeme?_sound ht).1
    refine (List.dropWhile_sublist Text.isBlank).subset ?_
    change c ∈ Text.trimStart s
    rw [hs, List.mem_append]
    obtain rfl | hx := List.mem_cons.mp hx
    · exact .inl hc
    · exact .inr (ih hx)

theorem pairwise (h : Lexes p s ls r) :
    ls.Pairwise fun x y => x.OpensQuote → '"' ∉ y.text := by
  induction h with
  | stop => exact .nil
  | token ht h ih =>
    rw [List.pairwise_cons]
    refine ⟨fun y hy hx hc => ?_, ih⟩
    exact ((lexeme?_sound ht).2.2 hx.1).2.2 hx.2 (h.mem_of_mem_text hy hc)

end Lexes

namespace Cursor

theorem next_eq_none {c c' : Cursor} (h : c.next p = (none, c')) :
    lexeme? p (Text.trimStart c.rest) = none ∧ c' = c.skipBlanks := by
  unfold next at h
  dsimp only at h
  split at h
  · rename_i hx
    simp only [Prod.mk.injEq, true_and] at h
    exact ⟨hx, h.symm⟩
  · simp at h

theorem next_eq_some {c c' : Cursor} {t : Token} (h : c.next p = (some t, c')) :
    lexeme? p (Text.trimStart c.rest) = some (t.kind, t.text, c'.rest) ∧
      t.start = c.skipBlanks.position ∧ c'.position = t.stop := by
  unfold next at h
  dsimp only at h
  split at h
  · simp at h
  · rename_i k text rest hx
    simp only [Prod.mk.injEq, Option.some.injEq] at h
    obtain ⟨rfl, rfl⟩ := h
    exact ⟨hx, rfl, rfl⟩

inductive Calls (p : SlashPolicy) : Cursor → List Token → Cursor → Prop where
  | stop {c c' : Cursor} : c.next p = (none, c') → Calls p c [] c'
  | token {c c' final : Cursor} {t : Token} {ts : List Token} : c.next p = (some t, c') →
      Calls p c' ts final → Calls p c (t :: ts) final

theorem tokensFrom_calls (p : SlashPolicy) (seen : List Token) (c : Cursor) :
    ∃ ts, (c.tokensFrom p seen).1 = seen.reverse ++ ts ∧
      Calls p c ts (c.tokensFrom p seen).2 := by
  fun_induction tokensFrom p seen c with
  | case1 seen c c' h => exact ⟨[], by simp, .stop h⟩
  | case2 seen c t c' h _ ih =>
    obtain ⟨ts, hts, hcalls⟩ := ih
    exact ⟨t :: ts, by simpa using hts, .token h hcalls⟩

theorem Calls.lexes {c final : Cursor} {ts : List Token} (h : Calls p c ts final) :
    Lexes p c.rest (ts.map Token.lexeme) final.rest := by
  induction h with
  | stop h =>
    obtain ⟨hn, rfl⟩ := next_eq_none h
    exact .stop hn
  | token h _ ih => exact .token (next_eq_some h).1 ih

end Cursor

theorem lex_calls (p : SlashPolicy) (s : List Char) :
    Cursor.Calls p (.ofText s) (lex p s).1 (lex p s).2 := by
  obtain ⟨ts, hts, h⟩ := Cursor.tokensFrom_calls p [] (.ofText s)
  rw [List.reverse_nil, List.nil_append] at hts
  rw [← hts] at h
  exact h

theorem lex_lexes (p : SlashPolicy) (s : List Char) :
    Lexes p s ((lex p s).1.map Token.lexeme) (lex p s).2.rest :=
  (lex_calls p s).lexes

theorem lex_eq_of_lexes (h : Lexes p s ls r) :
    (lex p s).1.map Token.lexeme = ls ∧ (lex p s).2.rest = r :=
  (lex_lexes p s).unique h

end LispCalc
