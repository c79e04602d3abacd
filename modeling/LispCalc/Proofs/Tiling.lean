import LispCalc.Proofs.Extension

namespace LispCalc

/-- A text from the byte `n` on that is blanks and tokens in turn, up to a rest. -/
inductive Tiles : Nat → List Char → List Token → List Char → Prop where
  | rest (n : Nat) (s : List Char) : Tiles n s [] s
  | token {n : Nat} {w s r : List Char} {t : Token} {ts : List Token} : Blanks w →
      t.start = n + Text.byteLength w → t.text ≠ [] → Tiles t.stop s ts r →
      Tiles n (w ++ (t.text ++ s)) (t :: ts) r

/-- The place stands between two characters of the text. -/
def Cursor.IsIn (c : Cursor) (source : List Char) : Prop :=
  ∃ before, source = before ++ c.rest ∧ Text.byteLength before = c.position

def Token.IsIn (t : Token) (source : List Char) : Prop :=
  ∃ before after, source = before ++ (t.text ++ after) ∧ Text.byteLength before = t.start

/-- Tokens that make up a source but for blanks, and the place behind them where the lexer stops. -/
structure Tiling (source : List Char) (ts : List Token) (final : Cursor) : Prop where
  covers : ∃ w, Blanks w ∧ Tiles 0 source ts (w ++ final.rest)
  nonempty : ∀ t ∈ ts, t.start < t.stop
  disjoint : ts.Pairwise fun t u => t.stop ≤ u.start
  token_isIn : ∀ t ∈ ts, t.IsIn source
  final_isIn : final.IsIn source
  stops : final.rest = [] ∨ OpenComment final.rest

variable {p : SlashPolicy} {s r source : List Char} {n : Nat} {t : Token} {ts : List Token}

namespace Tiles

theorem start_lt_stop (h : Tiles n s ts r) : ∀ t ∈ ts, t.start < t.stop := by
  induction h with
  | rest => simp
  | token _ _ hne _ ih => exact List.forall_mem_cons.mpr ⟨Token.start_lt_stop hne, ih⟩

theorem le_start (h : Tiles n s ts r) : ∀ t ∈ ts, n ≤ t.start := by
  induction h with
  | rest => simp
  | token _ hstart hne _ ih =>
    have hlt := Token.start_lt_stop hne
    rw [List.forall_mem_cons]
    refine ⟨by omega, fun u hu => ?_⟩
    have hle := ih u hu
    omega

theorem pairwise (h : Tiles n s ts r) : ts.Pairwise fun t u => t.stop ≤ u.start := by
  induction h with
  | rest => exact .nil
  | token _ _ _ hts ih => exact List.pairwise_cons.mpr ⟨hts.le_start, ih⟩

theorem isIn (h : Tiles n s ts r) {before : List Char} (hb : Text.byteLength before = n) :
    ∀ t ∈ ts, t.IsIn (before ++ s) := by
  induction h generalizing before with
  | rest => simp
  | @token n w s r t ts _ hstart _ _ ih =>
    rw [List.forall_mem_cons]
    refine ⟨⟨before ++ w, s, by simp, by rw [Text.byteLength_append, hb, hstart]⟩, ?_⟩
    have hstop : Text.byteLength (before ++ w ++ t.text) = t.stop := by
      rw [Text.byteLength_append, Text.byteLength_append, hb, Token.stop, hstart]
    simpa using ih hstop

end Tiles

namespace Cursor

variable {c c' final : Cursor}

theorem skipBlanks_spec (c : Cursor) :
    ∃ w, Blanks w ∧ c.rest = w ++ c.skipBlanks.rest ∧
      c.skipBlanks.position = c.position + Text.byteLength w :=
  ⟨c.rest.takeWhile Text.isBlank, fun _ hd => List.mem_takeWhile_imp hd,
    List.takeWhile_append_dropWhile.symm, rfl⟩

theorem skipBlanks_skipBlanks (c : Cursor) : c.skipBlanks.skipBlanks = c.skipBlanks := by
  have hnil : (c.rest.dropWhile Text.isBlank).takeWhile Text.isBlank = [] :=
    List.takeWhile_eq_nil_iff.mpr fun h => List.dropWhile_get_zero_not _ _ h
  simp only [skipBlanks, hnil, List.dropWhile_idempotent Text.isBlank c.rest, Text.byteLength,
    List.foldr_nil, Nat.add_zero]

theorem next_some_spec (h : c.next p = (some t, c')) :
    ∃ w, Blanks w ∧ c.rest = w ++ (t.text ++ c'.rest) ∧
      t.start = c.position + Text.byteLength w ∧ t.text ≠ [] ∧ c'.position = t.stop := by
  obtain ⟨hx, hstart, hstop⟩ := next_eq_some h
  obtain ⟨w, hw, hrest, hpos⟩ := c.skipBlanks_spec
  refine ⟨w, hw, ?_, hstart.trans hpos, lexeme?_ne_nil hx, hstop⟩
  rw [lexeme?_append hx]
  exact hrest

theorem next_none_spec (h : c.next p = (none, c')) :
    ∃ w, Blanks w ∧ c.rest = w ++ c'.rest ∧ c'.position = c.position + Text.byteLength w ∧
      (c'.rest = [] ∨ OpenComment c'.rest) ∧ c'.next p = (none, c') := by
  obtain ⟨hx, rfl⟩ := next_eq_none h
  obtain ⟨w, hw, hrest, hpos⟩ := c.skipBlanks_spec
  have htrim : Text.trimStart c.skipBlanks.rest = c.skipBlanks.rest :=
    congrArg Cursor.rest c.skipBlanks_skipBlanks
  have hx' : lexeme? p c.skipBlanks.rest = none := hx
  refine ⟨w, hw, hrest, hpos, lexeme?_eq_none htrim hx', ?_⟩
  rw [next, skipBlanks_skipBlanks, hx']

theorem IsIn.move {w : List Char} (h : c.IsIn source) (hrest : c.rest = w ++ c'.rest)
    (hpos : c'.position = c.position + Text.byteLength w) : c'.IsIn source := by
  obtain ⟨before, rfl, hb⟩ := h
  exact ⟨before ++ w, by simp [hrest], by rw [Text.byteLength_append, hb, hpos]⟩

theorem hasMoreText_iff {w : List Char} (hw : Blanks w) (hrest : c.rest = w ++ r)
    (hr : r = [] ∨ OpenComment r) : c.hasMoreText = true ↔ OpenComment r := by
  rw [hasMoreText, hrest, List.any_append, Bool.or_eq_true]
  constructor
  · rintro (h | h)
    · obtain ⟨d, hd, hn⟩ := List.any_eq_true.mp h
      simp [hw d hd] at hn
    · exact hr.resolve_left fun hnil => by simp [hnil] at h
  · rintro ⟨body, _, rfl⟩
    exact .inr rfl

def after (p : SlashPolicy) (c : Cursor) : Nat → Cursor
  | 0 => c
  | n + 1 => after p (c.next p).2 n

theorem after_of_next_eq (h : c.next p = (none, c)) (n : Nat) : c.after p n = c := by
  induction n with
  | zero => rfl
  | succ n ih => rw [after, h, ih]

namespace Calls

theorem tiles (h : Calls p c ts final) :
    ∃ w, Blanks w ∧ Tiles c.position c.rest ts (w ++ final.rest) := by
  induction h with
  | stop h =>
    obtain ⟨w, hw, hrest, _⟩ := next_none_spec h
    refine ⟨w, hw, ?_⟩
    rw [← hrest]
    exact .rest _ _
  | token h _ ih =>
    obtain ⟨w, hw, hrest, hstart, hne, hpos⟩ := next_some_spec h
    obtain ⟨v, hv, htiles⟩ := ih
    rw [hpos] at htiles
    refine ⟨v, hv, ?_⟩
    rw [hrest]
    exact .token hw hstart hne htiles

theorem isIn (h : Calls p c ts final) (hc : c.IsIn source) : final.IsIn source := by
  induction h with
  | stop h =>
    obtain ⟨w, _, hrest, hpos, _⟩ := next_none_spec h
    exact hc.move hrest hpos
  | token h _ ih =>
    obtain ⟨w, _, hrest, hstart, _, hpos⟩ := next_some_spec h
    apply ih
    refine hc.move (w := w ++ _) (by rw [hrest, List.append_assoc]) ?_
    rw [hpos, Token.stop, hstart, Text.byteLength_append, Nat.add_assoc]

theorem stops (h : Calls p c ts final) :
    (final.rest = [] ∨ OpenComment final.rest) ∧ final.next p = (none, final) := by
  induction h with
  | stop h =>
    obtain ⟨_, _, _, _, hrest, hnext⟩ := next_none_spec h
    exact ⟨hrest, hnext⟩
  | token _ _ ih => exact ih

theorem next_after (h : Calls p c ts final) (ht : ts[n]? = some t) :
    (c.after p n).next p = (some t, c.after p (n + 1)) := by
  induction h generalizing n with
  | stop => simp at ht
  | @token c c' final u ts h _ ih =>
    cases n with
    | zero =>
      obtain rfl : u = t := by simpa using ht
      rw [after, after, after, h]
    | succ n =>
      rw [after, after, h]
      exact ih (by simpa using ht)

theorem next_after_last (h : Calls p c ts final) (hn : ts.length ≤ n) :
    (c.after p n).next p = (none, final) := by
  induction h generalizing n with
  | @stop c c' h =>
    cases n with
    | zero => exact h
    | succ n =>
      obtain ⟨_, _, _, _, _, hnext⟩ := next_none_spec h
      rw [after, h, after_of_next_eq hnext, hnext]
  | @token c c' final u ts h _ ih =>
    cases n with
    | zero => simp at hn
    | succ n =>
      rw [after, h]
      exact ih (by simpa using hn)

theorem tiling (h : Calls p (.ofText source) ts final) : Tiling source ts final := by
  obtain ⟨w, hw, htiles⟩ := h.tiles
  have hnil : Text.byteLength [] = (Cursor.ofText source).position := rfl
  exact ⟨⟨w, hw, htiles⟩, htiles.start_lt_stop, htiles.pairwise, htiles.isIn hnil,
    h.isIn ⟨[], rfl, rfl⟩, h.stops.1⟩

end Calls

end Cursor

/-- The tokens of a text and the blanks between them make it up, and calls for the next token give
them in turn, each ending at the place that the call goes to. From then on no call gives a token or
moves on, and text is left only where a comment without a close begins. -/
theorem lex_tiling (p : SlashPolicy) (s : List Char) :
    Tiling s (lex p s).1 (lex p s).2 ∧
    (∀ n t, (lex p s).1[n]? = some t →
      ((Cursor.ofText s).after p n).next p = (some t, (Cursor.ofText s).after p (n + 1)) ∧
        ((Cursor.ofText s).after p (n + 1)).position = t.stop) ∧
    (∀ n, (lex p s).1.length ≤ n →
      ((Cursor.ofText s).after p n).next p = (none, (lex p s).2) ∧
        (∃ w, Blanks w ∧ ((Cursor.ofText s).after p n).rest = w ++ (lex p s).2.rest) ∧
        (((Cursor.ofText s).after p n).hasMoreText = true ↔ OpenComment (lex p s).2.rest)) ∧
    (lex p s).2.next p = (none, (lex p s).2) ∧
    ((lex p s).2.hasMoreText = true ↔ OpenComment (lex p s).2.rest) := by
  have h := lex_calls p s
  have hmore := Cursor.hasMoreText_iff (w := []) (by simp [Blanks]) rfl h.stops.1
  refine ⟨h.tiling, fun n t ht => ?_, fun n hn => ?_, h.stops.2, hmore⟩
  · have hnext := h.next_after ht
    obtain ⟨_, _, _, _, _, hpos⟩ := Cursor.next_some_spec hnext
    exact ⟨hnext, hpos⟩
  · have hnext := h.next_after_last hn
    obtain ⟨w, hw, hrest, _, hstop, _⟩ := Cursor.next_none_spec hnext
    exact ⟨hnext, ⟨w, hw, hrest⟩, Cursor.hasMoreText_iff hw hrest hstop⟩

/-- A blank of three bytes, a letter of two, and a comment without a close. -/
example : lex .joins "\u3000(é \"b\u3000/*".toList =
    ([⟨.openParen, 3, ['(']⟩, ⟨.symbol, 4, ['é']⟩, ⟨.symbol, 7, ['"', 'b']⟩],
      ⟨12, ['/', '*']⟩) := by
  cbv

end LispCalc
