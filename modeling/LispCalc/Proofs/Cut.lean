import LispCalc.Proofs.Extension

namespace LispCalc

variable {p : SlashPolicy} {s q t u r r' : List Char} {n : Nat} {ts : List Token}

/-- The tokens of a text that begins at the byte `n`, each where it stands, and the rest behind
them. -/
inductive Placed (p : SlashPolicy) : Nat → List Char → List Token → List Char → Prop where
  | stop {n : Nat} {s : List Char} : lexeme? p (Text.trimStart s) = none →
      Placed p n s [] (Text.trimStart s)
  | token {n : Nat} {s u r : List Char} {t : Token} {ts : List Token} :
      lexeme? p (Text.trimStart s) = some (t.kind, t.text, u) →
      t.start = n + Text.byteLength (s.takeWhile Text.isBlank) → Placed p t.stop u ts r →
      Placed p n s (t :: ts) r

theorem Cursor.Calls.placed {c final : Cursor} (h : Cursor.Calls p c ts final) :
    Placed p c.position c.rest ts final.rest := by
  induction h with
  | stop h =>
    obtain ⟨hn, rfl⟩ := Cursor.next_eq_none h
    exact .stop hn
  | token h _ ih =>
    obtain ⟨hx, hstart, hpos⟩ := Cursor.next_eq_some h
    rw [hpos] at ih
    exact .token hx hstart ih

theorem lex_placed (p : SlashPolicy) (s : List Char) :
    Placed p 0 s (lex p s).1 (lex p s).2.rest :=
  (lex_calls p s).placed

namespace Placed

variable {t : Token} {w : List Char}

theorem unique {ts' : List Token} (h : Placed p n s ts r) (h' : Placed p n s ts' r') :
    ts = ts' ∧ r = r' := by
  induction h generalizing ts' r' with
  | stop hs =>
    cases h' with
    | stop => exact ⟨rfl, rfl⟩
    | token ht => simp [hs] at ht
  | @token n s u r t ts ht hstart _ ih =>
    cases h' with
    | stop hs => simp [hs] at ht
    | @token _ _ u' _ t' ts' ht' hstart' h' =>
      rw [ht] at ht'
      simp only [Option.some.injEq, Prod.mk.injEq] at ht'
      obtain ⟨hk, htext, rfl⟩ := ht'
      obtain rfl : t = t' := by
        cases t
        cases t'
        simp_all
      obtain ⟨rfl, rfl⟩ := ih h'
      exact ⟨rfl, rfl⟩

theorem lexes (h : Placed p n s ts r) : Lexes p s (ts.map Token.lexeme) r := by
  induction h with
  | stop hs => exact .stop hs
  | token ht _ _ ih => exact .token ht ih

theorem le_start (h : Placed p n s ts r) : ∀ t ∈ ts, n ≤ t.start := by
  induction h with
  | stop => simp
  | @token n s u r t ts _ hstart _ ih =>
    rw [List.forall_mem_cons]
    refine ⟨by omega, fun v hv => ?_⟩
    have hle := ih v hv
    rw [Token.stop] at hle
    omega

theorem cons (hw : Blanks w) (hstart : t.start = n + Text.byteLength w)
    (hx : t.lexeme.Shaped p) (hends : t.lexeme.EndsBefore p u) (h : Placed p t.stop u ts r) :
    Placed p n (w ++ (t.text ++ u)) (t :: ts) r := by
  obtain ⟨c, v, htext, hc⟩ := hx.text_eq_cons
  have hhead : ∀ d ∈ (t.text ++ u).head?, Text.isBlank d = false := by
    intro d hd
    obtain rfl : c = d := by simpa [show t.text = c :: v from htext] using hd
    exact hc
  obtain ⟨htake, hdrop⟩ := takeWhile_dropWhile_eq_iff.mpr ⟨rfl, hw, hhead⟩
  refine .token ?_ ?_ h
  · rw [Text.trimStart, hdrop]
    exact lexeme?_complete hx hends
  · rw [htake]
    exact hstart

theorem blanks (hw : Blanks w) (h : Placed p (n + Text.byteLength w) s ts r) :
    Placed p n (w ++ s) ts r := by
  have htrim : Text.trimStart (w ++ s) = Text.trimStart s := by
    rw [Text.trimStart, List.dropWhile_append_of_pos hw, Text.trimStart]
  cases h with
  | stop hs =>
    rw [← htrim] at hs ⊢
    exact .stop hs
  | token hs hstart h =>
    rw [← htrim] at hs
    refine .token hs ?_ h
    rw [hstart, List.takeWhile_append_of_pos hw, Text.byteLength_append]
    omega

theorem of_blanks (hw : Blanks w) : Placed p n w [] [] := by
  have hnil : Placed p (n + Text.byteLength w) [] [] [] := .stop (by cases p <;> rfl)
  rw [← List.append_nil w]
  exact hnil.blanks hw

theorem of_openComment (h : OpenComment s) : Placed p n s [] s := by
  have hn := lexeme?_openComment (p := p) h
  rw [← h.trimStart_eq] at hn
  have hstop := Placed.stop (n := n) hn
  rwa [h.trimStart_eq] at hstop

end Placed

theorem exists_placed (p : SlashPolicy) (n : Nat) (s : List Char) : ∃ ts r, Placed p n s ts r := by
  obtain ⟨ts, _, h⟩ := Cursor.tokensFrom_calls p [] ⟨n, s⟩
  exact ⟨ts, _, h.placed⟩

theorem lex_eq_of_placed (h : Placed p 0 s ts r) : (lex p s).1 = ts ∧ (lex p s).2.rest = r :=
  (lex_placed p s).unique h

theorem prefix_of_append_eq_concat {body : List Char} {c : Char} (h : s ++ q = body ++ [c])
    (hq : q ≠ []) : s <+: body := by
  obtain rfl | hs := List.prefix_concat_iff.mp ⟨q, h⟩
  · exact absurd (List.append_right_eq_self.mp h) hq
  · exact hs

namespace Lexeme

theorem IsWord.of_append (h : IsWord p (s ++ q)) (hs : s ≠ []) : IsWord p s := by
  obtain ⟨_, hsep, hcomment, hquote⟩ := h
  refine ⟨hs, fun c hc => hsep c (List.mem_append_left _ hc),
    fun hp => hcomment (hp.trans (List.prefix_append _ _)), fun hh hm => ?_⟩
  obtain ⟨c, s, rfl⟩ := List.exists_cons_of_ne_nil hs
  exact hquote hh (List.mem_append_left _ hm)

theorem shaped_slash (p : SlashPolicy) : Shaped p ⟨.symbol, ['/']⟩ := by
  cases p with
  | joins => exact .inr ⟨by simp, List.forall_mem_singleton.mpr (by decide), by decide, by simp⟩
  | separates => exact .inl ⟨rfl, rfl⟩

theorem IsComment.of_append (h : IsComment (s ++ q)) (hs : s ≠ []) (hq : q ≠ []) :
    s = ['/'] ∨ OpenComment s := by
  obtain ⟨body, hbody, happ⟩ := h
  obtain ⟨c, s, rfl⟩ := List.exists_cons_of_ne_nil hs
  cases s with
  | nil =>
    simp only [List.cons_append, List.nil_append, List.cons.injEq] at happ
    exact .inl (by rw [happ.1])
  | cons d s =>
    simp only [List.cons_append, List.cons.injEq] at happ
    obtain ⟨rfl, rfl, happ⟩ := happ
    have hfront : s <+: body ++ ['*'] :=
      prefix_of_append_eq_concat (by rw [happ, List.append_assoc]; rfl) hq
    refine .inr ⟨s, fun hclose => ?_, rfl⟩
    obtain hend | hin := List.infix_concat_iff.mp (hclose.trans hfront.isInfix)
    · obtain ⟨u, hu⟩ := hend
      simpa using congrArg List.getLast? hu
    · exact hbody hin

theorem IsQuoted.of_append (h : IsQuoted (s ++ q)) (hs : s ≠ []) (hq : q ≠ []) :
    ∃ inner, '"' ∉ inner ∧ s = '"' :: inner := by
  obtain ⟨inner, hinner, happ⟩ := h
  obtain ⟨c, s, rfl⟩ := List.exists_cons_of_ne_nil hs
  simp only [List.cons_append, List.cons.injEq] at happ
  obtain ⟨rfl, happ⟩ := happ
  have hfront : s <+: inner := prefix_of_append_eq_concat happ hq
  exact ⟨s, fun hm => hinner (hfront.subset hm), rfl⟩

end Lexeme

theorem lexeme?_loneQuote (h : '"' ∉ s) :
    ∃ t u, lexeme? p ('"' :: s) = some (.symbol, '"' :: t, u) := by
  obtain ⟨t, u, ht⟩ : ∃ t u, symbol? p ('"' :: s) = some (t, u) :=
    exists_symbol?_eq_some (.inl (by cases p <;> decide))
  have hq : quoted? ('"' :: s) = none := quoted?_eq_none_iff.mpr fun _ => h
  obtain ⟨c, t, rfl⟩ := List.exists_cons_of_ne_nil (symbol?_ne_nil ht)
  have happ := symbol?_append ht
  simp only [List.cons_append, List.cons.injEq] at happ
  obtain ⟨rfl, _⟩ := happ
  refine ⟨t, u, ?_⟩
  rw [lexeme?_of_other (by simp) (by simp) (by simp), hq, ht]
  rfl

/-- What a text ends with that goes no further than the byte `place` of a longer one. From there on
the longer text has `later`; the shorter one has the tokens `tail` and then the rest `r`. -/
inductive Torn (s : List Char) (place : Nat) :
    (later tail : List Token) → (r : List Char) → Prop where
  | between {later : List Token} : Torn s place later [] []
  | symbol {t v : Token} {later : List Token} : t.kind = .symbol → v.kind = .symbol →
      Torn s place (t :: later) [v] []
  | opening {t v : Token} {later : List Token} : t.kind = .comment → v.kind = .symbol →
      v.text = ['/'] → ['/'] <:+ s → Torn s place (t :: later) [v] []
  | comment {t : Token} {later : List Token} {r : List Char} : t.kind = .comment →
      OpenComment r → Torn s place (t :: later) [] r
  | quoted {t v : Token} {later tail : List Token} {r : List Char} : t.kind = .quoted →
      t.start < place → place < t.stop → v.lexeme.OpensQuote →
      Torn s place (t :: later) (v :: tail) r

theorem Torn.of_suffix {place : Nat} {later tail : List Token} (h : Torn s place later tail r)
    (hs : s <:+ q) : Torn q place later tail r := by
  cases h with
  | between => exact .between
  | symbol ht hv => exact .symbol ht hv
  | opening ht hv htext hslash => exact .opening ht hv htext (hslash.trans hs)
  | comment ht hr => exact .comment ht hr
  | quoted ht hl hr hv => exact .quoted ht hl hr hv

theorem exists_torn {t : Token} (later : List Token) (hx : t.lexeme.Shaped p)
    (htext : t.text = s ++ q) (hs : s ≠ []) (hq : q ≠ []) :
    ∃ tail r, Placed p t.start s tail r ∧
      Torn s (t.start + Text.byteLength s) (t :: later) tail r := by
  have hpos := Text.byteLength_pos hs
  have hpos' := Text.byteLength_pos hq
  have hstop : t.stop = t.start + (Text.byteLength s + Text.byteLength q) := by
    rw [Token.stop, htext, Text.byteLength_append]
  -- a symbol that is all of the text
  have single {v : Token} (hv : v.lexeme.Shaped p) (hstart : v.start = t.start)
      (hvs : v.text = s) : Placed p t.start s [v] [] := by
    have hnil : Placed p v.stop [] [] [] := .of_blanks (by simp [Blanks])
    have hends : v.lexeme.EndsBefore p [] := Lexeme.endsBefore_of_separator (by simp) (by simp)
    have hone := Placed.cons (n := t.start) (w := []) (by simp [Blanks]) hstart hv hends hnil
    rwa [List.append_nil, List.nil_append, hvs] at hone
  have hshape : Lexeme.Shaped p ⟨t.kind, s ++ q⟩ := htext ▸ hx
  cases hk : t.kind with
  | openParen | closeParen =>
    rw [hk] at hshape
    have hlen := congrArg List.length (show s ++ q = [_] from hshape)
    have := List.length_pos_iff.mpr hs
    have := List.length_pos_iff.mpr hq
    rw [List.length_append, List.length_singleton] at hlen
    omega
  | comment =>
    rw [hk] at hshape
    obtain rfl | hopen := Lexeme.IsComment.of_append hshape hs hq
    · exact ⟨_, _, single (v := ⟨.symbol, t.start, ['/']⟩) (Lexeme.shaped_slash p) rfl rfl,
        .opening hk rfl rfl List.suffix_rfl⟩
    · exact ⟨[], s, .of_openComment hopen, .comment hk hopen⟩
  | quoted =>
    rw [hk] at hshape
    obtain ⟨inner, hinner, rfl⟩ := Lexeme.IsQuoted.of_append hshape hs hq
    obtain ⟨v, u, hv⟩ := lexeme?_loneQuote (p := p) hinner
    obtain ⟨tail, r, htail⟩ := exists_placed p (t.start + Text.byteLength ('"' :: v)) u
    exact ⟨⟨.symbol, t.start, '"' :: v⟩ :: tail, r, .token hv rfl htail,
      .quoted hk (by omega) (by omega) ⟨rfl, rfl⟩⟩
  | symbol =>
    rw [hk] at hshape
    obtain ⟨_, hslash⟩ | hw := hshape
    · have hnil : s <+: [] := prefix_of_append_eq_concat hslash hq
      exact absurd (List.prefix_nil.mp hnil) hs
    · exact ⟨_, _, single (v := ⟨.symbol, t.start, s⟩) (.inr (hw.of_append hs)) rfl rfl,
        .symbol hk rfl⟩
  | start | finish | unknown =>
    rw [hk] at hshape
    exact hshape.elim

theorem cut_cases {w : List Char} (h : w ++ (t ++ u) = s ++ q) :
    (∃ v, w = s ++ v) ∨ (∃ a b, a ≠ [] ∧ b ≠ [] ∧ t = a ++ b ∧ s = w ++ a) ∨
      ∃ v, s = w ++ (t ++ v) ∧ u = v ++ q := by
  obtain ⟨a, hs, htu⟩ | ⟨v, hw, _⟩ := List.append_eq_append_iff.mp h
  · obtain ⟨v, hv, hu⟩ | ⟨b, hb, hq⟩ := List.append_eq_append_iff.mp htu
    · exact .inr (.inr ⟨v, by rw [hs, hv], hu⟩)
    · by_cases ha : a = []
      · exact .inl ⟨[], by rw [hs, ha, List.append_nil, List.append_nil]⟩
      · by_cases hbn : b = []
        · subst hbn
          rw [List.append_nil] at hb
          exact .inr (.inr ⟨[], by rw [hs, hb, List.append_nil], by rw [hq]; rfl⟩)
        · exact .inr (.inl ⟨a, b, ha, hbn, hb, hs⟩)
  · exact .inl ⟨v, hw⟩

/-- The tokens of a text that is cut off are those of the whole text that end before the cut, and
what is left of the token that the cut falls into. -/
theorem Placed.cut (h : Placed p n (s ++ q) ts []) :
    ∃ done later tail r, ts = done ++ later ∧ Placed p n s (done ++ tail) r ∧
      (∀ t ∈ done, t.stop ≤ n + Text.byteLength s) ∧
      (∀ t ∈ later, n + Text.byteLength s < t.stop) ∧
      Torn s (n + Text.byteLength s) later tail r := by
  generalize hfull : s ++ q = full at h
  generalize hnil : ([] : List Char) = rest at h
  induction h generalizing s with
  | @stop n full hstop =>
    obtain ⟨w, hw, hfw⟩ := exists_blanks_append full
    rw [← hnil, List.append_nil, ← hfull] at hfw
    have hs : Blanks s := fun c hc => hw c (hfw ▸ List.mem_append_left _ hc)
    exact ⟨[], [], [], [], rfl, .of_blanks hs, by simp, by simp, .between⟩
  | @token n full u r t ts ht hstart h ih =>
    obtain ⟨htu, hshape, hends⟩ := lexeme?_sound ht
    obtain ⟨w, hw, hfw⟩ : ∃ w, w = full.takeWhile Text.isBlank ∧ full = w ++ Text.trimStart full :=
      ⟨_, rfl, List.takeWhile_append_dropWhile.symm⟩
    have hblanks : Blanks w := fun c hc => List.mem_takeWhile_imp (hw ▸ hc)
    rw [← hw] at hstart
    rw [htu, ← hfull] at hfw
    have hlater {place : Nat} (hlt : place < t.stop) : ∀ v ∈ t :: ts, place < v.stop := by
      refine List.forall_mem_cons.mpr ⟨hlt, fun v hv => ?_⟩
      have hle := h.le_start v hv
      rw [Token.stop]
      omega
    obtain ⟨v, hwv⟩ | ⟨a, b, ha, hb, htext, rfl⟩ | ⟨v, rfl, rfl⟩ := cut_cases hfw.symm
    · -- the cut is in the blanks in front of the token
      have hs : Blanks s := fun c hc => hblanks c (hwv ▸ List.mem_append_left _ hc)
      have hpos := Text.byteLength_pos (lexeme?_ne_nil ht)
      refine ⟨[], t :: ts, [], [], rfl, .of_blanks hs, by simp, hlater ?_, .between⟩
      rw [Token.stop, hstart, hwv, Text.byteLength_append]
      omega
    · -- the cut is in the token
      obtain ⟨tail, r, hplaced, htorn⟩ := exists_torn ts hshape htext ha hb
      have hpos := Text.byteLength_pos hb
      have hplace : n + Text.byteLength (w ++ a) = t.start + Text.byteLength a := by
        rw [hstart, Text.byteLength_append]
        omega
      rw [hplace]
      refine ⟨[], t :: ts, tail, r, rfl, .blanks hblanks (hstart ▸ hplaced), by simp, hlater ?_,
        htorn.of_suffix (List.suffix_append _ _)⟩
      rw [Token.stop, htext, Text.byteLength_append]
      omega
    · obtain ⟨done, later, tail, r, rfl, hplaced, hdone, hrest, htorn⟩ := ih rfl hnil
      have hplace : n + Text.byteLength (w ++ (t.text ++ v)) = t.stop + Text.byteLength v := by
        rw [Token.stop, hstart, Text.byteLength_append, Text.byteLength_append]
        omega
      rw [hplace]
      refine ⟨t :: done, later, tail, r, rfl, hplaced.cons hblanks hstart hshape hends.of_append,
        List.forall_mem_cons.mpr ⟨by omega, hdone⟩, hrest, htorn.of_suffix ?_⟩
      exact ⟨w ++ t.text, by rw [List.append_assoc]⟩

end LispCalc
