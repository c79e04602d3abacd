import LispCalc.Proofs.Entry

namespace LispCalc

/-- Newlines put into a text that begins at the byte `n`, at places that `q` allows. -/
inductive Broken (q : Nat → Prop) : Nat → List Char → List Char → Prop where
  | nil {n : Nat} : Broken q n [] []
  | keep {n : Nat} {c : Char} {s s' : List Char} : Broken q (n + c.utf8Size) s s' →
      Broken q n (c :: s) (c :: s')
  | newline {n : Nat} {s s' : List Char} : q n → Broken q n s s' → Broken q n s ('\n' :: s')

def Between (ts : List Token) (place : Nat) : Prop :=
  ∀ t ∈ ts, ¬ (t.start < place ∧ place < t.stop)

/-- A place in no token, with an opening parenthesis before it and a closing one behind: in a list,
a place within its own parentheses. -/
structure IsBreak (p : SlashPolicy) (s : List Char) (place : Nat) : Prop where
  between : Between (lex p s).1 place
  opening : ∃ t ∈ (lex p s).1, t.kind = .openParen ∧ t.stop ≤ place
  closing : ∃ t ∈ (lex p s).1, t.kind = .closeParen ∧ place ≤ t.start

variable {p : SlashPolicy} {q : Nat → Prop} {c : Char} {n place : Nat}
  {s s' f f' g g' t u w r : List Char} {ts : List Token} {es : List Expr}

namespace Broken

theorem refl (s : List Char) (n : Nat) : Broken q n s s := by
  induction s generalizing n with
  | nil => exact .nil
  | cons c s ih => exact .keep (ih _)

theorem mem (h : Broken q n s s') : ∀ c ∈ s', c = '\n' ∨ c ∈ s := by
  induction h with
  | nil => simp
  | keep _ ih =>
    rw [List.forall_mem_cons]
    exact ⟨.inr List.mem_cons_self, fun d hd => (ih d hd).imp id (List.mem_cons_of_mem _)⟩
  | newline _ _ ih =>
    rw [List.forall_mem_cons]
    exact ⟨.inl rfl, ih⟩

theorem filter_eq (h : Broken q n s s') (hs : '\n' ∉ s) : s'.filter (· != '\n') = s := by
  induction h with
  | nil => rfl
  | @keep n c s s' _ ih =>
    rw [List.mem_cons, not_or] at hs
    rw [List.filter_cons_of_pos (by simpa using Ne.symm hs.1), ih hs.2]
  | newline _ _ ih => rw [List.filter_cons_of_neg (by simp), ih hs]

theorem front (h : Broken q n s (f' ++ '\n' :: g')) (hs : '\n' ∉ s) :
    ∃ f g, s = f ++ g ∧ Broken q n f f' ∧ q (n + Text.byteLength f) := by
  generalize hfull : f' ++ '\n' :: g' = s' at h
  induction h generalizing f' with
  | nil => simp at hfull
  | @keep n c s s' _ ih =>
    rw [List.mem_cons, not_or] at hs
    cases f' with
    | nil =>
      simp only [List.nil_append, List.cons.injEq] at hfull
      exact absurd hfull.1 hs.1
    | cons d f' =>
      simp only [List.cons_append, List.cons.injEq] at hfull
      obtain ⟨rfl, hfull⟩ := hfull
      obtain ⟨f, g, rfl, hf, hq⟩ := ih hs.2 hfull
      refine ⟨d :: f, g, rfl, .keep hf, ?_⟩
      rwa [Nat.add_assoc] at hq
  | @newline n s s' hn _ ih =>
    cases f' with
    | nil => exact ⟨[], s, rfl, .nil, hn⟩
    | cons d f' =>
      simp only [List.cons_append, List.cons.injEq] at hfull
      obtain ⟨rfl, hfull⟩ := hfull
      obtain ⟨f, g, rfl, hf, hq⟩ := ih hs hfull
      exact ⟨f, g, rfl, .newline hn hf, hq⟩

theorem exists_cons (h : Broken q n (c :: s) s') :
    ∃ k u, s' = List.replicate k '\n' ++ c :: u ∧ Broken q (n + c.utf8Size) s u := by
  generalize hfull : c :: s = full at h
  induction h with
  | nil => simp at hfull
  | keep h =>
    obtain ⟨rfl, rfl⟩ := List.cons.inj hfull
    exact ⟨0, _, rfl, h⟩
  | newline _ _ ih =>
    obtain ⟨k, u, rfl, hu⟩ := ih hfull
    exact ⟨k + 1, u, rfl, hu⟩

theorem exists_append (h : Broken q n (t ++ u) s')
    (hq : ∀ m, q m → ¬ (n ≤ m ∧ m < n + Text.byteLength t)) :
    ∃ u', s' = t ++ u' ∧ Broken q (n + Text.byteLength t) u u' := by
  induction t generalizing n s' with
  | nil => exact ⟨s', rfl, h⟩
  | cons c t ih =>
    have hpos := c.utf8Size_pos
    have hlength : Text.byteLength (c :: t) = c.utf8Size + Text.byteLength t := rfl
    rw [hlength, ← Nat.add_assoc] at hq ⊢
    cases h with
    | keep h =>
      obtain ⟨u', rfl, hu⟩ := ih h fun m hm => by
        have := hq m hm
        omega
      exact ⟨u', rfl, hu⟩
    | newline hn => exact absurd ⟨le_rfl, by omega⟩ (hq n hn)

end Broken

theorem blanks_replicate_newline (k : Nat) : Blanks (List.replicate k '\n') := by
  intro c hc
  rw [List.eq_of_mem_replicate hc]
  decide

theorem Respaced.append {w' v v' : List Char} (h : Respaced w w') (h' : Respaced v v') :
    Respaced (w ++ v) (w' ++ v') where
  before := List.forall_mem_append.mpr ⟨h.before, h'.before⟩
  after := List.forall_mem_append.mpr ⟨h.after, h'.after⟩
  keeps hne := by
    rw [ne_eq, List.append_eq_nil_iff, not_and_or] at hne ⊢
    exact hne.imp h.keeps h'.keeps

namespace Broken

theorem exists_blanks_append (h : Broken q n (w ++ u) s') (hw : Blanks w) :
    ∃ w' u', s' = w' ++ u' ∧ Respaced w w' ∧ Broken q (n + Text.byteLength w) u u' := by
  induction w generalizing n s' with
  | nil => exact ⟨[], s', rfl, .refl hw, h⟩
  | cons c w ih =>
    rw [Blanks, List.forall_mem_cons] at hw
    obtain ⟨k, v, rfl, hv⟩ := h.exists_cons
    obtain ⟨w', u', rfl, hresp, hu⟩ := ih hv hw.2
    have hc : Respaced [c] [c] := .refl (List.forall_mem_singleton.mpr hw.1)
    refine ⟨List.replicate k '\n' ++ c :: w', u', by simp, ?_, ?_⟩
    · exact (Respaced.insert (blanks_replicate_newline k)).append (hc.append hresp)
    · rwa [Nat.add_assoc] at hu

theorem exists_token (h : Broken q n (w ++ (t ++ u)) s') (hw : Blanks w) (ht : t ≠ [])
    (hq : ∀ m, q m →
      ¬ (n + Text.byteLength w < m ∧ m < n + Text.byteLength w + Text.byteLength t)) :
    ∃ w' u', s' = w' ++ (t ++ u') ∧ Respaced w w' ∧
      Broken q (n + Text.byteLength w + Text.byteLength t) u u' := by
  obtain ⟨w', v, rfl, hresp, hv⟩ := h.exists_blanks_append hw
  obtain ⟨c, t, rfl⟩ := List.exists_cons_of_ne_nil ht
  have hpos := c.utf8Size_pos
  have hlength : Text.byteLength (c :: t) = c.utf8Size + Text.byteLength t := rfl
  rw [hlength, ← Nat.add_assoc] at hq ⊢
  obtain ⟨k, x, rfl, hx⟩ := hv.exists_cons
  obtain ⟨u', rfl, hu⟩ := hx.exists_append fun m hm => by
    have := hq m hm
    omega
  refine ⟨w' ++ List.replicate k '\n', u', by simp, ?_, hu⟩
  have hresp' := hresp.append (.insert (blanks_replicate_newline k))
  rwa [List.append_nil] at hresp'

theorem respaced (h : Broken q n w s') (hw : Blanks w) : Respaced w s' where
  before := hw
  after c hc := by
    obtain rfl | hc := h.mem c hc
    · decide
    · exact hw c hc
  keeps hne hnil := by
    subst hnil
    cases h
    exact hne rfl

end Broken

namespace Placed

theorem exists_blanks (h : Placed p n s [] r) : ∃ w, Blanks w ∧ s = w ++ r := h.lexes.exists_blanks

theorem exists_cons {t : Token} (h : Placed p n s (t :: ts) r) :
    ∃ w u, s = w ++ (t.text ++ u) ∧ Blanks w ∧ t.start = n + Text.byteLength w ∧
      lexeme? p (t.text ++ u) = some (t.kind, t.text, u) ∧ Placed p t.stop u ts r := by
  cases h with
  | @token _ _ u _ _ _ ht hstart h =>
    have htext := lexeme?_append ht
    refine ⟨s.takeWhile Text.isBlank, u, ?_, fun c hc => List.mem_takeWhile_imp hc, hstart, ?_, h⟩
    · rw [htext, Text.trimStart, List.takeWhile_append_dropWhile]
    · rwa [htext]

theorem stop_le (h : Placed p n s ts r) : ∀ t ∈ ts, t.stop ≤ n + Text.byteLength s := by
  induction ts generalizing n s with
  | nil => simp
  | cons t ts ih =>
    obtain ⟨w, u, rfl, _, hstart, _, hu⟩ := h.exists_cons
    have hstop : t.stop + Text.byteLength u = n + Text.byteLength (w ++ (t.text ++ u)) := by
      rw [Token.stop, hstart, Text.byteLength_append, Text.byteLength_append]
      omega
    rw [List.forall_mem_cons, ← hstop]
    exact ⟨Nat.le_add_right _ _, ih hu⟩

end Placed

theorem Broken.relaid (hb : Broken q n f f') (h : Placed p n (f ++ g) ts [])
    (hq : ∀ m, q m → Between ts m) (hcut : Between ts (n + Text.byteLength f)) :
    Relaid p f f' := by
  have hblank {n : Nat} {f f' : List Char} (hb : Broken q n f f') (hf : Blanks f) :
      Relaid p f f' := by
    have hnone : lexeme? p [] = none := by cases p <;> rfl
    have hfinish := Relaid.finish (hb.respaced hf) hnone rfl
    rwa [List.append_nil, List.append_nil] at hfinish
  induction ts generalizing n f f' with
  | nil =>
    obtain ⟨w, hw, hfw⟩ := h.exists_blanks
    rw [List.append_nil] at hfw
    exact hblank hb fun c hc => hw c (hfw ▸ List.mem_append_left _ hc)
  | cons t ts ih =>
    obtain ⟨w, u, hfw, hw, hstart, ht, hu⟩ := h.exists_cons
    obtain ⟨_, hshape, hends⟩ := lexeme?_sound ht
    have hstop : t.stop = t.start + Text.byteLength t.text := rfl
    obtain ⟨v, rfl⟩ | ⟨a, b, ha, hb', htext, rfl⟩ | ⟨v, rfl, rfl⟩ := cut_cases hfw.symm
    · -- the text ends in the blanks in front of the token
      exact hblank hb fun c hc => hw c (List.mem_append_left _ hc)
    · -- the cut would be in the token
      have hpos := Text.byteLength_pos ha
      have hpos' := Text.byteLength_pos hb'
      rw [htext, Text.byteLength_append] at hstop
      rw [Text.byteLength_append] at hcut
      exact absurd ⟨by omega, by omega⟩ (hcut t List.mem_cons_self)
    · obtain ⟨w', u', rfl, hresp, hv⟩ := hb.exists_token hw (lexeme?_ne_nil ht) fun m hm => by
        have := hq m hm t List.mem_cons_self
        omega
      have hends' := hends.of_append
      refine .token hresp (lexeme?_complete hshape hends') (ih (n := t.stop) ?_ hu ?_ ?_)
      · rwa [hstop, hstart]
      · exact fun m hm x hx => hq m hm x (List.mem_cons_of_mem _ hx)
      · intro x hx
        have := hcut x (List.mem_cons_of_mem _ hx)
        rw [Text.byteLength_append, Text.byteLength_append] at this
        omega

namespace Expr

theorem parse_eq_of_placed (hb : Broken q n f f') (h : Placed p n (f ++ g) ts [])
    (hq : ∀ m, q m → Between ts m) (hcut : Between ts (n + Text.byteLength f)) :
    parse p f' = parse p f := by
  obtain ⟨_, _, _, hl, hl', hls⟩ := (hb.relaid h hq hcut).lexes
  exact parse_congr hl hl' hls rfl

theorem placed_of_parse {e : Expr} (h : parse p s = .ok e) : Placed p 0 s (lex p s).1 [] := by
  have hplaced := lex_placed p s
  rwa [(lex_of_parse h).1] at hplaced

/-- A text that is read is read in the same way with newlines between its tokens. -/
theorem parse_eq_of_broken {e : Expr} (h : parse p s = .ok e)
    (hb : Broken (IsBreak p s) 0 s s') : parse p s' = parse p s := by
  have hplaced := placed_of_parse h
  refine parse_eq_of_placed (g := []) hb (by rwa [List.append_nil]) (fun m hm => hm.between) ?_
  intro t ht
  have := hplaced.stop_le t ht
  omega

theorem isIncomplete_of_broken {e : Expr} (h : parse p s = .ok e) (hs : '\n' ∉ s)
    (hb : Broken (IsBreak p s) 0 s (f' ++ '\n' :: g')) : isIncomplete p f' = true := by
  obtain ⟨f, g, rfl, hf, hbreak⟩ := hb.front hs
  have hparse := parse_eq_of_placed hf (placed_of_parse h) (fun m hm => hm.between) hbreak.between
  obtain ⟨a, ha, hka, hopen⟩ := hbreak.opening
  obtain ⟨b, hb, hkb, hclose⟩ := hbreak.closing
  rw [Nat.zero_add] at hopen hclose
  have hfront : isIncomplete p f = true := by
    refine isIncomplete_of_parse_append h (Token.mem_significant.mpr ⟨ha, by simp [hka]⟩)
      (Token.mem_significant.mpr ⟨hb, by simp [hkb]⟩) hopen hclose fun t ht _ => ?_
    have := hbreak.between t ht
    rwa [Nat.zero_add] at this
  rwa [isIncomplete, hparse, ← isIncomplete]

end Expr

end LispCalc
