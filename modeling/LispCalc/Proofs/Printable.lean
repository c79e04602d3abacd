import LispCalc.Proofs.Completion
import LispCalc.Proofs.Grammar

namespace LispCalc

/-- Equality of values in which not-a-number is equal to itself. -/
def Value.Agrees (v w : Value) : Prop :=
  v.same w = true ∨ ∃ x y, v = .float x ∧ w = .float y ∧ x.isNaN = true ∧ y.isNaN = true

namespace Expr

open Token

mutual

/-- The same tree with the same texts, and with values that `R` relates. -/
def Like (R : Value → Value → Prop) : Expr → Expr → Prop
  | null, null => True
  | atom r v, atom s w => r = s ∧ R v w
  | list es, list fs => LikeAll R es fs
  | _, _ => False

def LikeAll (R : Value → Value → Prop) : List Expr → List Expr → Prop
  | [], [] => True
  | e :: es, f :: fs => e.Like R f ∧ LikeAll R es fs
  | _, _ => False

end

/-- A quote at either end and none between them; the value is the string between them. -/
def IsStringAtom (R : Value → Value → Prop) (raw : List Char) (v : Value) : Prop :=
  ∃ inner, '"' ∉ inner ∧ raw = '"' :: (inner ++ ['"']) ∧ R (.string (String.ofList inner)) v

/-- A text that is cut off whole as a symbol in front of `after`, with what it is a literal of as
its value. -/
structure IsSymbolAtom (R : Value → Value → Prop) (p : SlashPolicy) (after raw : List Char)
    (v : Value) : Prop where
  ne_nil : raw ≠ []
  unbroken : ∀ c ∈ raw, Text.isBlank c = false ∧ c ≠ '(' ∧ c ≠ ')'
  value : R (Literal.classify raw) v
  noComment : p = .joins → ¬ ['/', '*'] <+: raw
  slash : p = .separates → raw = ['/'] ∨ '/' ∉ raw
  quote : raw.head? = some '"' → '"' ∉ raw.tail ++ after

mutual

/-- Every leaf is an atom that is read again from its text. `after` is what the whole text has
behind the expression. -/
def Printable (R : Value → Value → Prop) (p : SlashPolicy) (after : List Char) : Expr → Prop
  | null => False
  | atom raw v => IsStringAtom R raw v ∨ IsSymbolAtom R p after raw v
  | list es => PrintableAll R p (')' :: after) es

def PrintableAll (R : Value → Value → Prop) (p : SlashPolicy) (after : List Char) :
    List Expr → Prop
  | [] => True
  | e :: es => e.Printable R p (gap es ++ after) ∧ PrintableAll R p after es

end

variable {R : Value → Value → Prop} {p : SlashPolicy} {after raw s r : List Char} {v : Value}
  {e f : Expr} {es fs : List Expr} {t : Token} {ts : List Token} {ls : List Lexeme}

theorem isSymbolAtom_iff :
    IsSymbolAtom R p after raw v ↔ R (Literal.classify raw) v ∧
      Lexeme.Shaped p ⟨.symbol, raw⟩ ∧ (raw.head? = some '"' → '"' ∉ after) := by
  constructor
  · rintro ⟨hne, hbroken, hv, hcomment, hslash, hquote⟩
    simp only [List.mem_append, not_or] at hquote
    refine ⟨hv, ?_, fun h => (hquote h).2⟩
    cases p with
    | joins =>
      refine .inr ⟨hne, fun c hc => ?_, hcomment rfl, fun h => (hquote h).1⟩
      simp [SlashPolicy.isSeparator, hbroken c hc]
    | separates =>
      obtain rfl | hnot := hslash rfl
      · exact .inl ⟨rfl, rfl⟩
      · refine .inr ⟨hne, fun c hc => ?_, fun hp => ?_, fun h => (hquote h).1⟩
        · have hc' : c ≠ '/' := fun h => hnot (h ▸ hc)
          simp [SlashPolicy.isSeparator, hbroken c hc, hc']
        · exact hnot (hp.subset (by simp))
  · rintro ⟨hv, ⟨rfl, rfl⟩ | ⟨hne, hsep, hcomment, hquote⟩, hafter⟩
    · have hbroken : ∀ c ∈ ['/'], Text.isBlank c = false ∧ c ≠ '(' ∧ c ≠ ')' :=
        List.forall_mem_singleton.mpr (by decide)
      exact ⟨by simp, hbroken, hv, by simp, fun _ => .inl rfl, by simp⟩
    · simp only [SlashPolicy.isSeparator, Bool.or_eq_false_iff, beq_eq_false_iff_ne] at hsep
      refine ⟨hne, fun c hc => ⟨(hsep c hc).1.1.1, (hsep c hc).1.1.2, (hsep c hc).1.2⟩, hv,
        fun _ => hcomment, ?_, fun h => ?_⟩
      · rintro rfl
        refine .inr fun hm => ?_
        simpa using (hsep _ hm).2
      · rw [List.mem_append, not_or]
        exact ⟨hquote h, hafter h⟩

theorem LikeAll.inductionOn {motive : List Expr → List Expr → Prop} (nil : motive [] [])
    (null : ∀ es fs, motive es fs → motive (null :: es) (null :: fs))
    (atom : ∀ raw v w es fs, R v w → motive es fs → motive (atom raw v :: es) (atom raw w :: fs))
    (list : ∀ es fs es' fs', motive es fs → motive es' fs' →
      motive (list es :: es') (list fs :: fs'))
    (h : LikeAll R es fs) : motive es fs := by
  induction es using row_inductionOn generalizing fs with
  | nil =>
    cases fs with
    | nil => exact nil
    | cons => exact h.elim
  | null es ih =>
    match fs, h with
    | .null :: fs, h => exact null es fs (ih h.2)
  | atom raw v es ih =>
    match fs, h with
    | .atom _ w :: fs, ⟨⟨rfl, hv⟩, h⟩ => exact atom raw v w es fs hv (ih h)
  | list gs es ihg ih =>
    match fs, h with
    | .list hs :: fs, h => exact list gs hs es fs (ihg h.1) (ih h.2)

namespace LikeAll

theorem gap_eq (h : LikeAll R es fs) : gap es = gap fs := by
  refine LikeAll.inductionOn (motive := fun es fs => gap es = gap fs) rfl ?_ ?_ ?_ h
  · intro es fs ih
    rw [gap_cons, gap_cons, ih]
  · intro raw v w es fs _ ih
    simp only [gap_cons, text, ih]
  · intro es fs es' fs' ih ih'
    simp only [gap_cons, text, texts_eq_tail_gap, ih, ih']

theorem nestingAll_eq (h : LikeAll R es fs) : nestingAll es = nestingAll fs := by
  refine LikeAll.inductionOn (motive := fun es fs => nestingAll es = nestingAll fs) rfl ?_ ?_ ?_ h
  · intro es fs ih
    simp only [nestingAll, ih, nesting]
  · intro raw v w es fs _ ih
    simp only [nestingAll, ih, nesting]
  · intro es fs es' fs' ih ih'
    simp only [nestingAll, nesting, ih, ih']

theorem eq (h : LikeAll Eq es fs) : es = fs := by
  refine LikeAll.inductionOn (motive := fun es fs => es = fs) rfl ?_ ?_ ?_ h
  · intro es fs ih
    rw [ih]
  · intro raw v w es fs hv ih
    rw [hv, ih]
  · intro es fs es' fs' ih ih'
    rw [ih, ih']

theorem single (h : e.Like R f) : LikeAll R [e] [f] := ⟨h, trivial⟩

end LikeAll

theorem Like.text_eq (h : e.Like R f) : e.text = f.text := by
  simpa [gap, texts] using (LikeAll.single h).gap_eq

theorem Like.nesting_eq (h : e.Like R f) : e.nesting = f.nesting := by
  simpa [nestingAll] using (LikeAll.single h).nestingAll_eq

theorem likeAll_refl (hR : ∀ v, R v v) (es : List Expr) : LikeAll R es es := by
  induction es using row_inductionOn with
  | nil => trivial
  | null es ih => exact ⟨trivial, ih⟩
  | atom raw v es ih => exact ⟨⟨rfl, hR v⟩, ih⟩
  | list fs es ihf ih => exact ⟨ihf, ih⟩

theorem like_eq_iff : e.Like Eq f ↔ e = f := by
  constructor
  · intro h
    simpa using (LikeAll.single h).eq
  · rintro rfl
    exact (likeAll_refl (fun _ => rfl) [e]).1

theorem sameAll_iff_likeAll :
    sameAll es fs = true ↔ LikeAll (fun v w => v.same w = true) es fs := by
  induction es using row_inductionOn generalizing fs with
  | nil => cases fs <;> simp [sameAll, LikeAll]
  | null es ih => rcases fs with _ | ⟨_ | _ | _, fs⟩ <;> simp [sameAll, LikeAll, same, Like, ih]
  | atom raw v es ih =>
    rcases fs with _ | ⟨_ | _ | _, fs⟩ <;> simp [sameAll, LikeAll, same, Like, ih]
  | list gs es ihg ih =>
    rcases fs with _ | ⟨_ | _ | _, fs⟩ <;> simp [sameAll, LikeAll, same, Like, ihg, ih]

theorem same_iff_like : e.same f = true ↔ e.Like (fun v w => v.same w = true) f := by
  have row : sameAll [e] [f] = true ↔ LikeAll (fun v w => v.same w = true) [e] [f] :=
    sameAll_iff_likeAll
  simpa [sameAll, LikeAll] using row

/-- An atom is read again exactly where some token has its text, stands for its value, and is cut
off in front of what comes next. -/
theorem printable_atom_iff :
    (atom raw v).Printable R p after ↔ ∃ t : Token, ∃ w, t.IsAtom ∧ t.text = raw ∧
      t.lexeme.Shaped p ∧ (t.lexeme.OpensQuote → '"' ∉ after) ∧ t.StandsFor w ∧ R w v := by
  constructor
  · rintro (⟨inner, hinner, rfl, hv⟩ | h)
    · exact ⟨⟨.quoted, 0, _⟩, _, by simp [Token.IsAtom], rfl, ⟨inner, hinner, rfl⟩,
        fun h => by simp [lexeme, Lexeme.OpensQuote] at h, .inl ⟨rfl, inner, rfl, rfl⟩, hv⟩
    · obtain ⟨hv, hshape, hquote⟩ := isSymbolAtom_iff.mp h
      exact ⟨⟨.symbol, 0, raw⟩, _, by simp [Token.IsAtom], rfl, hshape, fun h => hquote h.2,
        .inr ⟨rfl, rfl⟩, hv⟩
  · rintro ⟨t, w, -, rfl, hshape, hquote, ⟨hk, inner, ht, rfl⟩ | ⟨hk, rfl⟩, hv⟩
    · have hq : Lexeme.IsQuoted t.text := by simpa only [Lexeme.Shaped, lexeme, hk] using hshape
      obtain ⟨inner', hinner, ht'⟩ := hq
      obtain rfl : inner = inner' := by simpa [ht] using ht'
      exact .inl ⟨inner, hinner, ht, hv⟩
    · refine .inr (isSymbolAtom_iff.mpr ⟨hv, ?_, fun h => hquote ⟨hk, h⟩⟩)
      simpa only [lexeme, hk] using hshape

theorem PrintableAll.exists_spelled (h : PrintableAll R p after es)
    (hsep : ∀ c ∈ after.head?, p.isSeparator c = true) (hl : Lexes p after ls r) :
    ∃ ts fs, Spelled fs ts ∧ LikeAll R fs es ∧
      Lexes p (texts es ++ after) (ts.map lexeme ++ ls) r := by
  induction es using row_inductionOn generalizing after ls with
  | nil => exact ⟨[], [], .nil, trivial, hl⟩
  | null es ih => exact h.1.elim
  | atom raw v es ih =>
    obtain ⟨ts, fs, hs, hlike, hlex⟩ := ih h.2 hsep hl
    obtain ⟨t, w, ht, rfl, hshape, hquote, hw, hv⟩ := printable_atom_iff.mp h.1
    refine ⟨t :: ts, ofToken t :: fs, .atom ht hs, ⟨?_, hlike⟩, ?_⟩
    · rw [ofToken_eq_atom hw]
      exact ⟨rfl, hv⟩
    · rw [texts_cons, text, List.append_assoc]
      exact (lexes_gap hlex).cons hshape
        (Lexeme.endsBefore_of_separator (separator_gap hsep) hquote)
  | list gs es ihg ih =>
    obtain ⟨ts, fs, hs, hlike, hlex⟩ := ih h.2 hsep hl
    have hclose := lexes_closeParen (b := closer) (p := p) rfl rfl (lexes_gap hlex)
    obtain ⟨us, gs', hsg, hlikeg, hlexg⟩ :=
      ihg h.1 (fun c hc => by cases hc; cases p <;> rfl) hclose
    have hopen := lexes_openParen (a := ⟨.openParen, 0, ['(']⟩) (p := p) rfl rfl hlexg
    refine ⟨_, _, .list (a := ⟨.openParen, 0, ['(']⟩) (b := closer) rfl rfl hsg hs,
      ⟨hlikeg, hlike⟩, ?_⟩
    simpa [texts_cons, text] using hopen

theorem Spelled.printableAll (h : Spelled es ts) (hlike : LikeAll R es fs)
    (hshape : ∀ t ∈ ts, t.lexeme.Shaped p)
    (hquote : ts.Pairwise fun t u => t.lexeme.OpensQuote → '"' ∉ u.text)
    (hafter : ∀ t ∈ ts, t.lexeme.OpensQuote → '"' ∉ after) : PrintableAll R p after fs := by
  induction h generalizing fs after with
  | nil =>
    cases fs with
    | nil => trivial
    | cons => exact hlike.elim
  | @atom t es ts ht hs ih =>
    rw [List.forall_mem_cons] at hshape hafter
    rw [List.pairwise_cons] at hquote
    obtain ⟨w, hw⟩ := exists_standsFor ht hshape.1
    rw [ofToken_eq_atom hw] at hlike
    match fs, hlike with
    | .atom _ v :: fs, ⟨⟨rfl, hv⟩, hlike⟩ =>
      refine ⟨printable_atom_iff.mpr ⟨t, w, ht, rfl, hshape.1, fun ho => ?_, hw, hv⟩,
        ih hlike hshape.2 hquote.2 hafter.2⟩
      rw [List.mem_append, ← hlike.gap_eq, quote_mem_gap, not_or]
      refine ⟨fun hq => ?_, hafter.1 ho⟩
      obtain ⟨u, hu, hc⟩ := hs.quote_mem hq
      exact hquote.1 u hu ho hc
  | @list a b gs es us ts _ _ _ hs ihg ih =>
    simp only [List.forall_mem_cons, List.forall_mem_append] at hshape hafter
    simp only [List.pairwise_cons, List.pairwise_append, List.forall_mem_cons] at hquote
    obtain ⟨_, hqus, ⟨_, hqts⟩, hcross⟩ := hquote
    match fs, hlike with
    | .list gs' :: fs, ⟨hlikeg, hlike⟩ =>
      refine ⟨ihg hlikeg hshape.2.1 hqus fun t ht ho => ?_, ih hlike hshape.2.2.2 hqts hafter.2.2.2⟩
      simp only [List.mem_cons, List.mem_append, ← hlike.gap_eq, quote_mem_gap, not_or]
      refine ⟨by decide, fun hq => ?_, hafter.2.1 t ht ho⟩
      -- a quote behind the list would stand in a token behind the one that begins with a quote
      obtain ⟨u, hu, hc⟩ := hs.quote_mem hq
      exact (hcross t ht).2 u hu ho hc

theorem Spelled.significant_eq (h : Spelled es ts) : significant ts = ts := by
  induction h with
  | nil => rfl
  | atom ht _ ih => rw [significant_cons_of_ne ht.1, ih]
  | list ha hb _ _ ihf ih =>
    rw [significant_cons_of_ne (by simp [ha]), significant_append,
      significant_cons_of_ne (by simp [hb]), ihf, ih]

theorem exists_parse_text_of_printable (hn : e.nesting ≤ nestingLimit)
    (h : e.Printable R p []) : ∃ f, parse p e.text = .ok f ∧ f.Like R e := by
  have hrow : PrintableAll R p [] [e] := ⟨h, trivial⟩
  obtain ⟨ts, fs, hs, hlike, hlex⟩ := hrow.exists_spelled (by simp) Lexes.nil
  match fs, hlike with
  | [f], ⟨hlike, _⟩ =>
    refine ⟨f, ?_, hlike⟩
    simp only [texts, List.append_nil] at hlex
    rw [parse_eq_of_lexes hlex, ofTokens_eq_ok_iff hs.ne_null, hs.significant_eq, hlike.nesting_eq]
    exact ⟨rfl, hs, hn⟩

theorem not_skippable_text_null : ¬ Skippable null.text := by
  intro h
  generalize hs : null.text = s at h
  cases h with
  | nil => simp [text] at hs
  | blank hc =>
    simp only [text, List.cons.injEq] at hs
    obtain ⟨rfl, rfl⟩ := hs
    exact absurd hc (by decide)
  | comment ht =>
    obtain ⟨body, _, rfl⟩ := ht
    simp [text] at hs

theorem printable_of_parse_text (h : parse p e.text = .ok f) (hlike : f.Like R e) :
    e.nesting ≤ nestingLimit ∧ e.Printable R p [] := by
  have hf : f ≠ null := by
    rintro rfl
    rw [← hlike.text_eq] at h
    exact not_skippable_text_null (parse_eq_null_iff.mp h)
  rw [parse_eq_ofTokens, ofTokens_eq_ok_iff hf] at h
  obtain ⟨_, hs, hn⟩ := h
  have hrow : PrintableAll R p [] [e] := hs.printableAll (LikeAll.single hlike)
    (shaped_of_mem_significant p e.text) (pairwise_significant p e.text)
    fun _ _ _ => List.not_mem_nil
  exact ⟨hlike.nesting_eq ▸ hn, hrow.1⟩

theorem exists_parse_text_iff :
    (∃ f, parse p e.text = .ok f ∧ f.Like R e) ↔
      e.nesting ≤ nestingLimit ∧ e.Printable R p [] := by
  constructor
  · rintro ⟨f, hf, hlike⟩
    exact printable_of_parse_text hf hlike
  · rintro ⟨hn, h⟩
    exact exists_parse_text_of_printable hn h

/-- The trees that print to text that reads back are the well-formed ones and no others, both with
values that agree and with the very same values. -/
theorem parse_text_eq_iff (p : SlashPolicy) (e : Expr) :
    ((∃ f, parse p e.text = .ok f ∧ f.Like Value.Agrees e) ↔
      e.nesting ≤ nestingLimit ∧ e.Printable Value.Agrees p []) ∧
    (parse p e.text = .ok e ↔ e.nesting ≤ nestingLimit ∧ e.Printable Eq p []) := by
  refine ⟨exists_parse_text_iff, ?_⟩
  rw [← exists_parse_text_iff]
  constructor
  · intro h
    exact ⟨e, h, like_eq_iff.mpr rfl⟩
  · rintro ⟨f, hf, hlike⟩
    rwa [like_eq_iff.mp hlike] at hf

/-- A quote at the front of a symbol takes in all the text up to the next one. -/
example : parse .joins (list [named "\"a", named "b\""]).text =
    .ok (list [atom "\"a b\"".toList (.string "a b")]) := by
  cbv

end Expr

end LispCalc
