import LispCalc.Expr.Parser
import LispCalc.Proofs.Tree

namespace LispCalc

namespace Token

def IsAtom (t : Token) : Prop :=
  t.kind ≠ .comment ∧ t.kind ≠ .openParen ∧ t.kind ≠ .closeParen

theorem kind_cases (t : Token) :
    t.kind = .comment ∨ t.kind = .openParen ∨ t.kind = .closeParen ∨ t.IsAtom := by
  cases hk : t.kind <;> simp [IsAtom, hk]

theorem isAtom_of_symbol {t : Token} (h : t.kind = .symbol) : t.IsAtom := by
  simp [IsAtom, h]

def significant (ts : List Token) : List Token := ts.filter (!·.isComment)

theorem mem_significant {ts : List Token} {t : Token} :
    t ∈ significant ts ↔ t ∈ ts ∧ t.kind ≠ .comment := by
  simp [significant, isComment]

theorem significant_append (ts us : List Token) :
    significant (ts ++ us) = significant ts ++ significant us :=
  List.filter_append ..

theorem significant_cons_of_comment {t : Token} {ts : List Token} (h : t.kind = .comment) :
    significant (t :: ts) = significant ts := by
  simp [significant, isComment, h]

theorem significant_cons_of_ne {t : Token} {ts : List Token} (h : t.kind ≠ .comment) :
    significant (t :: ts) = t :: significant ts := by
  simp [significant, isComment, h]

theorem significant_eq_self {ts : List Token} (h : ∀ t ∈ ts, t.kind ≠ .comment) :
    significant ts = ts := by
  rw [significant, List.filter_eq_self]
  intro t ht
  simpa [isComment] using h t ht

end Token

open Token

namespace Expr

variable {opened outer : List (List Expr)} {es fs : List Expr} {e : Expr} {t : Token}
  {ts us rest : List Token}

/-- Expressions in a row and the tokens that spell them, without comments. -/
inductive Spelled : List Expr → List Token → Prop where
  | nil : Spelled [] []
  | atom {t : Token} {es : List Expr} {ts : List Token} : t.IsAtom → Spelled es ts →
      Spelled (ofToken t :: es) (t :: ts)
  | list {a b : Token} {fs es : List Expr} {us ts : List Token} : a.kind = .openParen →
      b.kind = .closeParen → Spelled fs us → Spelled es ts →
      Spelled (list fs :: es) (a :: (us ++ b :: ts))

theorem Spelled.append (h : Spelled es ts) (h' : Spelled fs us) :
    Spelled (es ++ fs) (ts ++ us) := by
  induction h with
  | nil => exact h'
  | atom ht _ ih => exact .atom ht ih
  | list ha hb hfs _ _ ih =>
    have h := Spelled.list ha hb hfs ih
    simpa only [List.cons_append, List.append_assoc] using h

theorem exists_ofToken_eq_atom (t : Token) : ∃ v, ofToken t = atom t.text v := by
  cases hk : t.kind <;> exact ⟨_, by simp only [ofToken, hk]; rfl⟩

theorem nesting_ofToken (t : Token) : (ofToken t).nesting = 0 := by
  obtain ⟨v, ht⟩ := exists_ofToken_eq_atom t
  rw [ht]
  rfl

theorem ofToken_ne_null (t : Token) : ofToken t ≠ null := by
  obtain ⟨v, ht⟩ := exists_ofToken_eq_atom t
  rw [ht]
  nofun

theorem Spelled.ne_null (h : Spelled [e] ts) : e ≠ null := by
  cases h with
  | atom => exact ofToken_ne_null _
  | list => nofun

theorem read_comment (h : t.kind = .comment) : read opened (t :: ts) = read opened ts := by
  rw [read.eq_def]
  simp only [h]

theorem read_open (h : t.kind = .openParen) (hl : opened.length ≠ nestingLimit) :
    read opened (t :: ts) = read ([] :: opened) ts := by
  rw [read.eq_def]
  simp only [h, if_neg hl]

theorem read_tooDeep (h : t.kind = .openParen) (hl : opened.length = nestingLimit) :
    read opened (t :: ts) = (.error .nestingTooDeep, ts) := by
  rw [read.eq_def]
  simp only [h, if_pos hl]

theorem read_unopened (h : t.kind = .closeParen) :
    read [] (t :: ts) = (.error .unopenedParen, ts) := by
  simp [read, h]

theorem read_last (h : t.kind = .closeParen) :
    read [es] (t :: ts) = (.ok (list es.reverse), ts) := by
  simp [read, h]

theorem read_close (h : t.kind = .closeParen) :
    read (es :: fs :: outer) (t :: ts) = read ((list es.reverse :: fs) :: outer) ts := by
  simp [read, h]

theorem read_single (h : t.IsAtom) : read [] (t :: ts) = (.ok (ofToken t), ts) := by
  obtain ⟨hc, ho, hl⟩ := h
  rw [read.eq_def]
  dsimp only
  split <;> first | contradiction | rfl

theorem read_atom (h : t.IsAtom) :
    read (es :: outer) (t :: ts) = read ((ofToken t :: es) :: outer) ts := by
  obtain ⟨hc, ho, hl⟩ := h
  rw [read.eq_def]
  dsimp only
  split <;> first | contradiction | rfl

/-- The invariant of the reader: the tokens read so far are the openings of the lists that are still
open, each followed by the spelling of its children, and closing them now keeps within the limit. -/
def Pending : List (List Expr) → List Token → Prop
  | [], past => past = []
  | es :: outer, past => ∃ before a us, past = before ++ a :: us ∧ a.kind = .openParen ∧
      Spelled es.reverse us ∧ (list es).nesting + outer.length ≤ nestingLimit ∧
      Pending outer before

namespace Pending

variable {past : List Token}

theorem length_le (h : Pending opened past) : opened.length ≤ nestingLimit := by
  cases opened with
  | nil => simp
  | cons es outer =>
    obtain ⟨_, _, _, _, _, _, hn, _⟩ := h
    rw [nesting] at hn
    rw [List.length_cons]
    omega

theorem opening (h : Pending opened past) (ht : t.kind = .openParen)
    (hl : opened.length ≠ nestingLimit) : Pending ([] :: opened) (past ++ [t]) := by
  refine ⟨past, t, [], rfl, ht, .nil, ?_, h⟩
  have := h.length_le
  simp only [nesting, nestingAll]
  omega

theorem push (h : Pending (es :: outer) past) (he : Spelled [e] us)
    (hn : e.nesting + outer.length < nestingLimit) :
    Pending ((e :: es) :: outer) (past ++ us) := by
  obtain ⟨before, a, vs, rfl, ha, hs, hes, ho⟩ := h
  refine ⟨before, a, vs ++ us, by simp, ha, ?_, ?_, ho⟩
  · rw [List.reverse_cons]
    exact hs.append he
  · rw [nesting_list_cons]
    omega

theorem atom (h : Pending (es :: outer) past) (ht : t.IsAtom) :
    Pending ((ofToken t :: es) :: outer) (past ++ [t]) := by
  refine h.push (.atom ht .nil) ?_
  rw [nesting_ofToken]
  have := h.length_le
  rw [List.length_cons] at this
  omega

theorem close (h : Pending (es :: outer) past) (ht : t.kind = .closeParen) :
    ∃ before us, past ++ [t] = before ++ us ∧ Spelled [list es.reverse] us ∧
      (list es.reverse).nesting + outer.length ≤ nestingLimit ∧ Pending outer before := by
  obtain ⟨before, a, us, rfl, ha, hs, hn, ho⟩ := h
  refine ⟨before, a :: (us ++ [t]), by simp, .list ha ht hs .nil, ?_, ho⟩
  rwa [nesting_list_reverse]

end Pending

/-- Whatever the reader accepts is spelled by the tokens it has read. -/
theorem read_sound {past : List Token} (hp : Pending opened past)
    (hc : ∀ t ∈ ts, t.kind ≠ .comment) (hne : opened ≠ [] ∨ ts ≠ [])
    (h : read opened ts = (.ok e, rest)) :
    ∃ used, ts = used ++ rest ∧ Spelled [e] (past ++ used) ∧ e.nesting ≤ nestingLimit := by
  induction ts generalizing opened past with
  | nil =>
    cases opened with
    | nil => simp at hne
    | cons es outer => simp [read] at h
  | cons t ts ih =>
    rw [List.forall_mem_cons] at hc
    -- where the reader goes on, its result comes from the later tokens
    have step {gs : List Expr} {outer' : List (List Expr)}
        (hp' : Pending (gs :: outer') (past ++ [t]))
        (h' : read (gs :: outer') ts = (.ok e, rest)) : ∃ used, t :: ts = used ++ rest ∧
        Spelled [e] (past ++ used) ∧ e.nesting ≤ nestingLimit := by
      obtain ⟨used, rfl, hs, hn⟩ := ih hp' hc.2 (.inl (List.cons_ne_nil _ _)) h'
      exact ⟨t :: used, rfl, by simpa using hs, hn⟩
    obtain ht | ht | ht | ht := t.kind_cases
    · exact absurd ht hc.1
    · by_cases hl : opened.length = nestingLimit
      · simp [read_tooDeep ht hl] at h
      · rw [read_open ht hl] at h
        exact step (hp.opening ht hl) h
    · match opened with
      | [] => simp [read_unopened ht] at h
      | [es] =>
        rw [read_last ht, Prod.mk.injEq, Except.ok.injEq] at h
        obtain ⟨rfl, rfl⟩ := h
        obtain ⟨before, us, hpast, hs, hn, rfl⟩ := hp.close ht
        exact ⟨[t], rfl, hpast ▸ hs, by simpa using hn⟩
      | es :: fs :: outer =>
        rw [read_close ht] at h
        obtain ⟨before, us, hpast, hs, hn, ho⟩ := hp.close ht
        refine step ?_ h
        rw [hpast]
        refine ho.push hs ?_
        rw [List.length_cons] at hn
        omega
    · match opened with
      | [] =>
        rw [read_single ht, Prod.mk.injEq, Except.ok.injEq] at h
        obtain ⟨rfl, rfl⟩ := h
        obtain rfl : past = [] := hp
        exact ⟨[t], rfl, .atom ht .nil, by simp [nesting_ofToken]⟩
      | es :: outer =>
        rw [read_atom ht] at h
        exact step (hp.atom ht) h

theorem Spelled.read_append (h : Spelled es us)
    (hn : nestingAll es + outer.length < nestingLimit) :
    read (fs :: outer) (us ++ ts) = read ((es.reverse ++ fs) :: outer) ts := by
  induction h generalizing fs outer ts with
  | nil => rfl
  | @atom t es us ht _ ih =>
    simp only [nestingAll] at hn
    rw [List.cons_append, read_atom ht, ih (by omega)]
    simp
  | @list a b gs es us vs ha hb _ _ ihg ih =>
    simp only [nestingAll, nesting] at hn
    have ho : (fs :: outer).length ≠ nestingLimit := by
      rw [List.length_cons]
      omega
    rw [List.cons_append, read_open ha ho, List.append_assoc, ihg (by rw [List.length_cons]; omega),
      List.cons_append, read_close hb, ih (by omega)]
    simp

theorem Spelled.read_single (h : Spelled [e] us) (hn : e.nesting ≤ nestingLimit) :
    read [] (us ++ ts) = (.ok e, ts) := by
  cases h with
  | atom ht h =>
    cases h
    exact Expr.read_single ht
  | @list a b fs _ us _ ha hb hfs h =>
    cases h
    simp only [nesting] at hn
    rw [List.cons_append, read_open ha (by decide), List.append_assoc,
      hfs.read_append (by rw [List.length_nil]; omega)]
    simp [read_last hb]

theorem read_significant (opened : List (List Expr)) (ts : List Token) :
    read opened (significant ts) =
      ((read opened ts).1, significant (read opened ts).2) := by
  induction ts generalizing opened with
  | nil => cases opened <;> rfl
  | cons t ts ih =>
    by_cases hc : t.kind = .comment
    · rw [read_comment hc, significant_cons_of_comment hc, ih]
    · rw [significant_cons_of_ne hc]
      obtain ht | ht | ht | ht := t.kind_cases
      · exact absurd ht hc
      · by_cases hl : opened.length = nestingLimit
        · simp only [read_tooDeep ht hl]
        · simp only [read_open ht hl, ih]
      · match opened with
        | [] => simp only [read_unopened ht]
        | [es] => simp only [read_last ht]
        | es :: fs :: outer => simp only [read_close ht, ih]
      · match opened with
        | [] => simp only [read_single ht]
        | es :: outer => simp only [read_atom ht, ih]

theorem ofTokens_significant (ts : List Token) (stuck : Bool) :
    ofTokens (significant ts) stuck = ofTokens ts stuck := by
  have hr (us : List Token) : (significant us).all isComment = us.all isComment := by
    simp [significant, List.all_filter]
  rw [ofTokens, ofTokens, read_significant]
  cases h : read [] ts with
  | mk result rest =>
    cases result with
    | error e => rfl
    | ok e => simp only [hr]

theorem parse_eq_ofTokens (p : SlashPolicy) (s : List Char) :
    parse p s = ofTokens (lex p s).1 (lex p s).2.hasMoreText := rfl

theorem spelled_of_ofTokens {stuck : Bool} (h : ofTokens ts stuck = .ok e) :
    stuck = false ∧ (e = null ∧ significant ts = [] ∨
      Spelled [e] (significant ts) ∧ e.nesting ≤ nestingLimit) := by
  have hc : ∀ t ∈ significant ts, t.kind ≠ .comment := fun t ht => (mem_significant.mp ht).2
  rw [← ofTokens_significant, ofTokens] at h
  split at h
  · simp at h
  rename_i e' rest hr
  split at h
  · simp at h
  rename_i hrest
  rw [Except.ok.injEq] at h
  subst h
  simp only [Bool.or_eq_true, Bool.not_eq_eq_eq_not, Bool.not_true, not_or,
    Bool.not_eq_false, Bool.not_eq_true] at hrest
  refine ⟨hrest.2, ?_⟩
  by_cases hne : significant ts = []
  · rw [hne] at hr
    simp only [read, Prod.mk.injEq, Except.ok.injEq] at hr
    exact .inl ⟨hr.1.symm, hne⟩
  · have hp : Pending [] [] := rfl
    obtain ⟨used, hused, hs, hn⟩ := read_sound hp hc (.inr hne) hr
    -- only comments can be left over, and there are none
    have hnil : rest = [] := by
      refine List.eq_nil_iff_forall_not_mem.mpr fun t ht => hc t ?_ ?_
      · rw [hused]
        exact List.mem_append_right _ ht
      · simpa [isComment] using List.all_eq_true.mp hrest.1 t ht
    rw [hnil, List.append_nil] at hused
    rw [List.nil_append, ← hused] at hs
    exact .inr ⟨hs, hn⟩

theorem ofTokens_eq_ok_iff {stuck : Bool} (he : e ≠ null) :
    ofTokens ts stuck = .ok e ↔
      stuck = false ∧ Spelled [e] (significant ts) ∧ e.nesting ≤ nestingLimit := by
  constructor
  · intro h
    obtain ⟨hstuck, ⟨hnull, _⟩ | h⟩ := spelled_of_ofTokens h
    · exact absurd hnull he
    · exact ⟨hstuck, h⟩
  · rintro ⟨rfl, hs, hn⟩
    have hr : read [] (significant ts ++ []) = (.ok e, []) := hs.read_single hn
    rw [List.append_nil] at hr
    rw [← ofTokens_significant, ofTokens, hr]
    rfl

theorem ofTokens_eq_null_iff {stuck : Bool} :
    ofTokens ts stuck = .ok null ↔ stuck = false ∧ significant ts = [] := by
  constructor
  · intro h
    obtain ⟨hstuck, ⟨_, hnil⟩ | ⟨hs, _⟩⟩ := spelled_of_ofTokens h
    · exact ⟨hstuck, hnil⟩
    · exact absurd rfl hs.ne_null
  · rintro ⟨rfl, hs⟩
    rw [← ofTokens_significant, hs]
    rfl

end Expr

end LispCalc
