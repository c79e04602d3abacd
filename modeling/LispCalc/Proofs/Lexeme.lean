import LispCalc.Token.Lexer
import Mathlib.Data.List.TakeWhile

namespace LispCalc

/-- A token without its place in the text. -/
structure Lexeme where
  kind : TokenKind
  text : List Char
deriving DecidableEq

def Token.lexeme (t : Token) : Lexeme := ⟨t.kind, t.text⟩

theorem Token.start_lt_stop {t : Token} (h : t.text ≠ []) : t.start < t.stop := by
  have hpos := Text.byteLength_pos h
  rw [stop]
  omega

namespace Lexeme

/-- The close of a comment is the first one behind its opening. -/
def IsComment (t : List Char) : Prop :=
  ∃ body, ¬ ['*', '/'] <:+: body ∧ t = '/' :: '*' :: (body ++ ['*', '/'])

def IsQuoted (t : List Char) : Prop := ∃ inner, '"' ∉ inner ∧ t = '"' :: (inner ++ ['"'])

/-- A run of characters between separators. It may begin with a quote that has no partner. -/
def IsWord (p : SlashPolicy) (t : List Char) : Prop :=
  t ≠ [] ∧ (∀ c ∈ t, p.isSeparator c = false) ∧ ¬ ['/', '*'] <+: t ∧
    (t.head? = some '"' → '"' ∉ t.tail)

def IsSlash (p : SlashPolicy) (t : List Char) : Prop := p = .separates ∧ t = ['/']

def Shaped (p : SlashPolicy) (x : Lexeme) : Prop :=
  match x.kind with
  | .openParen => x.text = ['(']
  | .closeParen => x.text = [')']
  | .comment => IsComment x.text
  | .quoted => IsQuoted x.text
  | .symbol => IsSlash p x.text ∨ IsWord p x.text
  | _ => False

/-- A symbol that begins with a quote has no partner for it in all the text behind. -/
def OpensQuote (x : Lexeme) : Prop := x.kind = .symbol ∧ x.text.head? = some '"'

/-- A token is cut off in front of a text only if the text lets it end there. -/
def EndsBefore (p : SlashPolicy) (x : Lexeme) (r : List Char) : Prop :=
  x.kind = .symbol →
    (IsSlash p x.text → r.head? ≠ some '*') ∧
    (¬ IsSlash p x.text → ∀ c ∈ r.head?, p.isSeparator c = true) ∧
    (x.text.head? = some '"' → '"' ∉ r)

end Lexeme

open Lexeme

variable {p : SlashPolicy} {s t r seen : List Char}

theorem eq_nil_of_close_eq_append {body : List Char} (hbody : ¬ ['*', '/'] <:+: body)
    (h : '*' :: '/' :: s = body ++ '*' :: '/' :: r) : body = [] := by
  cases body with
  | nil => rfl
  | cons c body =>
    cases body with
    | nil => simp at h
    | cons d body =>
      simp only [List.cons_append, List.cons.injEq] at h
      obtain ⟨rfl, rfl, _⟩ := h
      exact absurd (List.infix_append [] ['*', '/'] body) (by simpa using hbody)

theorem not_infix_cons {c : Char} {body : List Char} (hbody : ¬ ['*', '/'] <:+: body)
    (hc : ∀ u, c = '*' → body ++ '*' :: '/' :: r ≠ '/' :: u) : ¬ ['*', '/'] <:+: c :: body := by
  rw [List.infix_cons_iff, not_or]
  refine ⟨?_, hbody⟩
  intro hp
  cases body with
  | nil => simp at hp
  | cons d body =>
    simp only [List.cons_prefix_cons] at hp
    obtain ⟨rfl, rfl, _⟩ := hp
    exact hc _ rfl rfl

theorem throughClose?_eq_some_iff :
    throughClose? seen s = some (t, r) ↔
      ∃ body, ¬ ['*', '/'] <:+: body ∧ s = body ++ '*' :: '/' :: r ∧
        t = seen.reverse ++ (body ++ ['*', '/']) := by
  fun_induction throughClose? seen s with
  | case1 seen r' =>
    constructor
    · intro h
      simp only [Option.some.injEq, Prod.mk.injEq] at h
      obtain ⟨rfl, rfl⟩ := h
      exact ⟨[], by simp, rfl, by simp⟩
    · rintro ⟨body, hbody, hs, rfl⟩
      obtain rfl := eq_nil_of_close_eq_append hbody hs
      simp only [List.nil_append, List.cons.injEq, true_and] at hs
      simp [hs]
  | case2 seen c r' hne ih =>
    rw [ih]
    constructor
    · rintro ⟨body, hbody, rfl, rfl⟩
      exact ⟨c :: body, not_infix_cons hbody hne, rfl, by simp⟩
    · rintro ⟨body, hbody, hs, rfl⟩
      cases body with
      | nil =>
        simp only [List.nil_append, List.cons.injEq] at hs
        obtain ⟨rfl, rfl⟩ := hs
        exact absurd rfl (hne _ rfl)
      | cons d body =>
        simp only [List.cons_append, List.cons.injEq] at hs
        obtain ⟨rfl, rfl⟩ := hs
        rw [List.infix_cons_iff, not_or] at hbody
        exact ⟨body, hbody.2, rfl, by simp⟩
  | case3 seen => simp

theorem quoted?_eq_some_iff : quoted? s = some (t, r) ↔ IsQuoted t ∧ s = t ++ r := by
  constructor
  · intro h
    refine ⟨?_, (quoted?_append h).symm⟩
    unfold quoted? at h
    split at h
    · rename_i s
      split at h
      · rename_i q rest hq
        simp only [Option.some.injEq, Prod.mk.injEq] at h
        obtain ⟨rfl, rfl⟩ := h
        have hqq : q = '"' := by
          have := List.head?_dropWhile_not (· != '"') s
          simpa [hq] using this
        subst hqq
        exact ⟨s.takeWhile (· != '"'), fun hm => by simpa using List.mem_takeWhile_imp hm, rfl⟩
      · simp at h
    · simp at h
  · rintro ⟨⟨inner, hinner, rfl⟩, rfl⟩
    have ht : ∀ c ∈ inner, (c != '"') = true := by
      intro c hc
      simp only [bne_iff_ne, ne_eq]
      rintro rfl
      exact hinner hc
    simp only [quoted?, List.cons_append, List.append_assoc, List.nil_append,
      List.dropWhile_append_of_pos ht, List.takeWhile_append_of_pos ht]
    simp

theorem quoted?_eq_none_iff : quoted? s = none ↔ (s.head? = some '"' → '"' ∉ s.tail) := by
  unfold quoted?
  split
  · rename_i s
    have hd : s.dropWhile (· != '"') = [] ↔ '"' ∉ s := by
      rw [List.dropWhile_eq_nil_iff]
      constructor
      · intro h hm
        simpa using h _ hm
      · rintro h c hc
        simp only [bne_iff_ne, ne_eq]
        rintro rfl
        exact h hc
    simp only [List.head?_cons, List.tail_cons, forall_const, ← hd]
    split
    · rename_i q rest hq
      simp [hq]
    · rename_i hq
      simp [hq]
  · rename_i hne
    simp only [true_iff]
    intro h
    cases s with
    | nil => simp at h
    | cons c s =>
      simp only [List.head?_cons, Option.some.injEq] at h
      subst h
      exact absurd rfl (hne s)

theorem takeWhile_dropWhile_eq_iff {q : Char → Bool} :
    s.takeWhile q = t ∧ s.dropWhile q = r ↔
      s = t ++ r ∧ (∀ c ∈ t, q c = true) ∧ ∀ c ∈ r.head?, q c = false := by
  constructor
  · rintro ⟨rfl, rfl⟩
    refine ⟨List.takeWhile_append_dropWhile.symm, fun c hc => List.mem_takeWhile_imp hc, ?_⟩
    intro c hc
    have := List.head?_dropWhile_not q s
    rw [Option.mem_def] at hc
    simpa [hc] using this
  · rintro ⟨rfl, ht, hr⟩
    rw [List.takeWhile_append_of_pos ht, List.dropWhile_append_of_pos ht]
    cases r with
    | nil => simp
    | cons c r =>
      have hc : q c = false := hr c rfl
      simp [hc]

theorem not_isWord_of_isSlash (h : IsSlash p t) : ¬ IsWord p t := by
  obtain ⟨rfl, rfl⟩ := h
  intro hw
  have := hw.2.1 '/' (by simp)
  simp [SlashPolicy.isSeparator] at this

theorem symbol?_run_eq_some_iff (hs : p = .separates → s.head? ≠ some '/') :
    symbol? p s = some (t, r) ↔
      t ≠ [] ∧ s = t ++ r ∧ (∀ c ∈ t, p.isSeparator c = false) ∧
        ∀ c ∈ r.head?, p.isSeparator c = true := by
  have hcut := takeWhile_dropWhile_eq_iff (s := s) (t := t) (r := r) (q := (!p.isSeparator ·))
  simp only [Bool.not_eq_eq_eq_not, Bool.not_true, Bool.not_false] at hcut
  have hrun : symbol? p s =
      if (s.takeWhile (!p.isSeparator ·)).isEmpty then none
      else some (s.takeWhile (!p.isSeparator ·), s.dropWhile (!p.isSeparator ·)) := by
    rw [symbol?.eq_def]
    split
    · exact absurd rfl (hs rfl)
    · rfl
  rw [← hcut, hrun]
  by_cases ht : s.takeWhile (!p.isSeparator ·) = []
  · simp only [ht, List.isEmpty_nil, if_true, reduceCtorEq, false_iff]
    rintro ⟨hne, rfl, _⟩
    exact hne rfl
  · rw [if_neg (by simpa using ht), Option.some.injEq, Prod.mk.injEq]
    refine ⟨fun h => ⟨?_, h⟩, fun h => h.2⟩
    rw [← h.1]
    exact ht

theorem symbol?_eq_some_iff :
    symbol? p s = some (t, r) ↔
      s = t ++ r ∧ (IsSlash p t ∨
        t ≠ [] ∧ (∀ c ∈ t, p.isSeparator c = false) ∧ ∀ c ∈ r.head?, p.isSeparator c = true) := by
  by_cases hs : p = .separates → s.head? ≠ some '/'
  · rw [symbol?_run_eq_some_iff hs]
    constructor
    · rintro ⟨hne, happ, ht, hr⟩
      exact ⟨happ, .inr ⟨hne, ht, hr⟩⟩
    · rintro ⟨rfl, ⟨rfl, rfl⟩ | ⟨hne, ht, hr⟩⟩
      · exact absurd rfl (hs rfl)
      · exact ⟨hne, rfl, ht, hr⟩
  · simp only [not_forall, not_not] at hs
    obtain ⟨rfl, hs⟩ := hs
    obtain ⟨u, rfl⟩ := List.head?_eq_some_iff.mp hs
    have hu : symbol? .separates ('/' :: u) = some (['/'], u) := rfl
    rw [hu, Option.some.injEq, Prod.mk.injEq]
    constructor
    · rintro ⟨rfl, rfl⟩
      exact ⟨rfl, .inl ⟨rfl, rfl⟩⟩
    · rintro ⟨happ, ⟨_, rfl⟩ | ⟨hne, ht, _⟩⟩
      · simpa using happ
      · obtain ⟨c, t, rfl⟩ := List.exists_cons_of_ne_nil hne
        simp only [List.cons_append, List.cons.injEq] at happ
        obtain ⟨rfl, rfl⟩ := happ
        have := ht '/' List.mem_cons_self
        simp [SlashPolicy.isSeparator] at this

theorem not_separator_star (p : SlashPolicy) : p.isSeparator '*' = false := by
  cases p <;> decide

theorem lexeme?_of_other (hopen : s.head? ≠ some '(') (hclose : s.head? ≠ some ')')
    (hcomment : ¬ ['/', '*'] <+: s) :
    lexeme? p s = match quoted? s with
      | some t => some (.quoted, t)
      | none => (symbol? p s).map fun t => (.symbol, t) := by
  unfold lexeme?
  split
  · simp at hopen
  · simp at hclose
  · simp at hcomment
  · rfl

theorem symbol?_sound (hcomment : ¬ ['/', '*'] <+: s) (hquote : quoted? s = none)
    (h : symbol? p s = some (t, r)) :
    Shaped p ⟨.symbol, t⟩ ∧ EndsBefore p ⟨.symbol, t⟩ r := by
  rw [quoted?_eq_none_iff] at hquote
  obtain ⟨rfl, ⟨hp, rfl⟩ | ⟨hne, hsep, hr⟩⟩ := symbol?_eq_some_iff.mp h
  · refine ⟨.inl ⟨hp, rfl⟩, fun _ => ⟨fun _ hstar => ?_, fun hn => absurd ⟨hp, rfl⟩ hn, nofun⟩⟩
    obtain ⟨r, rfl⟩ := List.head?_eq_some_iff.mp hstar
    exact hcomment ⟨r, rfl⟩
  · obtain ⟨c, t, rfl⟩ := List.exists_cons_of_ne_nil hne
    have hq : c = '"' → '"' ∉ t ∧ '"' ∉ r := by simpa using hquote
    have hc : ¬ ['/', '*'] <+: c :: t := fun hp => hcomment (hp.trans (List.prefix_append _ _))
    have hw : IsWord p (c :: t) := ⟨hne, hsep, hc, fun h => (hq (by simpa using h)).1⟩
    refine ⟨.inr hw, fun _ => ⟨fun hs => absurd hw (not_isWord_of_isSlash hs), fun _ => hr, ?_⟩⟩
    exact fun h => (hq (by simpa using h)).2

theorem lexeme?_sound {k : TokenKind} (h : lexeme? p s = some (k, t, r)) :
    s = t ++ r ∧ Shaped p ⟨k, t⟩ ∧ EndsBefore p ⟨k, t⟩ r := by
  refine ⟨(lexeme?_append h).symm, ?_⟩
  unfold lexeme? at h
  split at h
  · simp only [Option.some.injEq, Prod.mk.injEq] at h
    obtain ⟨rfl, rfl, rfl⟩ := h
    exact ⟨rfl, nofun⟩
  · simp only [Option.some.injEq, Prod.mk.injEq] at h
    obtain ⟨rfl, rfl, rfl⟩ := h
    exact ⟨rfl, nofun⟩
  · simp only [Option.map_eq_some_iff, Prod.mk.injEq] at h
    obtain ⟨⟨t', r'⟩, ht, rfl, rfl, rfl⟩ := h
    obtain ⟨body, hbody, _, rfl⟩ := throughClose?_eq_some_iff.mp ht
    exact ⟨⟨body, hbody, rfl⟩, nofun⟩
  · rename_i hcomment
    split at h
    · rename_i q hq
      simp only [Option.some.injEq, Prod.mk.injEq] at h
      obtain ⟨rfl, rfl⟩ := h
      exact ⟨(quoted?_eq_some_iff.mp hq).1, nofun⟩
    · rename_i hq
      simp only [Option.map_eq_some_iff, Prod.mk.injEq] at h
      obtain ⟨⟨t', r'⟩, ht, rfl, rfl, rfl⟩ := h
      refine symbol?_sound ?_ hq ht
      rintro ⟨u, rfl⟩
      exact hcomment u rfl

theorem lexeme?_slash (hr : r.head? ≠ some '*') :
    lexeme? .separates ('/' :: r) = some (.symbol, ['/'], r) := by
  have hq : quoted? ('/' :: r) = none := quoted?_eq_none_iff.mpr (by simp)
  have hc : ¬ ['/', '*'] <+: '/' :: r := by
    rintro ⟨u, hu⟩
    simp only [List.cons_append, List.nil_append, List.cons.injEq, true_and] at hu
    exact hr (by rw [← hu]; rfl)
  rw [lexeme?_of_other (by simp) (by simp) hc, hq]
  rfl

theorem lexeme?_word (hw : IsWord p t) (hr : ∀ c ∈ r.head?, p.isSeparator c = true)
    (hquote : t.head? = some '"' → '"' ∉ r) : lexeme? p (t ++ r) = some (.symbol, t, r) := by
  obtain ⟨hne, hsep, hcomment, hopen⟩ := hw
  have hs : symbol? p (t ++ r) = some (t, r) := symbol?_eq_some_iff.mpr ⟨rfl, .inr ⟨hne, hsep, hr⟩⟩
  obtain ⟨c, t, rfl⟩ := List.exists_cons_of_ne_nil hne
  have hq : quoted? (c :: t ++ r) = none := by
    rw [quoted?_eq_none_iff]
    simp only [List.cons_append, List.head?_cons, List.tail_cons, List.mem_append, not_or]
    exact fun h => ⟨hopen h, hquote h⟩
  have hc : ¬ ['/', '*'] <+: c :: t ++ r := by
    rintro ⟨u, hu⟩
    simp only [List.cons_append, List.nil_append, List.cons.injEq] at hu
    cases t with
    | nil =>
      have := hr '*' (by rw [← List.nil_append r, ← hu.2]; rfl)
      simp [not_separator_star] at this
    | cons d t =>
      simp only [List.cons_append, List.cons.injEq] at hu
      exact hcomment ⟨t, by rw [← hu.1, ← hu.2.1]; rfl⟩
  have hne' (d : Char) (hd : p.isSeparator d = true) : (c :: t ++ r).head? ≠ some d := by
    rintro h
    simp only [List.cons_append, List.head?_cons, Option.some.injEq] at h
    subst h
    simp [hsep c List.mem_cons_self] at hd
  rw [lexeme?_of_other (hne' _ (by rfl)) (hne' _ (by rfl)) hc, hq, hs]
  rfl

/-- Text that has the shape of a token and is followed by something that lets it end is cut off
whole. Nothing else about what follows matters. -/
theorem lexeme?_complete {x : Lexeme} (hx : x.Shaped p) (hr : x.EndsBefore p r) :
    lexeme? p (x.text ++ r) = some (x.kind, x.text, r) := by
  obtain ⟨k, t⟩ := x
  cases k with
  | openParen | closeParen =>
    obtain rfl : t = _ := hx
    rfl
  | comment =>
    obtain ⟨body, hbody, rfl⟩ := hx
    have ht : throughClose? ['*', '/'] (body ++ '*' :: '/' :: r) =
        some ('/' :: '*' :: (body ++ ['*', '/']), r) :=
      throughClose?_eq_some_iff.mpr ⟨body, hbody, rfl, rfl⟩
    simp [lexeme?, ht]
  | quoted =>
    obtain ⟨inner, hinner, rfl⟩ := hx
    have hq : quoted? ('"' :: (inner ++ ['"']) ++ r) = some ('"' :: (inner ++ ['"']), r) :=
      quoted?_eq_some_iff.mpr ⟨⟨inner, hinner, rfl⟩, rfl⟩
    rw [lexeme?_of_other (by simp) (by simp) (by simp), hq]
  | symbol =>
    obtain ⟨hslash, hword, hquote⟩ := hr rfl
    obtain ⟨rfl, rfl⟩ | hw := hx
    · exact lexeme?_slash (hslash ⟨rfl, rfl⟩)
    · exact lexeme?_word hw (hword fun h => not_isWord_of_isSlash h hw) hquote
  | start | finish | unknown => exact hx.elim

namespace Lexeme

variable {x : Lexeme}

theorem Shaped.text_eq_cons (hx : x.Shaped p) :
    ∃ c t, x.text = c :: t ∧ Text.isBlank c = false := by
  obtain ⟨k, t⟩ := x
  cases k with
  | openParen | closeParen => exact ⟨_, [], hx, by decide⟩
  | comment =>
    obtain ⟨body, _, rfl⟩ := hx
    exact ⟨_, _, rfl, by decide⟩
  | quoted =>
    obtain ⟨inner, _, rfl⟩ := hx
    exact ⟨_, _, rfl, by decide⟩
  | symbol =>
    obtain ⟨_, rfl⟩ | hw := hx
    · exact ⟨_, [], rfl, by decide⟩
    · obtain ⟨c, t, rfl⟩ := List.exists_cons_of_ne_nil hw.1
      have hc := hw.2.1 c (by simp)
      simp only [SlashPolicy.isSeparator, Bool.or_eq_false_iff] at hc
      exact ⟨c, t, rfl, hc.1.1.1⟩
  | start | finish | unknown => exact hx.elim

theorem endsBefore_of_separator (hs : ∀ c ∈ r.head?, p.isSeparator c = true)
    (hq : x.OpensQuote → '"' ∉ r) : x.EndsBefore p r := by
  intro hk
  refine ⟨fun _ hstar => ?_, fun _ => hs, fun h => hq ⟨hk, h⟩⟩
  have := hs '*' hstar
  simp [not_separator_star] at this

theorem Shaped.trimStart_append (hx : x.Shaped p) (r : List Char) :
    Text.trimStart (x.text ++ r) = x.text ++ r := by
  obtain ⟨c, t, ht, hc⟩ := hx.text_eq_cons
  simp [Text.trimStart, ht, hc]

theorem Shaped.kind_eq {y : Lexeme} (hx : x.Shaped p) (hy : y.Shaped p) (h : x.text = y.text) :
    x.kind = y.kind := by
  have hsx : x.EndsBefore p [] := by
    intro _
    simp
  have hsy : y.EndsBefore p [] := by
    intro _
    simp
  have hlx := lexeme?_complete hx hsx
  have hly := lexeme?_complete hy hsy
  rw [h, hly] at hlx
  simpa using hlx.symm

end Lexeme

end LispCalc
