import LispCalc.Proofs.Cut
import LispCalc.Proofs.Tiling
import Mathlib.Data.List.SplitBy

namespace LispCalc

/-- The longest runs of a text that have no slash, and each slash by itself. -/
def slashPieces (s : List Char) : List (List Char) := s.splitBy fun a b => a != '/' && b != '/'

namespace Token

def symbolsFrom (n : Nat) : List (List Char) → List Token
  | [] => []
  | t :: ts => ⟨.symbol, n, t⟩ :: symbolsFrom (n + Text.byteLength t) ts

/-- A symbol falls into its slashes and what is between them; any other token stays whole. -/
def cutAtSlashes (t : Token) : List Token :=
  if t.kind = .symbol then symbolsFrom t.start (slashPieces t.text) else [t]

/-- No slash of a symbol stands right before a star or a double quote: by itself it would open a
comment there, or let a string begin. -/
def HasPlainSlashes (t : Token) : Prop :=
  t.kind = .symbol → ¬ ['/', '*'] <:+: t.text ∧ ¬ ['/', '"'] <:+: t.text

instance : DecidablePred HasPlainSlashes := fun t =>
  inferInstanceAs (Decidable (t.kind = .symbol → _ ∧ _))

end Token

variable {p q : SlashPolicy} {s t u w r source : List Char} {n : Nat} {ts : List Token}

theorem slashPieces_slash (s : List Char) : slashPieces ('/' :: s) = ['/'] :: slashPieces s := by
  have hcut := List.splitBy_append (r := fun a b => a != '/' && b != '/') (l := ['/']) (m := s)
    (by simp)
  exact hcut

theorem slashPieces_run (hne : w ≠ []) (hw : '/' ∉ w) (hs : ∀ c ∈ s.head?, c = '/') :
    slashPieces (w ++ s) = w :: slashPieces s := by
  have hrun : w.IsChain fun a b => (a != '/' && b != '/') = true := by
    refine (List.pairwise_of_forall_mem_list fun a ha b hb => ?_).isChain
    simp [ne_of_mem_of_not_mem ha hw, ne_of_mem_of_not_mem hb hw]
  rw [slashPieces, List.splitBy_append, List.splitBy_of_isChain hne hrun]
  · rfl
  · intro a _ b hb
    simp [hs b hb]

theorem exists_run (hs : s ≠ []) (hslash : s.head? ≠ some '/') :
    ∃ w v, s = w ++ v ∧ w ≠ [] ∧ '/' ∉ w ∧ ∀ c ∈ v.head?, c = '/' := by
  obtain ⟨happ, hw, hv⟩ :=
    (takeWhile_dropWhile_eq_iff (s := s) (q := (· != '/'))).mp ⟨rfl, rfl⟩
  refine ⟨_, _, happ, ?_, fun hm => by simpa using hw _ hm, fun c hc => by simpa using hv c hc⟩
  obtain ⟨c, s, rfl⟩ := List.exists_cons_of_ne_nil hs
  have hc : c ≠ '/' := by simpa using hslash
  simp [hc]

theorem isSeparator_separates (c : Char) :
    SlashPolicy.separates.isSeparator c = (SlashPolicy.joins.isSeparator c || c == '/') := by
  have hjoins : (SlashPolicy.joins == .separates) = false := rfl
  simp [SlashPolicy.isSeparator, hjoins]

/-- What is left of a symbol between its slashes, in front of the text that follows it. -/
structure Uncut (t u : List Char) : Prop where
  joined : ∀ c ∈ t, SlashPolicy.joins.isSeparator c = false
  no_comment : ¬ ['/', '*'] <:+: t
  no_quoted : ¬ ['/', '"'] <:+: t
  lone_quote : t.head? = some '"' → '"' ∉ t.tail ++ u
  ends : ∀ c ∈ u.head?, SlashPolicy.joins.isSeparator c = true

namespace Uncut

theorem of_shaped (hx : Lexeme.Shaped .joins ⟨.symbol, t⟩)
    (hu : Lexeme.EndsBefore .joins ⟨.symbol, t⟩ u) (hcomment : ¬ ['/', '*'] <:+: t)
    (hquoted : ¬ ['/', '"'] <:+: t) : Uncut t u := by
  have hslash : ¬ Lexeme.IsSlash .joins t := fun h => nomatch h.1
  have hw : Lexeme.IsWord .joins t := hx.resolve_left hslash
  obtain ⟨_, hends, hquote⟩ := hu rfl
  refine ⟨hw.2.1, hcomment, hquoted, fun hh => ?_, hends hslash⟩
  rw [List.mem_append, not_or]
  exact ⟨hw.2.2.2 hh, hquote hh⟩

theorem tail (h : Uncut (w ++ t) u) (ht : t.head? ≠ some '"') : Uncut t u := by
  refine ⟨fun c hc => h.joined c (List.mem_append_right _ hc), fun hi => h.no_comment ?_,
    fun hi => h.no_quoted ?_, fun hh => absurd hh ht, h.ends⟩
  · exact hi.trans (List.suffix_append _ _).isInfix
  · exact hi.trans (List.suffix_append _ _).isInfix

theorem slash_ends (h : Uncut ('/' :: t) u) :
    Lexeme.EndsBefore .separates ⟨.symbol, ['/']⟩ (t ++ u) := by
  refine fun _ => ⟨fun _ hstar => ?_, fun hn => absurd ⟨rfl, rfl⟩ hn, nofun⟩
  cases t with
  | nil =>
    have hsep := h.ends '*' hstar
    simp [not_separator_star] at hsep
  | cons c t =>
    obtain rfl : c = '*' := by simpa using hstar
    exact h.no_comment ⟨[], t, rfl⟩

theorem slash_tail (h : Uncut ('/' :: t) u) : Uncut t u := by
  refine tail (w := ['/']) h fun hq => ?_
  obtain ⟨v, rfl⟩ := List.head?_eq_some_iff.mp hq
  exact h.no_quoted ⟨[], v, rfl⟩

theorem run_shaped (h : Uncut (w ++ t) u) (hne : w ≠ []) (hw : '/' ∉ w) :
    Lexeme.Shaped .separates ⟨.symbol, w⟩ := by
  refine .inr ⟨hne, fun c hc => ?_, fun hp => hw (hp.subset List.mem_cons_self), fun hh hm => ?_⟩
  · rw [isSeparator_separates, h.joined c (List.mem_append_left _ hc)]
    simpa using ne_of_mem_of_not_mem hc hw
  · obtain ⟨v, rfl⟩ := List.head?_eq_some_iff.mp hh
    exact h.lone_quote rfl (by simp [show '"' ∈ v from hm])

theorem run_ends (h : Uncut (w ++ t) u) (ht : ∀ c ∈ t.head?, c = '/') :
    Lexeme.EndsBefore .separates ⟨.symbol, w⟩ (t ++ u) := by
  refine Lexeme.endsBefore_of_separator (fun c hc => ?_) fun hx hm => ?_
  · rw [isSeparator_separates]
    cases t with
    | nil => simp [h.ends c hc]
    | cons d t =>
      obtain rfl : d = c := by simpa using hc
      simp [ht d rfl]
  · obtain ⟨v, rfl⟩ := List.head?_eq_some_iff.mp hx.2
    exact h.lone_quote rfl (by simpa using .inr (List.mem_append.mp hm))

end Uncut

/-- Where slashes separate, the pieces of a symbol are the tokens in front of what follows it. -/
theorem Placed.symbolsFrom (ht : Uncut t u)
    (h : Placed .separates (n + Text.byteLength t) u ts r) :
    Placed .separates n (t ++ u) (Token.symbolsFrom n (slashPieces t) ++ ts) r := by
  have hblanks : Blanks [] := by simp [Blanks]
  induction hl : t.length using Nat.strong_induction_on generalizing n t with
  | h l ih =>
    subst hl
    by_cases hnil : t = []
    · subst hnil
      exact h
    by_cases hslash : t.head? = some '/'
    · obtain ⟨v, rfl⟩ := List.head?_eq_some_iff.mp hslash
      have hbytes :
          n + Text.byteLength ('/' :: v) = n + Text.byteLength ['/'] + Text.byteLength v := by
        rw [← List.singleton_append, Text.byteLength_append, Nat.add_assoc]
      rw [hbytes] at h
      rw [slashPieces_slash]
      have hv := ih v.length (by simp) ht.slash_tail h rfl
      exact Placed.cons (t := ⟨.symbol, n, ['/']⟩) hblanks rfl (Lexeme.shaped_slash _)
        ht.slash_ends hv
    · obtain ⟨w, v, rfl, hne, hw, hv⟩ := exists_run hnil hslash
      have hpos := List.length_pos_iff.mpr hne
      have htail : Uncut v u := ht.tail fun hq => by simpa using hv _ hq
      rw [Text.byteLength_append, ← Nat.add_assoc] at h
      rw [slashPieces_run hne hw hv, List.append_assoc]
      have hrest := ih v.length (by rw [List.length_append]; omega) htail h rfl
      exact Placed.cons (t := ⟨.symbol, n, w⟩) hblanks rfl (ht.run_shaped hne hw) (ht.run_ends hv)
        hrest

theorem Lexeme.Shaped.of_ne_symbol {x : Lexeme} (hx : x.Shaped p) (hk : x.kind ≠ .symbol) :
    x.Shaped q := by
  obtain ⟨k, t⟩ := x
  cases k with
  | symbol => exact absurd rfl hk
  | _ => exact hx

theorem lexeme?_eq_none_congr (hs : Text.trimStart s = s) (h : lexeme? p s = none) :
    lexeme? q s = none := by
  obtain rfl | hopen := lexeme?_eq_none hs h
  · cases q <;> rfl
  · exact lexeme?_openComment hopen

theorem Placed.separates (h : Placed .joins n s ts r) (hts : ∀ t ∈ ts, t.HasPlainSlashes) :
    Placed .separates n s (ts.flatMap Token.cutAtSlashes) r := by
  induction h with
  | stop hs => exact .stop (lexeme?_eq_none_congr (List.dropWhile_idempotent ..) hs)
  | @token n s u r t ts ht hstart h ih =>
    rw [List.forall_mem_cons] at hts
    obtain ⟨htu, hx, hends⟩ := lexeme?_sound ht
    have hblanks : Blanks (s.takeWhile Text.isBlank) := fun c hc => List.mem_takeWhile_imp hc
    have hsw : s = s.takeWhile Text.isBlank ++ (t.text ++ u) := by
      rw [← htu]
      exact List.takeWhile_append_dropWhile.symm
    have hrest := ih hts.2
    rw [hsw, List.flatMap_cons, Token.cutAtSlashes]
    split
    · rename_i hk
      rw [hk] at hx hends
      obtain ⟨hcomment, hquoted⟩ := hts.1 hk
      refine Placed.blanks hblanks ?_
      rw [← hstart]
      exact hrest.symbolsFrom (.of_shaped hx hends hcomment hquoted)
    · rename_i hk
      exact hrest.cons hblanks hstart (hx.of_ne_symbol hk) fun hs => absurd hs hk

theorem Cursor.IsIn.eq_of_rest {c c' : Cursor} (h : c.IsIn source) (h' : c'.IsIn source)
    (hr : c.rest = c'.rest) : c = c' := by
  obtain ⟨before, rfl, hb⟩ := h
  obtain ⟨before', happ, hb'⟩ := h'
  rw [hr] at happ
  have hbefore : before = before' := List.append_cancel_right happ
  cases c
  cases c'
  simp_all

/-- Slashes that separate cut the symbols at their slashes and change nothing else, neither the
other tokens nor the place where the lexer stops. -/
theorem lex_separates (h : ∀ t ∈ (lex .joins s).1, t.HasPlainSlashes) :
    lex .separates s = ((lex .joins s).1.flatMap Token.cutAtSlashes, (lex .joins s).2) := by
  obtain ⟨htokens, hrest⟩ := lex_eq_of_placed ((lex_placed .joins s).separates h)
  have hfinal := (lex_calls .separates s).tiling.final_isIn.eq_of_rest
    (lex_calls .joins s).tiling.final_isIn hrest
  exact Prod.ext htokens hfinal

/-- A string and a comment keep their slashes. The symbol with a quote that has no partner loses its
own, and the lexer stops at the comment without a close. -/
theorem lex_separates_mixed :
    (∀ t ∈ (lex .joins "(é//c /* d/e */\"a/b\"/ \"f/g/ /*".toList).1, t.HasPlainSlashes) ∧
      lex .separates "(é//c /* d/e */\"a/b\"/ \"f/g/ /*".toList =
        ([⟨.openParen, 0, ['(']⟩, ⟨.symbol, 1, ['é']⟩, ⟨.symbol, 3, ['/']⟩, ⟨.symbol, 4, ['/']⟩,
          ⟨.symbol, 5, ['c']⟩, ⟨.comment, 7, "/* d/e */".toList⟩,
          ⟨.quoted, 16, "\"a/b\"".toList⟩, ⟨.symbol, 21, ['/']⟩, ⟨.symbol, 23, ['"', 'f']⟩,
          ⟨.symbol, 25, ['/']⟩, ⟨.symbol, 26, ['g']⟩, ⟨.symbol, 27, ['/']⟩], ⟨29, ['/', '*']⟩) := by
  have hlex : lex .joins "(é//c /* d/e */\"a/b\"/ \"f/g/ /*".toList =
      ([⟨.openParen, 0, ['(']⟩, ⟨.symbol, 1, "é//c".toList⟩, ⟨.comment, 7, "/* d/e */".toList⟩,
        ⟨.quoted, 16, "\"a/b\"".toList⟩, ⟨.symbol, 21, ['/']⟩, ⟨.symbol, 23, "\"f/g/".toList⟩],
        ⟨29, ['/', '*']⟩) := by
    cbv
  have hplain : ∀ t ∈ (lex .joins "(é//c /* d/e */\"a/b\"/ \"f/g/ /*".toList).1,
      t.HasPlainSlashes := by
    rw [hlex]
    decide
  refine ⟨hplain, ?_⟩
  rw [lex_separates hplain, hlex]
  rfl

end LispCalc
