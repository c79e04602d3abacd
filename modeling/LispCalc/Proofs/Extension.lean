import LispCalc.Proofs.Layout

namespace LispCalc

/-- A comment without a close, which ends the tokens of a text. -/
def OpenComment (s : List Char) : Prop :=
  ∃ body, ¬ ['*', '/'] <:+: body ∧ s = '/' :: '*' :: body

variable {p : SlashPolicy} {s q u r r' seen : List Char} {ls ls' later : List Lexeme}

theorem throughClose?_eq_none (h : throughClose? seen s = none) : ¬ ['*', '/'] <:+: s := by
  fun_induction throughClose? seen s with
  | case1 => simp at h
  | case2 seen c r hne ih =>
    rw [List.infix_cons_iff, not_or]
    refine ⟨?_, ih h⟩
    rintro ⟨v, hv⟩
    simp only [List.cons_append, List.nil_append, List.cons.injEq] at hv
    obtain ⟨rfl, rfl⟩ := hv
    exact hne _ rfl rfl
  | case3 => simp

theorem exists_symbol?_eq_some {c : Char} (h : p.isSeparator c = false ∨ c = '/') :
    ∃ t r, symbol? p (c :: s) = some (t, r) := by
  by_cases hc : p.isSeparator c = false
  · obtain ⟨happ, ht, hr⟩ :=
      (takeWhile_dropWhile_eq_iff (s := c :: s) (q := (!p.isSeparator ·))).mp ⟨rfl, rfl⟩
    refine ⟨_, _, symbol?_eq_some_iff.mpr ⟨happ, .inr ⟨?_, ?_, ?_⟩⟩⟩
    · simp [hc]
    · simpa using ht
    · simpa using hr
  · obtain rfl := h.resolve_left hc
    have hp : p = .separates := by
      cases p with
      | joins => exact absurd (by decide) hc
      | separates => rfl
    exact ⟨['/'], s, symbol?_eq_some_iff.mpr ⟨rfl, .inl ⟨hp, rfl⟩⟩⟩

theorem lexeme?_eq_none (hs : Text.trimStart s = s) (h : lexeme? p s = none) :
    s = [] ∨ OpenComment s := by
  unfold lexeme? at h
  split at h
  · simp at h
  · simp at h
  · rw [Option.map_eq_none_iff] at h
    exact .inr ⟨_, throughClose?_eq_none h, rfl⟩
  · rename_i hopen hclose _
    split at h
    · simp at h
    · rw [Option.map_eq_none_iff] at h
      cases s with
      | nil => exact .inl rfl
      | cons c s =>
        have hblank : Text.isBlank c = false := by
          have hhead := List.head?_dropWhile_not Text.isBlank (c :: s)
          rw [Text.trimStart] at hs
          simpa [hs] using hhead
        have hsep : p.isSeparator c = false ∨ c = '/' := by
          have ho : c ≠ '(' := fun hc => hopen s (by rw [hc])
          have hl : c ≠ ')' := fun hc => hclose s (by rw [hc])
          by_cases hc : c = '/'
          · exact .inr hc
          · simp [SlashPolicy.isSeparator, hblank, ho, hl, hc]
        obtain ⟨t, r, hsome⟩ := exists_symbol?_eq_some (s := s) hsep
        simp [h] at hsome

theorem lexeme?_openComment (h : OpenComment s) : lexeme? p s = none := by
  obtain ⟨body, hbody, rfl⟩ := h
  have hn : throughClose? ['*', '/'] body = none := by
    cases ht : throughClose? ['*', '/'] body with
    | none => rfl
    | some x =>
      obtain ⟨inner, _, rfl, _⟩ := throughClose?_eq_some_iff.mp ht
      exact absurd ⟨inner, x.2, by simp⟩ hbody
  simp [lexeme?, hn]

theorem OpenComment.trimStart_eq (h : OpenComment s) : Text.trimStart s = s := by
  obtain ⟨body, _, rfl⟩ := h
  rfl

namespace Lexeme

variable {x : Lexeme}

theorem EndsBefore.append (h : x.EndsBefore p u)
    (hsep : u = [] → ∀ c ∈ q.head?, p.isSeparator c = true) (hq : x.OpensQuote → '"' ∉ q) :
    x.EndsBefore p (u ++ q) := by
  cases u with
  | nil => exact endsBefore_of_separator (hsep rfl) hq
  | cons c u =>
    intro hk
    obtain ⟨hslash, hword, hquote⟩ := h hk
    refine ⟨hslash, hword, fun ho hm => ?_⟩
    exact (List.mem_append.mp hm).elim (hquote ho) (hq ⟨hk, ho⟩)

theorem EndsBefore.of_append (h : x.EndsBefore p (u ++ q)) : x.EndsBefore p u := by
  cases u with
  | nil => exact endsBefore_of_separator (by simp) (by simp)
  | cons c u =>
    intro hk
    obtain ⟨hslash, hword, hquote⟩ := h hk
    exact ⟨hslash, hword, fun ho hm => hquote ho (List.mem_append_left _ hm)⟩

end Lexeme

theorem exists_blanks_append (s : List Char) : ∃ w, Blanks w ∧ s = w ++ Text.trimStart s :=
  ⟨s.takeWhile Text.isBlank, fun _ hc => List.mem_takeWhile_imp hc,
    List.takeWhile_append_dropWhile.symm⟩

namespace Lexes

theorem eq_nil_of_nil (h : Lexes p [] ls r) : ls = [] ∧ r = [] := h.unique .nil

theorem rest_cases (h : Lexes p s ls r) : r = [] ∨ OpenComment r := by
  induction h with
  | stop hs => exact lexeme?_eq_none (List.dropWhile_idempotent ..) hs
  | token _ _ ih => exact ih

/-- The tokens in front stay as they are when the text goes on, whatever becomes of the last ones
and of the rest. -/
theorem exists_suffix (h : Lexes p s (ls ++ later) r)
    (hsep : later = [] → r = [] → ∀ c ∈ q.head?, p.isSeparator c = true)
    (hq : ∀ x ∈ ls, x.OpensQuote → '"' ∉ q) :
    ∃ u, u <:+ s ∧ Lexes p u later r ∧
      ∀ ls' r', Lexes p (u ++ q) ls' r' → Lexes p (s ++ q) (ls ++ ls') r' := by
  induction ls generalizing s with
  | nil => exact ⟨s, List.suffix_rfl, h, fun _ _ h' => h'⟩
  | cons x ls ih =>
    rw [List.forall_mem_cons] at hq
    cases h with
    | @token _ t u _ k _ ht h =>
      obtain ⟨hs, hshape, hends⟩ := lexeme?_sound ht
      obtain ⟨w, hw, hws⟩ := exists_blanks_append s
      rw [hs] at hws
      obtain ⟨v, hv, hlast, hfront⟩ := ih h hq.2
      have hu : u <:+ s := ⟨w ++ t, by rw [hws, List.append_assoc]⟩
      refine ⟨v, hv.trans hu, hlast, fun ls' r' h' => ?_⟩
      have hends' : Lexeme.EndsBefore p ⟨k, t⟩ (u ++ q) := by
        refine hends.append (fun hnil => ?_) hq.1
        subst hnil
        obtain ⟨hls, hr⟩ := h.eq_nil_of_nil
        exact hsep (List.append_eq_nil_iff.mp hls).2 hr
      rw [hws, List.append_assoc, List.append_assoc]
      exact ((hfront ls' r' h').cons hshape hends').blanks hw

theorem exists_blanks (h : Lexes p s [] r) : ∃ w, Blanks w ∧ s = w ++ r := by
  cases h with
  | stop => exact exists_blanks_append s

theorem append (h : Lexes p s ls r) (hsep : r = [] → ∀ c ∈ q.head?, p.isSeparator c = true)
    (hq : ∀ x ∈ ls, x.OpensQuote → '"' ∉ q) (h' : Lexes p (r ++ q) ls' r') :
    Lexes p (s ++ q) (ls ++ ls') r' := by
  rw [← List.append_nil ls] at h
  obtain ⟨u, _, hu, hfront⟩ := h.exists_suffix (fun _ => hsep) hq
  obtain ⟨w, hw, rfl⟩ := hu.exists_blanks
  refine hfront ls' r' ?_
  rw [List.append_assoc]
  exact h'.blanks hw

/-- A quote closes the first one that has no partner, and all between them is one string. -/
theorem close_quote {x : Lexeme} (h : Lexes p s (x :: ls) r) (hx : x.OpensQuote)
    (h' : Lexes p q ls' r') : ∃ t, Lexes p (s ++ '"' :: q) (⟨.quoted, t⟩ :: ls') r' := by
  cases h with
  | @token _ t u _ k _ ht h =>
    obtain ⟨hs, hshape, hends⟩ := lexeme?_sound ht
    obtain ⟨w, hw, hws⟩ := exists_blanks_append s
    obtain ⟨rfl, hhead⟩ := hx
    obtain ⟨v, rfl⟩ := List.head?_eq_some_iff.mp hhead
    have hword : Lexeme.IsWord p ('"' :: v) := hshape.resolve_left fun hslash => by
      simp [Lexeme.IsSlash] at hslash
    have hv : '"' ∉ v := hword.2.2.2 rfl
    have hu : '"' ∉ u := (hends rfl).2.2 rfl
    have hquoted : Lexeme.Shaped p ⟨.quoted, '"' :: (v ++ u ++ ['"'])⟩ :=
      ⟨v ++ u, by simp [hv, hu], rfl⟩
    have htext : s ++ '"' :: q = w ++ ('"' :: (v ++ u ++ ['"']) ++ q) := by
      rw [hws, hs]
      simp
    rw [htext]
    exact ⟨_, (h'.cons_of_ne_symbol hquoted (by simp)).blanks hw⟩

theorem slash_becomes_comment (h : Lexes p s [⟨.symbol, ['/']⟩] []) (hs : ['/'] <:+ s) :
    Lexes p (s ++ ['*', '*', '/']) [⟨.comment, ['/', '*', '*', '/']⟩] [] := by
  cases h with
  | @token _ t u _ k _ ht h =>
    obtain ⟨htu, _, _⟩ := lexeme?_sound ht
    obtain ⟨w, hw, hws⟩ := exists_blanks_append s
    obtain ⟨v, hv, rfl⟩ := h.exists_blanks
    have hnil : v = [] := by
      obtain rfl | ⟨v, c, rfl⟩ := List.eq_nil_or_concat' v
      · rfl
      · have hc : Text.isBlank c = true := hv c (by simp)
        have hlast : s = (w ++ '/' :: v) ++ [c] := by
          rw [hws, htu]
          simp
        obtain ⟨a, ha⟩ := hs
        have hslash : ['/'] = [c] := (List.append_inj' (ha.trans hlast) rfl).2
        rw [← List.singleton_inj.mp hslash] at hc
        exact absurd hc (by decide)
    subst hnil
    rw [htu] at hws
    have hcomment : Lexeme.Shaped p ⟨.comment, ['/', '*', '*', '/']⟩ := ⟨[], by simp, rfl⟩
    have hlexes := (Lexes.nil.cons_of_ne_symbol hcomment (by simp)).blanks hw
    rw [hws]
    simpa using hlexes

end Lexes

end LispCalc
