import LispCalc.Proofs.Completion

namespace LispCalc

open Token

variable {p : SlashPolicy} {s front back r : List Char} {place : Nat} {later tail : List Token}

theorem Torn.isAtom (h : Torn s place later tail r)
    (hq : ∀ t ∈ later, t.kind = .quoted → ¬ (t.start < place ∧ place < t.stop)) :
    ∀ t ∈ tail, t.IsAtom := by
  cases h with
  | between => simp
  | symbol _ hv => exact List.forall_mem_singleton.mpr (isAtom_of_symbol hv)
  | opening _ hv => exact List.forall_mem_singleton.mpr (isAtom_of_symbol hv)
  | comment => simp
  | quoted ht hl hr => exact absurd ⟨hl, hr⟩ (hq _ List.mem_cons_self ht)

namespace Expr

variable {es : List Expr} {a b : Token} {us : List Token}

theorem exists_significant_of_parse_list (h : parse p s = .ok (list es)) :
    ∃ a us b, significant (lex p s).1 = a :: (us ++ [b]) ∧ a.kind = .openParen ∧
      b.kind = .closeParen ∧ Spelled es us := by
  rw [parse_eq_ofTokens] at h
  obtain ⟨_, hs, _⟩ := (ofTokens_eq_ok_iff (by simp)).mp h
  generalize significant (lex p s).1 = ts at hs
  generalize he : list es = e at hs
  cases hs with
  | @atom t _ _ ht =>
    obtain ⟨v, hv⟩ := exists_ofToken_eq_atom t
    simp [hv] at he
  | @list a b _ _ us _ ha hb hfs hnil =>
    cases hnil
    cases he
    exact ⟨a, us, b, rfl, ha, hb, hfs⟩

theorem start_lt_stop_of_mem_lex {t : Token} (ht : t ∈ (lex p s).1) : t.start < t.stop := by
  obtain ⟨c, u, htext, _⟩ := ((lex_lexes p s).shaped _ (List.mem_map_of_mem ht)).text_eq_cons
  exact Token.start_lt_stop (by simp [show t.text = c :: u from htext])

/-- A text that is read waits for more when it is cut off between two of its tokens that are no
comments, if the cut falls into no string. -/
theorem isIncomplete_of_parse_append {e : Expr} (h : parse p (front ++ back) = .ok e)
    (ha : a ∈ significant (lex p (front ++ back)).1)
    (hb : b ∈ significant (lex p (front ++ back)).1)
    (hfront : a.stop ≤ Text.byteLength front) (hback : Text.byteLength front ≤ b.start)
    (hq : ∀ t ∈ (lex p (front ++ back)).1, t.kind = .quoted →
      ¬ (t.start < Text.byteLength front ∧ Text.byteLength front < t.stop)) :
    isIncomplete p front = true := by
  obtain ⟨hr, hv⟩ := lex_of_parse h
  have hplaced := lex_placed p (front ++ back)
  rw [hr] at hplaced
  obtain ⟨done, later, tail, r, hts, hs, hdone, hlater, htorn⟩ := hplaced.cut
  simp only [Nat.zero_add] at hdone hlater htorn
  have hpos := start_lt_stop_of_mem_lex (mem_significant.mp hb).1
  rw [hts, significant_append] at hv
  rw [hts, significant_append, List.mem_append] at ha hb
  rw [hts] at hq
  -- the first token ends before the cut and the other one behind it
  have hadone : a ∈ significant done := ha.resolve_right fun hm => by
    have := hlater a (mem_significant.mp hm).1
    omega
  have hblater : b ∈ significant later := hb.resolve_left fun hm => by
    have := hdone b (mem_significant.mp hm).1
    omega
  obtain ⟨hnil | hnil, _⟩ | hopen := verdict_front_cases hv
  · simp [hnil] at hadone
  · simp [hnil] at hblater
  · obtain ⟨hlex, _⟩ := lex_eq_of_placed hs
    refine isIncomplete_of_unclosed hlex (htorn.isAtom fun t ht => hq t ?_) hopen
    exact List.mem_append_right _ ht

/-- A list waits for more as long as its close is not entered, wherever its text is cut off behind
its opening but in a string. -/
theorem isIncomplete_of_parse_list (h : parse p s = .ok (list es)) :
    ∃ a us b, significant (lex p s).1 = a :: (us ++ [b]) ∧ a.kind = .openParen ∧
      b.kind = .closeParen ∧ Spelled es us ∧
      ∀ front back, s = front ++ back → a.stop ≤ Text.byteLength front →
        Text.byteLength front ≤ b.start →
        (∀ t ∈ (lex p s).1, t.kind = .quoted →
          ¬ (t.start < Text.byteLength front ∧ Text.byteLength front < t.stop)) →
        isIncomplete p front = true := by
  obtain ⟨a, us, b, hts, ha, hb, hes⟩ := exists_significant_of_parse_list h
  refine ⟨a, us, b, hts, ha, hb, hes, ?_⟩
  rintro front back rfl hfront hback hq
  exact isIncomplete_of_parse_append h (by simp [hts]) (by simp [hts]) hfront hback hq

/-- Cut off between the two characters that open a comment, behind a quote in a comment. -/
theorem isIncomplete_of_parse_list_opening :
    parse .separates "/*(*/(a /*\"*/ b/**/ \")\")".toList =
        .ok (list [atom ['a'] (.identifier "a"), atom ['b'] (.identifier "b"),
          atom "\")\"".toList (.string ")")]) ∧
      isIncomplete .separates "/*(*/(a /*\"*/ b/".toList = true := by
  have h : parse .separates "/*(*/(a /*\"*/ b/**/ \")\")".toList =
      .ok (list [atom ['a'] (.identifier "a"), atom ['b'] (.identifier "b"),
        atom "\")\"".toList (.string ")")]) := by
    cbv
  have hlex : (lex .separates "/*(*/(a /*\"*/ b/**/ \")\")".toList).1 =
      [⟨.comment, 0, "/*(*/".toList⟩, ⟨.openParen, 5, ['(']⟩, ⟨.symbol, 6, ['a']⟩,
        ⟨.comment, 8, "/*\"*/".toList⟩, ⟨.symbol, 14, ['b']⟩, ⟨.comment, 15, "/**/".toList⟩,
        ⟨.quoted, 20, "\")\"".toList⟩, ⟨.closeParen, 23, [')']⟩] := by
    cbv
  obtain ⟨a, us, b, hts, _, _, _, hcut⟩ := isIncomplete_of_parse_list h
  have hsig : significant (lex .separates "/*(*/(a /*\"*/ b/**/ \")\")".toList).1 =
      ⟨.openParen, 5, ['(']⟩ :: ([⟨.symbol, 6, ['a']⟩, ⟨.symbol, 14, ['b']⟩,
        ⟨.quoted, 20, "\")\"".toList⟩] ++ [⟨.closeParen, 23, [')']⟩]) := by
    rw [hlex]
    rfl
  rw [hts, List.cons.injEq] at hsig
  obtain ⟨rfl, hlast⟩ := hsig
  obtain rfl := List.singleton_inj.mp (List.append_inj' hlast rfl).2
  refine ⟨h, hcut _ "**/ \")\")".toList rfl (by decide) (by decide) ?_⟩
  rw [hlex]
  decide

end Expr

end LispCalc
