import LispCalc.Proofs.Spelling

namespace LispCalc.Expr

open Token

def ending (stuck : Bool) (rest : List Token) : Except ParseError Unit :=
  if rest.isEmpty && !stuck then .ok () else .error .trailingText

/-- How reading ends while `count` lists are open. No list is built: what counts is how many. -/
def walk (stuck : Bool) : (count : Nat) → List Token → Except ParseError Unit
  | _, [] => .error .unclosedList
  | count, t :: ts =>
    match t.kind with
    | .openParen =>
      if count = nestingLimit then .error .nestingTooDeep else walk stuck (count + 1) ts
    | .closeParen => if count = 1 then ending stuck ts else walk stuck (count - 1) ts
    | _ => walk stuck count ts

/-- How reading ends, by the first token and by the number of lists that are open behind it. -/
def verdict (stuck : Bool) (ts : List Token) : Except ParseError Unit :=
  match ts with
  | [] => ending stuck []
  | t :: rest =>
    match t.kind with
    | .openParen => walk stuck 0 (t :: rest)
    | .closeParen => .error .unopenedParen
    | _ => ending stuck rest

def outcome (stuck : Bool) : Except ParseError Expr × List Token → Except ParseError Unit
  | (.error e, _) => .error e
  | (.ok _, rest) => ending stuck rest

variable {stuck : Bool} {count : Nat} {opened : List (List Expr)} {t : Token} {ts : List Token}

theorem walk_open (h : t.kind = .openParen) (hn : count ≠ nestingLimit) :
    walk stuck count (t :: ts) = walk stuck (count + 1) ts := by
  simp [walk, h, hn]

theorem walk_tooDeep (h : t.kind = .openParen) (hn : count = nestingLimit) :
    walk stuck count (t :: ts) = .error .nestingTooDeep := by
  simp [walk, h, hn]

theorem walk_last (h : t.kind = .closeParen) : walk stuck 1 (t :: ts) = ending stuck ts := by
  simp [walk, h]

theorem walk_close (h : t.kind = .closeParen) :
    walk stuck (count + 2) (t :: ts) = walk stuck (count + 1) ts := by
  simp [walk, h]

theorem walk_atom (h : t.IsAtom) : walk stuck count (t :: ts) = walk stuck count ts := by
  obtain ⟨_, ho, hl⟩ := h
  rw [walk]
  split <;> first | contradiction | rfl

theorem verdict_atom (h : t.IsAtom) : verdict stuck (t :: ts) = ending stuck ts := by
  obtain ⟨_, ho, hl⟩ := h
  rw [verdict]
  split <;> first | contradiction | rfl

theorem outcome_read_eq_walk (ho : opened ≠ []) (hc : ∀ t ∈ ts, t.kind ≠ .comment) :
    outcome stuck (read opened ts) = walk stuck opened.length ts := by
  induction ts generalizing opened with
  | nil =>
    obtain ⟨es, outer, rfl⟩ := List.exists_cons_of_ne_nil ho
    rfl
  | cons t ts ih =>
    rw [List.forall_mem_cons] at hc
    obtain ⟨es, outer, rfl⟩ := List.exists_cons_of_ne_nil ho
    obtain ht | ht | ht | ht := t.kind_cases
    · exact absurd ht hc.1
    · by_cases hl : (es :: outer).length = nestingLimit
      · rw [read_tooDeep ht hl, walk_tooDeep ht hl]
        rfl
      · rw [read_open ht hl, walk_open ht hl]
        exact ih (List.cons_ne_nil _ _) hc.2
    · cases outer with
      | nil =>
        rw [read_last ht]
        exact (walk_last ht).symm
      | cons fs outer =>
        rw [read_close ht, ih (List.cons_ne_nil _ _) hc.2]
        exact (walk_close ht).symm
    · rw [read_atom ht, ih (List.cons_ne_nil _ _) hc.2, walk_atom ht]
      rfl

theorem outcome_read_eq_verdict (hc : ∀ t ∈ ts, t.kind ≠ .comment) :
    outcome stuck (read [] ts) = verdict stuck ts := by
  cases ts with
  | nil => rfl
  | cons t ts =>
    rw [List.forall_mem_cons] at hc
    have hlimit : ([] : List (List Expr)).length ≠ nestingLimit := by decide
    obtain ht | ht | ht | ht := t.kind_cases
    · exact absurd ht hc.1
    · rw [read_open ht hlimit, outcome_read_eq_walk (List.cons_ne_nil _ _) hc.2]
      simp [verdict, ht, walk_open ht (by decide : 0 ≠ nestingLimit)]
    · simp [read_unopened ht, verdict, ht, outcome]
    · rw [read_single ht, verdict_atom ht]
      rfl

theorem map_ofTokens_eq_outcome (ts : List Token) (stuck : Bool) :
    (ofTokens ts stuck).map (fun _ => ()) = outcome stuck (read [] (significant ts)) := by
  have hrest (us : List Token) : us.all isComment = (significant us).isEmpty := by
    rw [Bool.eq_iff_iff]
    simp [significant]
  rw [ofTokens, read_significant]
  cases read [] ts with
  | mk result rest =>
    cases result with
    | error e => rfl
    | ok e =>
      simp only [outcome, ending, hrest]
      cases (significant rest).isEmpty <;> cases stuck <;> rfl

/-- A text is read or refused as its tokens are by counting, and null is read if there are none. -/
theorem map_parse_eq_verdict (p : SlashPolicy) (s : List Char) :
    (parse p s).map (fun _ => ()) =
        verdict (lex p s).2.hasMoreText (significant (lex p s).1) ∧
      (parse p s = .ok null ↔
        (lex p s).2.hasMoreText = false ∧ significant (lex p s).1 = []) := by
  rw [parse_eq_ofTokens]
  refine ⟨?_, ofTokens_eq_null_iff⟩
  rw [map_ofTokens_eq_outcome]
  exact outcome_read_eq_verdict fun t ht => (mem_significant.mp ht).2

end LispCalc.Expr
