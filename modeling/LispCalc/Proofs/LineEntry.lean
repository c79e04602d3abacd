import LispCalc.Proofs.LineBreak
import LispCalc.Proofs.Naming
import LispCalc.Shell.Command

namespace LispCalc

variable {p : SlashPolicy} {c : Char} {s s' w w' l text rest : List Char}

theorem OpenComment.append_blanks (h : OpenComment s) (hw : Blanks w) : OpenComment (s ++ w) := by
  obtain ⟨body, hbody, rfl⟩ := h
  refine ⟨body ++ w, ?_, rfl⟩
  induction w using List.reverseRecOn with
  | nil => rwa [List.append_nil]
  | append_singleton w c ih =>
    have hc : Text.isBlank c = true := hw c (by simp)
    rw [← List.append_assoc]
    intro hclose
    obtain hend | hin := List.infix_concat_iff.mp hclose
    · -- a blank is no slash
      obtain ⟨x, hx⟩ := hend
      have hslash : '/' = c := by simpa using congrArg List.getLast? hx
      rw [← hslash] at hc
      exact absurd hc (by decide)
    · exact ih (fun d hd => hw d (List.mem_append_left _ hd)) hin

namespace Text

theorem exists_blanks_trim (s : List Char) :
    ∃ w w', Blanks w ∧ Blanks w' ∧ s = w ++ (trim s ++ w') := by
  obtain ⟨w, hw, hs⟩ := exists_blanks_append s
  obtain ⟨v, hv, htrim⟩ := exists_blanks_append (trimStart s).reverse
  refine ⟨w, v.reverse, hw, fun c hc => hv c (List.mem_reverse.mp hc), ?_⟩
  rw [trim, trimEnd, ← List.reverse_append, ← htrim, List.reverse_reverse]
  exact hs

theorem trim_blanks (hw : Blanks w) (hw' : Blanks w') (m : List Char) :
    trim (w ++ (m ++ w')) = trim m := by
  have hstart (x : List Char) : trimStart (w ++ x) = trimStart x :=
    List.dropWhile_append_of_pos hw
  have hend (x : List Char) : trimEnd (x ++ w') = trimEnd x := by
    have hrev : ∀ c ∈ w'.reverse, isBlank c = true := fun c hc => hw' c (List.mem_reverse.mp hc)
    rw [trimEnd, trimEnd, List.reverse_append, trimStart, List.dropWhile_append_of_pos hrev,
      trimStart]
  rw [trim, trim, hstart]
  cases hm : trimStart m with
  | nil =>
    have hblank : trimStart (m ++ w') = [] := by
      rw [trimStart, List.dropWhile_eq_nil_iff] at hm ⊢
      exact List.forall_mem_append.mpr ⟨hm, hw'⟩
    rw [hblank]
  | cons c x =>
    have hfront : trimStart (m ++ w') = trimStart m ++ w' := by
      rw [trimStart, List.dropWhile_append, ← trimStart, hm]
      rfl
    rw [hfront, hend, hm]

end Text

namespace Expr

theorem parse_blanks (p : SlashPolicy) (m : List Char) (hw : Blanks w) (hw' : Blanks w') :
    parse p (w ++ (m ++ w')) = parse p m := by
  have hl := lex_lexes p m
  have hblank : w'.any (!Text.isBlank ·) = false := by
    rw [List.any_eq_false]
    intro c hc
    simp [hw' c hc]
  obtain ⟨r, hr, hmore⟩ : ∃ r, Lexes p ((lex p m).2.rest ++ w') [] r ∧
      r.any (!Text.isBlank ·) = (lex p m).2.rest.any (!Text.isBlank ·) := by
    obtain hr | hr := hl.rest_cases
    · have hnil : Lexes p (w' ++ []) [] [] := Lexes.nil.blanks hw'
      rw [List.append_nil] at hnil
      rw [hr, List.nil_append]
      exact ⟨[], hnil, rfl⟩
    · have hopen := hr.append_blanks hw'
      refine ⟨_, Lexes.of_none (lexeme?_openComment hopen) hopen.trimStart_eq, ?_⟩
      rw [List.any_append, hblank, Bool.or_false]
  have hsep : ∀ c ∈ w'.head?, p.isSeparator c = true := fun c hc => by
    simp [SlashPolicy.isSeparator, hw' c (List.mem_of_mem_head? hc)]
  have hl' := (hl.append (fun _ => hsep) (fun _ _ _ => not_quote_mem_blanks hw') hr).blanks hw
  rw [List.append_nil] at hl'
  exact parse_congr hl hl' rfl hmore

theorem parse_trim (p : SlashPolicy) (s : List Char) : parse p (Text.trim s) = parse p s := by
  obtain ⟨w, w', hw, hw', hs⟩ := Text.exists_blanks_trim s
  conv_rhs => rw [hs]
  exact (parse_blanks p _ hw hw').symm

end Expr

namespace Shell

theorem linesFrom_append (h : '\n' ∉ l) (seen r : List Char) :
    linesFrom seen (l ++ '\n' :: r) = (seen.reverse ++ l ++ ['\n']) :: lines r := by
  induction l generalizing seen with
  | nil => simp [linesFrom, lines]
  | cons c l ih =>
    rw [List.mem_cons, not_or] at h
    rw [List.cons_append, linesFrom, ih h.2]
    · simp
    · exact fun hc => h.1 hc.symm

theorem lines_append (h : '\n' ∉ l) (r : List Char) :
    lines (l ++ '\n' :: r) = (l ++ ['\n']) :: lines r := linesFrom_append h [] r

namespace Conversation

theorem splitEnding_append (h : '\r' ∉ text) :
    splitEnding (text ++ ['\n']) = (text, ['\n']) := by
  have hrev : (text ++ ['\n']).reverse = '\n' :: text.reverse := by simp
  unfold splitEnding
  rw [hrev]
  split
  · rename_i r hr
    have hmem : '\r' ∈ text.reverse := by
      rw [(List.cons.inj hr).2]
      exact List.mem_cons_self
    exact absurd (List.mem_reverse.mp hmem) h
  · rename_i r _ hr
    rw [← (List.cons.inj hr).2, List.reverse_reverse]
  · rename_i hne
    exact absurd rfl (hne _)

theorem applyBackspaces?_eq_self (h : '\x08' ∉ text) :
    Text.applyBackspaces? text = some text := by
  rw [Text.applyBackspaces?, if_neg (by simpa using h)]

theorem step_of_isIncomplete {c : Conversation} (hr : '\r' ∉ c.pending ++ l)
    (hb : '\x08' ∉ c.pending ++ l)
    (h : Expr.isIncomplete c.session.policy (c.pending ++ l) = true) :
    c.step (l ++ ['\n']) = .goesOn { c with pending := c.pending ++ l ++ ['\n'] } .empty := by
  rw [step, ← List.append_assoc, splitEnding_append hr]
  simp only [applyBackspaces?_eq_self hb, h, if_true]

theorem step_of_answer? {c : Conversation} {o : Output} (hr : '\r' ∉ c.pending ++ l)
    (hb : '\x08' ∉ c.pending ++ l)
    (h : Expr.isIncomplete c.session.policy (c.pending ++ l) = false)
    (ho : answer? c.session (c.pending ++ l) = some o) :
    c.step (l ++ ['\n']) = .goesOn { c with pending := [] } o := by
  rw [step, ← List.append_assoc, splitEnding_append hr]
  simp only [applyBackspaces?_eq_self hb, h, ho, Bool.false_eq_true, if_false]

theorem behind_empty (r : Outcome) : r.behind .empty = r := by
  simp [Outcome.behind, Output.append, Output.empty]

theorem run_entry {session : Session} {o : Output} (hr : '\r' ∉ done ++ text)
    (hb : '\x08' ∉ done ++ text)
    (hfront : ∀ f g, text = f ++ '\n' :: g →
      Expr.isIncomplete session.policy (done ++ f) = true)
    (hwhole : Expr.isIncomplete session.policy (done ++ text) = false)
    (ho : answer? session (done ++ text) = some o) :
    run ⟨session, done⟩ (lines (text ++ '\n' :: rest)) =
      (run (start session) (lines rest)).behind o := by
  -- every line but the last joins what is pending, and less of the text is left
  generalize hn : text.length = n
  induction n using Nat.strong_induction_on generalizing done text with
  | _ n ih =>
    by_cases hnewline : '\n' ∈ text
    · obtain ⟨f, g, rfl, hf⟩ := List.eq_append_cons_of_mem hnewline
      have hline : '\r' ∉ done ++ f ∧ '\x08' ∉ done ++ f := by
        simp only [List.mem_append, List.mem_cons, not_or] at hr hb ⊢
        exact ⟨⟨hr.1, hr.2.1⟩, ⟨hb.1, hb.2.1⟩⟩
      have hjoin (x : List Char) : done ++ f ++ ['\n'] ++ x = done ++ (f ++ '\n' :: x) := by simp
      rw [List.append_assoc, List.cons_append, lines_append hf, run,
        step_of_isIncomplete hline.1 hline.2 (hfront f g rfl)]
      simp only
      rw [behind_empty]
      refine ih g.length ?_ ?_ ?_ ?_ ?_ ?_ rfl
      · rw [← hn, List.length_append, List.length_cons]
        omega
      · rwa [hjoin]
      · rwa [hjoin]
      · rintro f' g' rfl
        rw [hjoin]
        exact hfront (f ++ '\n' :: f') g' (by simp)
      · rwa [hjoin]
      · rwa [hjoin]
    · rw [lines_append hnewline, run, step_of_answer? hr hb hwhole ho]
      rfl

end Conversation

def isControl (c : Char) : Bool := c.toNat < 0x20 || (0x7F ≤ c.toNat && c.toNat < 0xA0)

/-- A text for one line that is evaluated as a list. -/
structure IsEntry (p : SlashPolicy) (s : List Char) : Prop where
  plain : ∀ c ∈ s, isControl c = false
  list : ∃ es, Expr.parse p s = .ok (.list es)
  notExit : Text.trim s ≠ "(exit)".toList

/-- A text and what is entered for it, over one line or several. -/
def EnteredAs (p : SlashPolicy) (s s' : List Char) : Prop :=
  IsEntry p s ∧ Broken (IsBreak p s) 0 s s'

def entered (texts : List (List Char)) : List Char := texts.flatMap (· ++ ['\n'])

def reply (session : Session) (text : List Char) : Output :=
  match session.eval text with
  | .ok v => report v
  | .error e => .toErr e.message

def replies (session : Session) : List (List Char) → Output
  | [] => .empty
  | text :: texts => (reply session text).append (replies session texts)

variable {session : Session} {texts broken : List (List Char)} {es : List Expr} {q : Nat → Prop}

theorem reply_congr (h : Expr.parse session.policy s' = Expr.parse session.policy s) :
    reply session s' = reply session s := by
  rw [reply, reply, Session.eval, Session.eval, h]

namespace Conversation

theorem answer?_of_list (h : Expr.parse session.policy text = .ok (.list es))
    (hexit : isExit (Text.trim text) = false) :
    answer? session text = some (reply session text) := by
  have htrim := Expr.parse_trim session.policy text
  have hne : (Text.trim text).isEmpty = false := by
    have hnull : Expr.parse session.policy [] = .ok .null := by
      cases session.policy <;> cbv
    rw [List.isEmpty_eq_false_iff]
    intro hnil
    rw [hnil, h, hnull] at htrim
    cases htrim
  rw [answer?]
  simp only [hne, hexit, Bool.false_eq_true, if_false]
  rw [← reply_congr htrim, reply]
  cases session.eval (Text.trim text) <;> rfl

theorem isExit_of_broken {n : Nat} (hs : '\n' ∉ s) (hb : Broken q n s s')
    (h : Expr.parse p s' = .ok (.list es)) (hne : Text.trim s ≠ "(exit)".toList) :
    isExit (Text.trim s') = false := by
  rw [isExit, Bool.or_eq_false_iff, beq_eq_false_iff_ne, beq_eq_false_iff_ne]
  constructor
  · intro hexit
    have hword : Expr.parse p "exit".toList = .ok (.atom "exit".toList (.identifier "exit")) := by
      cases p <;> cbv
    rw [← Expr.parse_trim, hexit, hword] at h
    cases h
  · intro hexit
    obtain ⟨w, w', hw, hw', hs'⟩ := Text.exists_blanks_trim s'
    have hsub {v : List Char} (hv : Blanks v) : Blanks (v.filter (· != '\n')) :=
      fun c hc => hv c (List.mem_filter.mp hc).1
    have hfilter := hb.filter_eq hs
    rw [hs', hexit, List.filter_append, List.filter_append] at hfilter
    rw [← hfilter, Text.trim_blanks (hsub hw) (hsub hw')] at hne
    exact hne (by decide)

end Conversation

theorem IsEntry.not_mem (h : IsEntry p s) (hc : isControl c = true) : c ∉ s := by
  intro hmem
  rw [h.plain c hmem] at hc
  cases hc

/-- Texts that are entered over several lines are answered one after another. -/
theorem run_entered
    (h : List.Forall₂ (EnteredAs session.policy) texts broken) :
    (Conversation.start session).run (lines (entered broken)) =
      ⟨0, replies session texts⟩ := by
  induction h with
  | nil => rfl
  | @cons s s' texts broken hs _ ih =>
    obtain ⟨hentry, hb⟩ := hs
    obtain ⟨es, hlist⟩ := hentry.list
    have hnewline : '\n' ∉ s := hentry.not_mem (by decide)
    have hkept {c : Char} (hc : isControl c = true) (hn : c ≠ '\n') : c ∉ s' :=
      fun hmem => hentry.not_mem hc ((hb.mem c hmem).resolve_left hn)
    have hparse := Expr.parse_eq_of_broken hlist hb
    have hlist' := hparse.trans hlist
    have hexit := Conversation.isExit_of_broken hnewline hb hlist' hentry.notExit
    have hanswer := Conversation.answer?_of_list hlist' hexit
    rw [reply_congr hparse] at hanswer
    have hfront : ∀ f g, s' = f ++ '\n' :: g → Expr.isIncomplete session.policy f = true := by
      rintro f g rfl
      exact Expr.isIncomplete_of_broken hlist hnewline hb
    have hwhole : Expr.isIncomplete session.policy s' = false := by
      rw [Expr.isIncomplete, hlist']
    have hrun : (Conversation.start session).run (lines (s' ++ '\n' :: entered broken)) =
        ((Conversation.start session).run (lines (entered broken))).behind (reply session s) :=
      Conversation.run_entry (hkept (by decide) (by decide)) (hkept (by decide) (by decide))
        hfront hwhole hanswer
    have hjoin : entered (s' :: broken) = s' ++ '\n' :: entered broken := by simp [entered]
    rw [hjoin, hrun, ih]
    rfl

theorem policy_defineAll {session' : Session} {ds : List (List Char)}
    (h : defineAll session ds = .ok session') : session'.policy = session.policy := by
  induction ds generalizing session with
  | nil =>
    cases h
    rfl
  | cons d ds ih =>
    cases hd : session.define d with
    | error e => simp [defineAll, hd, bind, Except.bind] at h
    | ok next =>
      obtain ⟨_, _, rfl⟩ := Session.exists_of_define hd
      simp only [defineAll, hd, bind, Except.bind] at h
      rw [ih h, Session.bind]

/-- It makes no difference over how many lines each text is entered. Whatever is defined before, the
texts are answered one after another, up to the end of the input. -/
theorem runOptions_entered {ds : List (List Char)}
    (h : List.Forall₂ (EnteredAs p) texts broken) :
    runOptions ⟨p, false, none, ds⟩ (entered broken) =
        runOptions ⟨p, false, none, ds⟩ (entered texts) ∧
      ∀ session, defineAll (.start p) ds = .ok session →
        runOptions ⟨p, false, none, ds⟩ (entered broken) =
          ⟨0, greeting.append (replies session texts)⟩ := by
  have hwhole : List.Forall₂ (EnteredAs p) texts texts := by
    induction h with
    | nil => exact .nil
    | cons hs _ ih => exact .cons ⟨hs.1, .refl _ 0⟩ ih
  cases hd : defineAll (.start p) ds with
  | error e => exact ⟨by simp only [runOptions, hd], nofun⟩
  | ok session =>
    obtain rfl : session.policy = p := policy_defineAll hd
    have hout {entries : List (List Char)}
        (h : List.Forall₂ (EnteredAs session.policy) texts entries) :
        runOptions ⟨session.policy, false, none, ds⟩ (entered entries) =
          ⟨0, greeting.append (replies session texts)⟩ := by
      simp only [runOptions, hd, converse, run_entered h]
      rfl
    refine ⟨(hout h).trans (hout hwhole).symm, ?_⟩
    rintro _ ⟨⟩
    exact hout h

/-- A newline behind the head, another one in front of the blank there, and one before the close. -/
theorem runOptions_entered_sum :
    List.Forall₂ (EnteredAs .joins) ["(+ x 3)".toList] ["(+\n\n x 3\n)".toList] ∧
      runOptions ⟨.joins, false, none, ["x=2".toList]⟩ "(+\n\n x 3\n)\n".toList =
        ⟨0, greeting.append ⟨"5\n", ""⟩⟩ := by
  have hlex : (lex .joins "(+ x 3)".toList).1 = [⟨.openParen, 0, ['(']⟩, ⟨.symbol, 1, ['+']⟩,
      ⟨.symbol, 3, ['x']⟩, ⟨.symbol, 5, ['3']⟩, ⟨.closeParen, 6, [')']⟩] := by
    cbv
  have hbreak {n : Nat} (hn : n = 2 ∨ n = 6) : IsBreak .joins "(+ x 3)".toList n := by
    refine ⟨?_, ?_, ?_⟩
    · rw [hlex, Between]
      obtain rfl | rfl := hn <;> decide
    · rw [hlex]
      obtain rfl | rfl := hn <;> decide
    · rw [hlex]
      obtain rfl | rfl := hn <;> decide
  have hbroken : Broken (IsBreak .joins "(+ x 3)".toList) 0 "(+ x 3)".toList
      "(+\n\n x 3\n)".toList :=
    .keep (.keep (.newline (hbreak (.inl rfl)) (.newline (hbreak (.inl rfl))
      (.keep (.keep (.keep (.keep (.newline (hbreak (.inr rfl)) (.keep .nil)))))))))
  have hentry : IsEntry .joins "(+ x 3)".toList :=
    ⟨by simp [isControl], ⟨_, by cbv⟩, by decide⟩
  have hall : List.Forall₂ (EnteredAs .joins) ["(+ x 3)".toList] ["(+\n\n x 3\n)".toList] :=
    .cons ⟨hentry, hbroken⟩ .nil
  refine ⟨hall, ?_⟩
  have hd : defineAll (.start .joins) ["x=2".toList] =
      .ok ((Session.start .joins).bind ⟨"x", .int 2⟩) := by
    cbv
  have hreplies : replies ((Session.start .joins).bind ⟨"x", .int 2⟩) ["(+ x 3)".toList] =
      ⟨"5\n", ""⟩ := by
    cbv
  rw [← hreplies]
  exact (runOptions_entered hall).2 _ hd

end Shell

end LispCalc
