import LispCalc.Proofs.Dependence
import LispCalc.Proofs.History
import LispCalc.Proofs.Printable

namespace LispCalc

/-- A text that names can have: it is cut off whole as a symbol, and it is no date, no number and no
truth value. -/
structure IsName (p : SlashPolicy) (s : List Char) : Prop where
  symbol : Lexeme.IsSlash p s ∨ Lexeme.IsWord p s
  noDate : Calendar.date? s = none
  noInt : Numeral.int64? s = none
  noFloat : Decimal.float? s = none
  noBool : Literal.bool? s = none

theorem Literal.classify_eq_identifier_iff {s : List Char} {name : String} :
    classify s = .identifier name ↔
      (Calendar.date? s = none ∧ Numeral.int64? s = none ∧ Decimal.float? s = none ∧
        bool? s = none) ∧ name = String.ofList s := by
  unfold classify
  cases Calendar.date? s with
  | some => simp
  | none =>
    cases Numeral.int64? s with
    | some => simp
    | none =>
      cases Decimal.float? s with
      | some => simp
      | none => cases bool? s <;> simp [eq_comm]

theorem isName_iff {p : SlashPolicy} {s : List Char} :
    IsName p s ↔ Lexeme.Shaped p ⟨.symbol, s⟩ ∧
      Literal.classify s = .identifier (String.ofList s) := by
  rw [Literal.classify_eq_identifier_iff]
  constructor
  · rintro ⟨hs, hd, hi, hf, hb⟩
    exact ⟨hs, ⟨hd, hi, hf, hb⟩, rfl⟩
  · rintro ⟨hs, ⟨hd, hi, hf, hb⟩, _⟩
    exact ⟨hs, hd, hi, hf, hb⟩

namespace Expr

open Token

variable {p : SlashPolicy} {source s : List Char} {name : String} {e : Expr} {es : List Expr}
  {ts : List Token} {t : Token}

theorem parse_of_isName (h : IsName p s) :
    parse p s = .ok (atom s (.identifier (String.ofList s))) := by
  obtain ⟨hshape, hclassify⟩ := isName_iff.mp h
  have hends : Lexeme.EndsBefore p ⟨.symbol, s⟩ [] :=
    Lexeme.endsBefore_of_separator (by simp) (by simp)
  have hlex : Lexes p s (([⟨.symbol, 0, s⟩] : List Token).map lexeme) [] := by
    simpa [lexeme] using Lexes.nil.cons hshape hends
  have hatom : Token.IsAtom ⟨.symbol, 0, s⟩ := isAtom_of_symbol rfl
  have htoken : ofToken ⟨.symbol, 0, s⟩ = atom s (.identifier (String.ofList s)) := by
    rw [← hclassify]
    rfl
  have hs : Spelled [ofToken ⟨.symbol, 0, s⟩] [⟨.symbol, 0, s⟩] := .atom hatom .nil
  rw [parse_eq_of_lexes hlex, ← htoken, ofTokens_eq_ok_iff hs.ne_null, hs.significant_eq]
  exact ⟨rfl, hs, by simp [nesting_ofToken]⟩

theorem isName_of_mem_names_ofToken (hs : t.lexeme.Shaped p) (ht : t.IsAtom)
    (hn : name ∈ (ofToken t).names) : IsName p name.toList := by
  obtain ⟨v, hv⟩ := exists_standsFor ht hs
  rw [ofToken_eq_atom hv, mem_names_atom] at hn
  subst hn
  obtain ⟨_, _, _, hstring⟩ | ⟨hk, hclassify⟩ := hv
  · simp at hstring
  · obtain ⟨_, rfl⟩ := Literal.classify_eq_identifier_iff.mp hclassify.symm
    rw [isName_iff, String.toList_ofList]
    exact ⟨by simpa only [lexeme, hk] using hs, hclassify.symm⟩

theorem Spelled.isName_of_mem (h : Spelled es ts) (hs : ∀ t ∈ ts, t.lexeme.Shaped p)
    (hn : name ∈ namesAll es) : IsName p name.toList := by
  induction h with
  | nil => simp [namesAll] at hn
  | atom ht _ ih =>
    rw [List.forall_mem_cons] at hs
    rw [namesAll, List.mem_append] at hn
    obtain hn | hn := hn
    · exact isName_of_mem_names_ofToken hs.1 ht hn
    · exact ih hs.2 hn
  | list _ _ _ _ ihf ih =>
    simp only [List.forall_mem_cons, List.forall_mem_append] at hs
    rw [namesAll, List.mem_append, names] at hn
    obtain hn | hn := hn
    · exact ihf hs.2.1 hn
    · exact ih hs.2.2.2 hn

theorem isName_of_parse (h : parse p source = .ok e) (hn : name ∈ e.names) :
    IsName p name.toList := by
  rw [parse_eq_ofTokens] at h
  obtain ⟨_, ⟨rfl, _⟩ | ⟨hs, _⟩⟩ := spelled_of_ofTokens h
  · simp [names] at hn
  · exact hs.isName_of_mem (shaped_of_mem_significant p source) (by simpa [namesAll] using hn)

theorem exists_parse_mem_names_iff :
    (∃ source e, parse p source = .ok e ∧ name ∈ e.names) ↔ IsName p name.toList := by
  constructor
  · rintro ⟨source, e, h, hn⟩
    exact isName_of_parse h hn
  · intro h
    exact ⟨_, _, parse_of_isName h, mem_names_atom.mpr (by rw [String.ofList_toList])⟩

end Expr

namespace Session

variable {s t : Session} {text : List Char} {d : Definition}

theorem exists_of_define (h : s.define text = .ok t) :
    ∃ d, Definition.parse s.policy text = .ok d ∧ t = s.bind d := by
  rw [define] at h
  cases hd : Definition.parse s.policy text with
  | error e => simp [hd, Except.map] at h
  | ok d => exact ⟨d, rfl, by simpa [hd, Except.map, eq_comm] using h⟩

theorem lookup?_bind_self (s : Session) (d : Definition) :
    (s.bind d).root.lookup? d.name = some d.value := by
  rw [bind, Scope.lookup?_bind, Env.set, if_pos rfl]

theorem eval_bind_of_isName (h : IsName s.policy d.name.toList) :
    (s.bind d).eval d.name.toList = .ok d.value := by
  have hresolve : (s.bind d).root.resolve d.name = d.value := by
    rw [Scope.resolve, lookup?_bind_self, Option.getD_some]
  have hparse := Expr.parse_of_isName h
  rw [String.ofList_toList] at hparse
  rw [eval_eq, show (s.bind d).policy = s.policy from rfl, hparse, Except.map, Expr.evaluate,
    Expr.evaluateAt, hresolve]

theorem eval_bind_of_not_isName (h : ¬ IsName s.policy d.name.toList) (source : List Char) :
    (s.bind d).eval source = s.eval source := by
  rw [eval_eq, eval_eq, bind]
  cases hp : Expr.parse s.policy source with
  | error e => rfl
  | ok e =>
    have hne : d.name ∉ e.names := fun hn => h (Expr.isName_of_parse hp hn)
    have hvalue : e.evaluate .none s.root = e.evaluate .none (s.root.bind d.name d.value) :=
      Expr.evaluate_congr fun _ hn => (Scope.Bypasses.bind d.value hne).lookup?_eq hn
    rw [Except.map, Except.map, hvalue]

theorem eval_bind_eq_ok_iff : (s.bind d).eval d.name.toList = .ok d.value ↔
    IsName s.policy d.name.toList ∨ s.eval d.name.toList = .ok d.value := by
  by_cases h : IsName s.policy d.name.toList
  · exact iff_of_true (eval_bind_of_isName h) (.inl h)
  · rw [eval_bind_of_not_isName h, or_iff_right h]

/-- An accepted definition is bound in the root scope. Its name evaluates to the value at once if it
is a name that texts can hold, and otherwise only if the same text had this value before, since then
the definition changes no answer. -/
theorem exists_definition_of_define (h : s.define text = .ok t) :
    ∃ d, Definition.parse s.policy text = .ok d ∧ t.root.lookup? d.name = some d.value ∧
      (t.eval d.name.toList = .ok d.value ↔
        IsName s.policy d.name.toList ∨ s.eval d.name.toList = .ok d.value) ∧
      ((∃ source e, Expr.parse s.policy source = .ok e ∧ d.name ∈ e.names) ↔
        IsName s.policy d.name.toList) ∧
      (¬ IsName s.policy d.name.toList → ∀ source, t.eval source = s.eval source) := by
  obtain ⟨d, hd, rfl⟩ := exists_of_define h
  exact ⟨d, hd, lookup?_bind_self s d, eval_bind_eq_ok_iff, Expr.exists_parse_mem_names_iff,
    eval_bind_of_not_isName⟩

def ratioSession : Session := (start .joins).bind ⟨"a/b", .int 1⟩

/-- A definition in a session that has another one, of a name with a quote and a slash in it. -/
theorem exists_definition_of_define_lateName :
    ∃ t, ratioSession.define " \"a/b = 0x1F ".toList = .ok t ∧
      ∃ d, Definition.parse .joins " \"a/b = 0x1F ".toList = .ok d ∧
        t.root.lookup? d.name = some d.value ∧
        (t.eval d.name.toList = .ok d.value ↔
          IsName .joins d.name.toList ∨ ratioSession.eval d.name.toList = .ok d.value) ∧
        ((∃ source e, Expr.parse .joins source = .ok e ∧ d.name ∈ e.names) ↔
          IsName .joins d.name.toList) ∧
        (¬ IsName .joins d.name.toList → ∀ source, t.eval source = ratioSession.eval source) := by
  have h : ratioSession.define " \"a/b = 0x1F ".toList =
      .ok (ratioSession.bind ⟨"\"a/b", .int 31⟩) := by
    cbv
  exact ⟨_, h, exists_definition_of_define h⟩

/-- Where slashes separate, `a/b` can be defined but is three symbols when it is evaluated. -/
theorem not_eval_name_of_define :
    ¬ ∀ (s t : Session) (text : List Char) (d : Definition), s.define text = .ok t →
      Definition.parse s.policy text = .ok d →
        ∃ v, t.eval d.name.toList = .ok v ∧ v.Agrees d.value := by
  intro h
  have hparse : Definition.parse .separates "a/b=1".toList = .ok ⟨"a/b", .int 1⟩ := by cbv
  have hdefine : (start .separates).define "a/b=1".toList =
      .ok ((start .separates).bind ⟨"a/b", .int 1⟩) := by
    cbv
  have heval : ((start .separates).bind ⟨"a/b", .int 1⟩).eval "a/b".toList =
      .error .trailingText := by
    cbv
  obtain ⟨v, hv, _⟩ := h _ _ _ _ hdefine hparse
  rw [heval] at hv
  cases hv

end Session

end LispCalc
