import Mathlib
import LispCalc.Proofs.Bundled
import LispCalc.Proofs.Spelling

namespace LispCalc

/-- What a text can evaluate to: an ordinary error, or a value that is no name and not missing. -/
def Value.IsProper (v : Value) : Prop :=
  v.kind ≠ .unknown ∧ v.kind ≠ .identifier ∧ ∀ e, v = .error e → e.isOrdinary = true

/-- Names are bound to nothing but proper values that are no errors. -/
def Scope.BindsProper (s : Scope) : Prop :=
  ∀ v, s.Binds v → v.kind ∉ [Kind.unknown, Kind.identifier, Kind.error]

def literalKinds : List Kind := [.date, .int, .float, .bool, .string, .identifier]

theorem kind_classify (s : List Char) : (Literal.classify s).kind ∈ literalKinds := by
  unfold Literal.classify
  repeat' split
  all_goals simp [Value.kind, literalKinds]

theorem isProper_of_kind {v : Value} (h : v.kind ∉ [Kind.unknown, Kind.identifier, Kind.error]) :
    v.IsProper := by
  simp only [List.mem_cons, List.not_mem_nil, or_false, not_or] at h
  refine ⟨h.1, h.2.1, ?_⟩
  rintro e rfl
  exact absurd rfl h.2.2

theorem isProper_of_isOrdinary {e : EvalError} (h : e.isOrdinary = true) :
    (Value.error e).IsProper := by
  refine ⟨nofun, nofun, ?_⟩
  rintro e' he
  obtain rfl : e = e' := by simpa using he
  exact h

namespace Answers

variable {args : List Value} {v : Value}

theorem isProper (h : Answers args v) (hargs : ∀ u ∈ args, u.IsProper) : v.IsProper := by
  cases h with
  | passed he => exact hargs _ he
  | failed he => exact isProper_of_isOrdinary he
  | computed _ hk =>
    apply isProper_of_kind
    revert hk
    generalize v.kind = k
    cases k <;> simp [datumKinds]

theorem kind_mem (h : Answers args v) : v.kind ∈ datumKinds ++ [.error] := by
  rw [List.mem_append]
  cases h with
  | passed | failed => exact .inr List.mem_cons_self
  | computed _ hk => exact .inl hk

end Answers

namespace Scope

variable {s : Scope} {v : Value} {name : String}

theorem root_bindsProper : root.BindsProper := fun _ hv => absurd hv not_binds_root

theorem BindsProper.bind (h : s.BindsProper) (name : String)
    (hv : v.kind ∉ [Kind.unknown, Kind.identifier, Kind.error]) : (s.bind name v).BindsProper := by
  intro u hu
  obtain rfl | hu := eq_or_binds_of_bind hu
  · exact hv
  · exact h u hu

theorem BindsProper.child (h : s.BindsProper) : s.child.BindsProper :=
  fun v hv => h v (binds_child.mp hv)

theorem BindsProper.argumentScope (h : s.BindsProper) (e : Expr) :
    (e.argumentScope s).BindsProper := by
  cases e with
  | list => exact h.child
  | null | atom => exact h

theorem BindsProper.resolve (h : s.BindsProper) (name : String) : (s.resolve name).IsProper := by
  rw [Scope.resolve]
  cases hl : s.lookup? name with
  | none => exact isProper_of_isOrdinary rfl
  | some v =>
    obtain hv | ⟨b, _, rfl⟩ := lookup?_cases hl
    · exact isProper_of_kind (h v hv)
    · exact isProper_of_kind (by simp [Value.kind])

end Scope

namespace Expr

open Token

variable {hosts : Hosts} {p : SlashPolicy} {source : List Char} {s : Scope} {depth : Nat}
  {e head : Expr} {es args : List Expr} {ts : List Token}

theorem kind_of_mem_ofToken {t : Token} {v : Value} (h : v ∈ (ofToken t).values) :
    v.kind ∈ literalKinds := by
  unfold ofToken at h
  split at h
  · obtain rfl : v = _ := by simpa [values] using h
    simp [Value.kind, literalKinds]
  · obtain rfl : v = _ := by simpa [values] using h
    exact kind_classify _

theorem Spelled.kind_of_mem (h : Spelled es ts) : ∀ v ∈ valuesAll es, v.kind ∈ literalKinds := by
  induction h with
  | nil => simp [valuesAll]
  | atom _ _ ih =>
    rw [valuesAll, List.forall_mem_append]
    exact ⟨fun v => kind_of_mem_ofToken, ih⟩
  | list _ _ _ _ ihf ih =>
    rw [valuesAll, List.forall_mem_append]
    exact ⟨ihf, ih⟩

theorem literal_of_parse (h : parse p source = .ok e) :
    (∀ v ∈ e.values, v.kind ∈ literalKinds) ∧ e.nesting ≤ nestingLimit := by
  rw [parse_eq_ofTokens] at h
  obtain ⟨_, ⟨rfl, _⟩ | ⟨hs, hn⟩⟩ := spelled_of_ofTokens h
  · exact ⟨by simp [values], by simp [nesting]⟩
  · refine ⟨?_, hn⟩
    simpa [valuesAll] using hs.kind_of_mem

theorem isBundled_of_literals (h : ∀ v ∈ e.values, v.kind ∈ literalKinds) : e.IsBundled := by
  intro v hv
  have hk := h v hv
  cases v with
  | function => simp [Value.kind, literalKinds] at hk
  | _ => rfl

theorem evaluateAt_list_answers (hs : s.IsBundled) (hb : (list (head :: args)).IsBundled)
    (hd : depth ≠ nestingLimit)
    (hhead : (evaluateAt hosts s (depth + 1) head).IsProper) :
    Answers (args.map fun a => evaluateAt hosts (a.argumentScope s) (depth + 1) a)
      (evaluateAt hosts s depth (list (head :: args))) := by
  rw [evaluateAt_cons hosts s hd]
  apply call_answers hosts head
  · exact evaluateAt_isBundled hosts _ hs (isBundled_list.mp hb head List.mem_cons_self)
  · intro h
    simpa [EvalError.isOrdinary] using hhead.2.2 _ h

theorem evaluateAt_isProper (hosts : Hosts) (depth : Nat) (hs : s.IsBundled) (hb : s.BindsProper)
    (he : ∀ v ∈ e.values, v.kind ∈ literalKinds) (hn : depth + e.nesting ≤ nestingLimit) :
    (evaluateAt hosts s depth e).IsProper := by
  induction e generalizing s depth with
  | null => exact isProper_of_kind (by simp [evaluateAt, Value.kind])
  | atom raw v =>
    have hv := he v (by simp [values])
    cases v with
    | identifier name => exact hb.resolve name
    | _ => exact isProper_of_kind (by simp_all [evaluateAt, Value.kind, literalKinds])
  | list es ih =>
    have hd : depth ≠ nestingLimit := by
      rw [nesting] at hn
      omega
    cases es with
    | nil =>
      rw [evaluateAt, if_neg hd]
      exact isProper_of_kind (by simp [Value.kind])
    | cons head args =>
      -- head and arguments stand one list deeper, in this scope or in a child of it
      have hchild : ∀ a ∈ head :: args, ∀ t : Scope, t.IsBundled → t.BindsProper →
          (evaluateAt hosts t (depth + 1) a).IsProper := by
        intro a ha t ht htb
        have := nesting_lt_of_mem ha
        exact ih a ha (depth + 1) ht htb (fun v hv => he v (mem_values_list.mpr ⟨a, ha, hv⟩))
          (by omega)
      have hhead := hchild head List.mem_cons_self s hs hb
      apply (evaluateAt_list_answers hs (isBundled_of_literals he) hd hhead).isProper
      intro u hu
      obtain ⟨a, ha, rfl⟩ := List.mem_map.mp hu
      exact hchild a (List.mem_cons_of_mem _ ha) _ (hs.argumentScope a) (hb.argumentScope a)

theorem kind_evaluate_list (hs : s.IsBundled) (hb : s.BindsProper)
    (he : ∀ v ∈ (list (head :: args)).values, v.kind ∈ literalKinds)
    (hn : (list (head :: args)).nesting ≤ nestingLimit) :
    ((list (head :: args)).evaluate hosts s).kind ∈ datumKinds ++ [.error] := by
  have hhead : head ∈ head :: args := List.mem_cons_self
  have hlt := nesting_lt_of_mem hhead
  have hproper : (evaluateAt hosts s (0 + 1) head).IsProper :=
    evaluateAt_isProper hosts _ hs hb
      (fun v hv => he v (mem_values_list.mpr ⟨head, hhead, hv⟩)) (by omega)
  exact (evaluateAt_list_answers hs (isBundled_of_literals he) (by decide) hproper).kind_mem

/-- Of the errors that there are, a text reaches only those about names, counts, kinds that a
function does not take, and zero divisors; and a list that is not empty only computes data. -/
theorem kind_evaluate_of_parse (h : parse p source = .ok e) (hs : s.IsBundled)
    (hb : s.BindsProper) :
    (e.evaluate hosts s).kind ≠ .unknown ∧ (e.evaluate hosts s).kind ≠ .identifier ∧
      (∀ head args, e = list (head :: args) →
        (e.evaluate hosts s).kind ∈ [Kind.bool, Kind.int, Kind.float, Kind.string, Kind.error]) ∧
      ∀ err, e.evaluate hosts s = .error err → err.isOrdinary = true := by
  obtain ⟨hl, hn⟩ := literal_of_parse h
  obtain ⟨hu, hi, ho⟩ := evaluateAt_isProper hosts 0 hs hb hl (by omega)
  refine ⟨hu, hi, ?_, ho⟩
  rintro head args rfl
  exact kind_evaluate_list hs hb hl hn

def nullScope : Scope := (Scope.root.bind "times" (.function ⟨"times", .mul⟩)).bind "x" .null

/-- A product with a factor that is no number, inside a text. -/
theorem kind_evaluate_of_parse_null :
    ∃ e, parse .joins "(concat (times 2 x))".toList = .ok e ∧ nullScope.IsBundled ∧
      nullScope.BindsProper ∧ (e.evaluate .none nullScope).kind ≠ .unknown ∧
      (e.evaluate .none nullScope).kind ≠ .identifier ∧
      (∀ head args, e = list (head :: args) → (e.evaluate .none nullScope).kind ∈
        [Kind.bool, Kind.int, Kind.float, Kind.string, Kind.error]) ∧
      ∀ err, e.evaluate .none nullScope = .error err → err.isOrdinary = true := by
  have h : parse .joins "(concat (times 2 x))".toList =
      .ok (list [named "concat", list [named "times", atom ['2'] (.int 2), named "x"]]) := by
    cbv
  have hs : nullScope.IsBundled := (Scope.root_isBundled.bind "times" rfl).bind "x" rfl
  have hb : nullScope.BindsProper :=
    (Scope.root_bindsProper.bind "times" (by decide)).bind "x" (by decide)
  exact ⟨_, h, hs, hb, kind_evaluate_of_parse h hs hb⟩

end Expr

end LispCalc
