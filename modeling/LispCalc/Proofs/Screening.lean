import LispCalc.Builtin.Run
import LispCalc.Proofs.Arguments

namespace LispCalc

def validKinds : List Kind := [.unknown, .null, .date, .bool, .float, .int, .string, .function]

/-- The kinds of value that the bundled functions compute. -/
def datumKinds : List Kind := [.bool, .int, .float, .string]

/-- The result of a call that looks at the kinds of all arguments before it counts them, and counts
them before it computes. -/
inductive Screened (acceptable : List Kind) (expected : Arity) (function : String)
    (args : List Value) (P : Value → Prop) : Value → Prop where
  | argument {e : EvalError} : ensureKinds acceptable [] function args = .error e →
      Screened acceptable expected function args P (.error e)
  | count : ensureKinds acceptable [] function args = .ok () →
      expected.allows args.length = false →
      Screened acceptable expected function args P (.error (.arity function expected))
  | computed {v : Value} : ensureKinds acceptable [] function args = .ok () →
      expected.allows args.length = true → P v → Screened acceptable expected function args P v

/-- Results of integers, or of floats where there is a float among the arguments. -/
def OfNumbers (args : List Value) (P Q : Value → Prop) (v : Value) : Prop :=
  if .float ∈ args.map Value.kind then Q v else P v

/-- What one operator makes of arguments that are coerced one by one before it is applied. It goes
from left to right and needs an argument to begin with. -/
inductive Folds {α : Type} (function : String) (coerce : Value → Except EvalError α)
    (op : α → α → α) (wrap : α → Value) (args : List Value) : Value → Prop where
  | empty : args = [] →
      Folds function coerce op wrap args (.error (.arity function (.atLeast 1)))
  | fold {x : α} {xs : List α} : args.map coerce = .ok x :: xs.map .ok →
      Folds function coerce op wrap args (wrap (xs.foldl op x))

def Maps {α : Type} (coerce : Value → Except EvalError α) (op : α → α) (wrap : α → Value)
    (args : List Value) (v : Value) : Prop :=
  ∃ x, args.map coerce = [.ok x] ∧ v = wrap (op x)

variable {acceptable : List Kind} {expected : Arity} {function : String} {v : Value}
  {args : List Value} {P Q : Value → Prop} {r : Except EvalError Value}

theorem kind_mem_of_ensureKinds (h : ensureKinds acceptable [] function args = .ok ())
    (hk : acceptable ≠ []) : ∀ v ∈ args, v.kind ∈ acceptable := by
  intro v hv
  obtain ⟨_, _, hm⟩ := ensureKind_eq_ok_iff.mp (ensureKinds_eq_ok_iff.mp h v hv)
  exact hm.resolve_left hk

theorem ensureAllValid_eq_validKinds (function : String) (args : List Value) :
    ensureAllValid args = ensureKinds validKinds [] function args := by
  rw [ensureAllValid_eq_ensureKinds function]
  induction args with
  | nil => rfl
  | cons v vs ih =>
    have hv : ensureKind [] [] function v = ensureKind validKinds [] function v := by
      cases v <;> rfl
    rw [ensureKinds, ensureKinds, ih, hv]

namespace Screened

theorem mono (h : Screened acceptable expected function args P v)
    (hPQ : ∀ u, expected.allows args.length = true → P u → Q u) :
    Screened acceptable expected function args Q v := by
  cases h with
  | argument hs => exact .argument hs
  | count hs hn => exact .count hs hn
  | computed hs hn hv => exact .computed hs hn (hPQ v hn hv)

theorem property (h : Screened acceptable expected function args P v)
    (hs : ensureKinds acceptable [] function args = .ok ())
    (hn : expected.allows args.length = true) : P v := by
  cases h with
  | argument hs' => simp [hs] at hs'
  | count _ hn' => simp [hn] at hn'
  | computed _ _ hv => exact hv

theorem rescan {acceptable' : List Kind} (h : Screened acceptable' expected function args P v)
    (hs' : ensureKinds acceptable' [] function args = .ok ())
    (hs : ensureKinds acceptable [] function args = .ok ()) :
    Screened acceptable expected function args P v := by
  cases h with
  | argument he => simp [hs'] at he
  | count _ hn => exact .count hs hn
  | computed _ hn hv => exact .computed hs hn hv

theorem of_scan
    (h : ensureKinds acceptable [] function args = .ok () →
      Screened acceptable expected function args P (.ofResult r)) :
    Screened acceptable expected function args P
      (.ofResult (ensureKinds acceptable [] function args >>= fun _ => r)) := by
  cases hs : ensureKinds acceptable [] function args with
  | error e => exact .argument hs
  | ok => exact h hs

theorem of_arity (hs : ensureKinds acceptable [] function args = .ok ())
    (h : expected.allows args.length = true → P (.ofResult r)) :
    Screened acceptable expected function args P
      (.ofResult (ensureArity args expected function >>= fun _ => r)) := by
  rw [ensureArity]
  split
  · rename_i hn
    exact .computed hs hn (h hn)
  · rename_i hn
    exact .count hs (by simpa using hn)

theorem of_numbers {r : NumberKind → Except EvalError Value}
    (h : ensureKinds numberKinds [] function args = .ok () →
      Screened numberKinds expected function args P (.ofResult (r (greatestKind .int args)))) :
    Screened numberKinds expected function args P
      (.ofResult (promotedKind args function >>= r)) := by
  -- the kind is that of the arguments, so it can be fixed before they are scanned
  have hscan : promotedKind args function >>= r =
      ensureKinds numberKinds [] function args >>= fun _ => r (greatestKind .int args) := by
    rw [promotedKind_eq]
    cases ensureKinds numberKinds [] function args <;> rfl
  rw [hscan]
  exact of_scan h

theorem of_promoted {r : NumberKind → Except EvalError Value}
    (hint : ensureKinds numberKinds [] function args = .ok () →
      (∀ v ∈ args, v.kind ∈ booleanKinds) →
      Screened numberKinds expected function args P (.ofResult (r .int)))
    (hfloat : ensureKinds numberKinds [] function args = .ok () →
      (∀ v ∈ args, v.kind ∈ numberKinds) →
      Screened numberKinds expected function args Q (.ofResult (r .float))) :
    Screened numberKinds expected function args (OfNumbers args P Q)
      (.ofResult (promotedKind args function >>= r)) := by
  refine of_numbers fun hs => ?_
  have hk := kind_mem_of_ensureKinds hs (by simp [numberKinds])
  rw [greatestKind_int]
  split
  · rename_i hf
    exact (hfloat hs hk).mono fun u _ hu => (if_pos hf).mpr hu
  · rename_i hf
    refine (hint hs fun v hv => ?_).mono fun u _ hu => (if_neg hf).mpr hu
    have hne : v.kind ≠ .float := fun h => hf (List.mem_map.mpr ⟨v, hv, h⟩)
    simpa [numberKinds, booleanKinds, hne] using hk v hv

end Screened

def Value.IsDatum (v : Value) : Prop := v.kind ∈ datumKinds

theorem isDatum_bool (b : Bool) : (Value.bool b).IsDatum := by
  simp [Value.IsDatum, Value.kind, datumKinds]

theorem isDatum_int (n : Int64) : (Value.int n).IsDatum := by
  simp [Value.IsDatum, Value.kind, datumKinds]

theorem isDatum_float (x : Float) : (Value.float x).IsDatum := by
  simp [Value.IsDatum, Value.kind, datumKinds]

theorem isDatum_string (s : String) : (Value.string s).IsDatum := by
  simp [Value.IsDatum, Value.kind, datumKinds]

theorem OfNumbers.isDatum (h : OfNumbers args P Q v) (hP : P v → v.IsDatum)
    (hQ : Q v → v.IsDatum) : v.IsDatum := by
  rw [OfNumbers] at h
  split at h
  · exact hQ h
  · exact hP h

section Coerced

variable {α : Type} {coerce : Value → Except EvalError α} {wrap : α → Value}

theorem folds_of_forall {op : α → α → α} (h : ∀ v ∈ args, ∃ x, coerce v = .ok x) :
    Folds function coerce op wrap args
      (.ofResult (args.mapM coerce >>= fun xs => (reduce function op xs).map wrap)) := by
  obtain ⟨xs, hmap, hxs⟩ := mapM_eq_ok h
  rw [hxs]
  cases xs with
  | nil => exact .empty (List.map_eq_nil_iff.mp hmap)
  | cons x xs => exact .fold hmap

theorem Folds.isDatum {op : α → α → α} (h : Folds function coerce op wrap args v)
    (hargs : args ≠ []) (hwrap : ∀ x, (wrap x).IsDatum) : v.IsDatum := by
  cases h with
  | empty hn => exact absurd hn hargs
  | fold => exact hwrap _

theorem Folds.eq {op : α → α → α} {x : α} {xs : List α} (h : Folds function coerce op wrap args v)
    (hmap : args.map coerce = .ok x :: xs.map .ok) : v = wrap (xs.foldl op x) := by
  cases h with
  | empty hn => simp [hn] at hmap
  | @fold y ys hmap' =>
    rw [hmap', List.cons.injEq, List.map_inj_right fun _ _ => Except.ok.inj] at hmap
    obtain ⟨hx, rfl⟩ := hmap
    rw [Except.ok.inj hx]

theorem Maps.isDatum {op : α → α} (h : Maps coerce op wrap args v)
    (hwrap : ∀ x, (wrap x).IsDatum) : v.IsDatum := by
  obtain ⟨x, _, rfl⟩ := h
  exact hwrap _

end Coerced

theorem ne_nil_of_allows (hzero : expected.allows 0 = false)
    (hn : expected.allows args.length = true) : args ≠ [] := by
  rintro rfl
  simp [hzero] at hn

theorem allows_exactly_one (h : ∀ v, args = [v] → False) :
    (Arity.exactly 1).allows args.length = false := by
  rw [Arity.allows, beq_eq_false_iff_ne]
  intro hl
  obtain ⟨v, hv⟩ := List.length_eq_one_iff.mp hl
  exact h v hv

theorem allows_exactly_two (h : ∀ v w, args = [v, w] → False) :
    (Arity.exactly 2).allows args.length = false := by
  rw [Arity.allows, beq_eq_false_iff_ne]
  intro hl
  match args, hl with
  | [v, w], _ => exact h v w rfl

theorem foldNumbers_folds (args : List Value) (expected : Arity) (function : String)
    (intOp : Int64 → Int64 → Int64) (floatOp : Float → Float → Float) :
    Screened numberKinds expected function args
      (OfNumbers args (Folds function Value.toInt intOp .int args)
        (Folds function Value.toFloat floatOp .float args))
      (foldNumbers args expected function intOp floatOp) := by
  refine .of_promoted (fun hs hk => ?_) fun hs hk => ?_ <;> refine .of_arity hs fun _ => ?_
  · exact folds_of_forall fun v hv => toInt_eq_ok (hk v hv)
  · exact folds_of_forall fun v hv => toFloat_eq_ok (hk v hv)

theorem foldNumbers_screened (args : List Value) (hzero : expected.allows 0 = false)
    (function : String) (intOp : Int64 → Int64 → Int64) (floatOp : Float → Float → Float) :
    Screened numberKinds expected function args Value.IsDatum
      (foldNumbers args expected function intOp floatOp) := by
  refine (foldNumbers_folds args expected function intOp floatOp).mono fun u hn hu => ?_
  have hargs := ne_nil_of_allows hzero hn
  exact hu.isDatum (·.isDatum hargs isDatum_int) (·.isDatum hargs isDatum_float)

theorem maps_of_forall {α : Type} (coerce : Value → Except EvalError α) (op : α → α)
    (wrap : α → Value) (args : List Value) :
    ensureKinds acceptable [] function args = .ok () → (∀ v ∈ args, ∃ x, coerce v = .ok x) →
      Screened acceptable (.exactly 1) function args (Maps coerce op wrap args)
        (.ofResult (match args with
          | [v] => (coerce v).map fun x => wrap (op x)
          | _ => .error (.arity function (.exactly 1)))) := by
  intro hs h
  split
  · rename_i v
    obtain ⟨x, hx⟩ := h v List.mem_cons_self
    rw [hx]
    exact .computed hs rfl ⟨x, by simp [hx], rfl⟩
  · rename_i hne
    exact .count hs (allows_exactly_one hne)

theorem unaryNumber_maps (args : List Value) (function : String) (intOp : Int64 → Int64)
    (floatOp : Float → Float) :
    Screened numberKinds (.exactly 1) function args
      (OfNumbers args (Maps Value.toInt intOp .int args) (Maps Value.toFloat floatOp .float args))
      (unaryNumber args function intOp floatOp) := by
  refine .of_promoted (fun hs hk => ?_) fun hs hk => ?_
  · exact maps_of_forall Value.toInt intOp .int args hs fun v hv => toInt_eq_ok (hk v hv)
  · exact maps_of_forall Value.toFloat floatOp .float args hs fun v hv => toFloat_eq_ok (hk v hv)

theorem unaryNumber_screened (args : List Value) (function : String) (intOp : Int64 → Int64)
    (floatOp : Float → Float) :
    Screened numberKinds (.exactly 1) function args Value.IsDatum
      (unaryNumber args function intOp floatOp) :=
  (unaryNumber_maps args function intOp floatOp).mono fun _ _ hu =>
    hu.isDatum (·.isDatum isDatum_int) (·.isDatum isDatum_float)

theorem binaryFloat_screened (args : List Value) (function : String)
    (op : Float → Float → Except EvalError Float) :
    Screened numberKinds (.exactly 2) function args
      (fun u => ∃ v w x y, args = [v, w] ∧ v.toFloat = .ok x ∧ w.toFloat = .ok y ∧
        u = .ofResult ((op x y).map .float))
      (binaryFloat args function op) := by
  refine .of_numbers fun hs => ?_
  have hk := kind_mem_of_ensureKinds hs (by simp [numberKinds])
  split
  · rename_i v w
    obtain ⟨x, hx⟩ := toFloat_eq_ok (hk v (by simp))
    obtain ⟨y, hy⟩ := toFloat_eq_ok (hk w (by simp))
    rw [hx, hy]
    exact .computed hs rfl ⟨v, w, x, y, rfl, hx, hy, rfl⟩
  · rename_i hne
    exact .count hs (allows_exactly_two hne)

theorem foldBools_folds (args : List Value) (expected : Arity) (function : String)
    (op : Bool → Bool → Bool) :
    Screened booleanKinds expected function args (Folds function Value.toBool op .bool args)
      (foldBools args expected function op) := by
  refine .of_scan fun hs => .of_arity hs fun _ => ?_
  have hk := kind_mem_of_ensureKinds hs (by simp [booleanKinds])
  exact folds_of_forall fun v hv => toBool_eq_ok (hk v hv)

theorem foldBools_screened (args : List Value) (hzero : expected.allows 0 = false)
    (function : String) (op : Bool → Bool → Bool) :
    Screened booleanKinds expected function args Value.IsDatum
      (foldBools args expected function op) :=
  (foldBools_folds args expected function op).mono fun _ hn hu =>
    hu.isDatum (ne_nil_of_allows hzero hn) isDatum_bool

theorem unaryBool_maps (args : List Value) (function : String) (op : Bool → Bool) :
    Screened booleanKinds (.exactly 1) function args (Maps Value.toBool op .bool args)
      (unaryBool args function op) := by
  refine .of_scan fun hs => ?_
  have hk := kind_mem_of_ensureKinds hs (by simp [booleanKinds])
  exact maps_of_forall Value.toBool op .bool args hs fun v hv => toBool_eq_ok (hk v hv)

theorem foldStrings_folds (args : List Value) (expected : Arity) (function : String)
    (op : String → String → String) :
    Screened validKinds expected function args
      (Folds function (fun v => .ok v.text) op .string args)
      (foldStrings args expected function op) := by
  rw [foldStrings, ensureAllValid_eq_validKinds function]
  refine .of_scan fun hs => .of_arity hs fun _ => ?_
  cases args with
  | nil => exact .empty rfl
  | cons v vs => exact .fold (by simp)

theorem foldStrings_screened (args : List Value) (hzero : expected.allows 0 = false)
    (function : String) (op : String → String → String) :
    Screened validKinds expected function args Value.IsDatum
      (foldStrings args expected function op) :=
  (foldStrings_folds args expected function op).mono fun _ hn hu =>
    hu.isDatum (ne_nil_of_allows hzero hn) isDatum_string

namespace Builtin

/-- The kinds of argument that a function takes. Functions of the embedding program see to theirs
themselves. -/
def kinds : Builtin → List Kind
  | add | sub | mul | div | pow => numberKinds
  | and | or | nand | nor | xor | xnor | not => booleanKinds
  | plus | concat | host _ => validKinds

def arity : Builtin → Arity
  | plus | add | mul | concat => .atLeast 1
  | sub => .oneOrTwo
  | div | pow | xor | xnor => .exactly 2
  | and | or | nand | nor => .atLeast 2
  | not => .exactly 1
  | host _ => .atLeast 0

/-- What comes of arguments of the right kinds and number: data, but for a division whatever that
comes to. -/
inductive Computes (b : Builtin) (args : List Value) : Value → Prop where
  | datum {u : Value} : b ≠ .div → u.IsDatum → Computes b args u
  | quotient {v w : Value} {x y : Float} : b = .div → args = [v, w] → v.toFloat = .ok x →
      w.toFloat = .ok y → Computes b args (.ofResult ((divide x y).map .float))

theorem isNumber_iff {v : Value} : isNumber v = true ↔ v.kind ∈ numberKinds := by
  cases v <;> simp [isNumber, Value.kind, numberKinds]

theorem all_isNumber_iff {args : List Value} :
    args.all isNumber = true ↔ ∀ v ∈ args, v.kind ∈ numberKinds := by
  simp [List.all_eq_true, isNumber_iff]

theorem runPlus_screened (args : List Value) :
    Screened validKinds (.atLeast 1) "+" args Value.IsDatum (runPlus args) := by
  rw [runPlus, ensureAllValid_eq_validKinds "+"]
  split
  · rename_i e he
    exact .argument he
  · rename_i hs
    split
    · rename_i hall
      have hnumbers : ensureKinds numberKinds [] "+" args = .ok () :=
        ensureKinds_of_kinds (by decide) "+" (all_isNumber_iff.mp hall)
      exact (foldNumbers_screened args rfl "+" _ _).rescan hnumbers hs
    · exact foldStrings_screened args rfl "+" _

theorem runSub_screened (args : List Value) :
    Screened numberKinds .oneOrTwo "sub" args Value.IsDatum (runSub args) := by
  rw [runSub]
  split
  · rename_i e he
    exact .argument (promotedKind_eq_error_iff.mp he)
  · rename_i k hk
    have hs : ensureKinds numberKinds [] "sub" args = .ok () := by
      rw [promotedKind_eq] at hk
      cases h : ensureKinds numberKinds [] "sub" args with
      | error e => simp [h, Except.map] at hk
      | ok => rfl
    split
    · rename_i hl
      refine .computed hs (by simp [Arity.allows, hl]) ?_
      exact (unaryNumber_screened args "sub" _ _).property hs (by simp [Arity.allows, hl])
    · rename_i hl
      refine .computed hs (by simp [Arity.allows, hl]) ?_
      exact (foldNumbers_screened args rfl "sub" _ _).property hs (by simp [Arity.allows, hl])
    · rename_i h1 h2
      exact .count hs (by simpa [Arity.allows] using ⟨h1, h2⟩)

theorem negate_screened (h : Screened acceptable expected function args Value.IsDatum v) :
    Screened acceptable expected function args Value.IsDatum (negate v) := by
  cases h with
  | argument hs => exact .argument hs
  | count hs hn => exact .count hs hn
  | computed hs hn hv =>
    refine .computed hs hn ?_
    cases v with
    | bool b => exact isDatum_bool _
    | _ => exact hv

/-- Every bundled function scans its arguments, counts them, and then computes. -/
theorem run_screened {b : Builtin} (hosts : Hosts) (h : b.isBundled = true) (args : List Value) :
    Screened b.kinds b.arity b.name args (b.Computes args) (b.run hosts args) := by
  cases b with
  | plus => exact (runPlus_screened args).mono fun _ _ => .datum nofun
  | sub => exact (runSub_screened args).mono fun _ _ => .datum nofun
  | add | mul => exact (foldNumbers_screened args rfl _ _ _).mono fun _ _ => .datum nofun
  | div =>
    refine (binaryFloat_screened args _ _).mono ?_
    rintro u _ ⟨v, w, x, y, hargs, hx, hy, rfl⟩
    exact .quotient rfl hargs hx hy
  | pow =>
    refine (binaryFloat_screened args _ _).mono ?_
    rintro u _ ⟨v, w, x, y, _, _, _, rfl⟩
    exact .datum nofun (isDatum_float _)
  | and | or | xor | xnor =>
    exact (foldBools_screened args rfl _ _).mono fun _ _ => .datum nofun
  | nand | nor =>
    exact (negate_screened (foldBools_screened args rfl _ _)).mono fun _ _ => .datum nofun
  | not =>
    exact (unaryBool_maps args _ _).mono fun _ _ hu => .datum nofun (hu.isDatum isDatum_bool)
  | concat => exact (foldStrings_screened args rfl _ _).mono fun _ _ => .datum nofun
  | host => simp [isBundled] at h

end Builtin

end LispCalc
