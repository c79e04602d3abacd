import LispCalc.Session

namespace LispCalc

/-- Definitions made one after another, a later one in place of an earlier one of the same name. -/
def Scope.bindAll (s : Scope) (ds : List Definition) : Scope :=
  ds.foldl (fun s d => s.bind d.name d.value) s

namespace Session

inductive Step where
  | define (text : List Char)
  | eval (text : List Char)

def Step.isDefine : Step → Bool
  | define _ => true
  | eval _ => false

inductive Answer where
  | defined (r : Except DefinitionError Unit)
  | evaluated (r : Except ParseError Value)

def Answer.isFailure : Answer → Bool
  | defined (.error _) | evaluated (.error _) => true
  | defined (.ok _) | evaluated (.ok _) => false

/-- The session behind an evaluation, which leaves its value in the root scope and takes it out
again. -/
def afterEval (s : Session) (text : List Char) : Session :=
  match Expr.parse s.policy text with
  | .ok e => { s with root := (e.evalInto .none s.root).takeValue.2 }
  | .error _ => s

def step (s : Session) : Step → Answer × Session
  | .define text =>
    match s.define text with
    | .ok t => (.defined (.ok ()), t)
    | .error e => (.defined (.error e), s)
  | .eval text => (.evaluated (s.eval text), s.afterEval text)

def after (s : Session) : List Step → Session
  | [] => s
  | x :: xs => after (s.step x).2 xs

def answers (s : Session) : List Step → List Answer
  | [] => []
  | x :: xs => (s.step x).1 :: answers (s.step x).2 xs

/-- The definition that a step makes, unless it is none or is rejected. -/
def Step.definition? (p : SlashPolicy) : Step → Option Definition
  | .define text => (Definition.parse p text).toOption
  | .eval _ => none

def accepted (p : SlashPolicy) (xs : List Step) : List Definition :=
  xs.filterMap (Step.definition? p)

def IsIdle (s : Session) : Prop := s.root.current.value = .unknown

variable {p : SlashPolicy} {s : Session} {text : List Char} {x : Step} {xs ys : List Step}

theorem afterEval_eq_self (h : s.IsIdle) (text : List Char) : s.afterEval text = s := by
  have hroot (e : Expr) : (e.evalInto .none s.root).takeValue.2 = s.root := by
    simp only [Expr.evalInto, Scope.takeValue, Scope.setValue]
    rw [← show s.root.current.value = .unknown from h]
  rw [afterEval]
  split
  · rw [hroot]
  · rfl

theorem step_snd (h : s.IsIdle) (x : Step) :
    (s.step x).2 = ⟨s.policy, s.root.bindAll (x.definition? s.policy).toList⟩ := by
  cases x with
  | define text =>
    rw [step, define, Step.definition?]
    cases Definition.parse s.policy text <;> rfl
  | eval text => exact afterEval_eq_self h text

theorem isIdle_step (h : s.IsIdle) (x : Step) : (s.step x).2.IsIdle := by
  rw [step_snd h]
  cases x.definition? s.policy with
  | none => exact h
  | some d => exact h

theorem isIdle_after (h : s.IsIdle) (xs : List Step) : (s.after xs).IsIdle := by
  induction xs generalizing s with
  | nil => exact h
  | cons x xs ih => exact ih (isIdle_step h x)

theorem after_eq (h : s.IsIdle) (xs : List Step) :
    s.after xs = ⟨s.policy, s.root.bindAll (accepted s.policy xs)⟩ := by
  induction xs generalizing s with
  | nil => rfl
  | cons x xs ih =>
    rw [after, ih (isIdle_step h x), step_snd h, accepted, accepted, List.filterMap_cons]
    cases x.definition? s.policy <;> rfl

theorem after_start (p : SlashPolicy) (xs : List Step) :
    (start p).after xs = ⟨p, Scope.root.bindAll (accepted p xs)⟩ :=
  after_eq (s := start p) rfl xs

theorem length_answers (s : Session) (xs : List Step) : (s.answers xs).length = xs.length := by
  induction xs generalizing s with
  | nil => rfl
  | cons x xs ih => rw [answers, List.length_cons, List.length_cons, ih]

theorem answers_append (s : Session) (xs ys : List Step) :
    s.answers (xs ++ ys) = s.answers xs ++ (s.after xs).answers ys := by
  induction xs generalizing s with
  | nil => rfl
  | cons x xs ih => rw [List.cons_append, answers, answers, after, ih, List.cons_append]

theorem getElem?_answers (s : Session) (xs : List Step) (x : Step) (ys : List Step) :
    (s.answers (xs ++ x :: ys))[xs.length]? = some ((s.after xs).step x).1 := by
  rw [answers_append, answers, ← length_answers s xs, List.getElem?_append_right (Nat.le_refl _),
    Nat.sub_self, List.getElem?_cons_zero]

theorem eraseIdx_answers (s : Session) (xs : List Step) (x : Step) (ys : List Step) :
    (s.answers (xs ++ x :: ys)).eraseIdx xs.length =
      s.answers xs ++ ((s.after xs).step x).2.answers ys := by
  rw [answers_append, answers, ← length_answers s xs,
    List.eraseIdx_append_of_length_le (Nat.le_refl _), Nat.sub_self, List.eraseIdx_cons_zero]

theorem step_snd_of_isFailure (h : s.IsIdle) (hx : (s.step x).1.isFailure = true) :
    (s.step x).2 = s := by
  cases x with
  | define text =>
    rw [step] at hx ⊢
    cases hd : s.define text with
    | ok t => simp [hd, Answer.isFailure] at hx
    | error e => rfl
  | eval text => exact afterEval_eq_self h text

theorem eval_eq (s : Session) (text : List Char) :
    s.eval text = (Expr.parse s.policy text).map fun e => e.evaluate .none s.root := rfl

theorem accepted_filter_isDefine (p : SlashPolicy) (xs : List Step) :
    accepted p (xs.filter Step.isDefine) = accepted p xs := by
  induction xs with
  | nil => rfl
  | cons x xs ih =>
    cases x with
    | define text =>
      rw [List.filter_cons_of_pos rfl, accepted, List.filterMap_cons, ← accepted, ih]
      rfl
    | eval text =>
      rw [List.filter_cons_of_neg (by simp [Step.isDefine]), ih]
      rfl

/-- The definitions that a session has accepted settle what it answers. A text is evaluated in a
fresh scope with those definitions. A step that fails could as well have been left out, and so could
an evaluation. Behind the same definition steps a step has the same answer, wherever evaluations
stand among them. -/
theorem answers_start (p : SlashPolicy) (xs ys : List Step) :
    (∀ text, ((start p).answers (xs ++ .eval text :: ys))[xs.length]? =
      some (.evaluated ((Expr.parse p text).map fun e =>
        e.evaluate .none (Scope.root.bindAll (accepted p xs))))) ∧
    (∀ x a, ((start p).answers (xs ++ x :: ys))[xs.length]? = some a → a.isFailure = true →
      ((start p).answers (xs ++ x :: ys)).eraseIdx xs.length = (start p).answers (xs ++ ys)) ∧
    (∀ text, ((start p).answers (xs ++ .eval text :: ys)).eraseIdx xs.length =
      (start p).answers (xs ++ ys)) ∧
    ∀ xs' ys' x, xs'.filter Step.isDefine = xs.filter Step.isDefine →
      ((start p).answers (xs' ++ x :: ys'))[xs'.length]? =
        ((start p).answers (xs ++ x :: ys))[xs.length]? := by
  have hstart : (start p).IsIdle := rfl
  have hidle := isIdle_after hstart xs
  have hafter := after_start p xs
  refine ⟨fun text => ?_, fun x a hx ha => ?_, fun text => ?_, fun xs' ys' x h => ?_⟩
  · rw [getElem?_answers, step, eval_eq, hafter]
  · rw [getElem?_answers, Option.some.injEq] at hx
    subst hx
    rw [eraseIdx_answers, answers_append, step_snd_of_isFailure hidle ha]
  · rw [eraseIdx_answers, answers_append, step, afterEval_eq_self hidle]
  · rw [getElem?_answers, getElem?_answers, hafter, after_start p xs',
      ← accepted_filter_isDefine p xs', h, accepted_filter_isDefine]

example :
    (start .joins).answers
      [.define "x=2".toList, .define "x=y".toList, .eval "(* x".toList, .eval "(* x 3)".toList] =
    [.defined (.ok ()), .defined (.error (.notLiteral "y" ['x'])),
      .evaluated (.error .unclosedList), .evaluated (.ok (.int 6))] := by
  cbv

end Session

end LispCalc
