import Mathlib
import LispCalc.Proofs.History
import LispCalc.Shell.Command

namespace LispCalc.Shell

/-- These definitions are all accepted, and this is what they define. -/
def Defines (p : SlashPolicy) (ds : List (List Char)) (xs : List Definition) : Prop :=
  List.Forall₂ (fun d x => Definition.parse p d = .ok x) ds xs

/-- How a command ends that evaluates one text behind some definitions: its exit code, and what it
writes to the standard output and to the standard error. -/
inductive OneShot (p : SlashPolicy) (ds : List (List Char)) (text : List Char) :
    Outcome → Prop where
  | rejected {before after : List (List Char)} {d : List Char} {xs : List Definition}
      {e : DefinitionError} : ds = before ++ d :: after → Defines p before xs →
      Definition.parse p d = .error e →
      OneShot p ds text ⟨1, "", "Error: " ++ e.message ++ "\n"⟩
  | unreadable {xs : List Definition} {e : ParseError} : Defines p ds xs →
      Expr.parse p text = .error e →
      OneShot p ds text ⟨1, "", "Error: " ++ e.message ++ "\n"⟩
  | failed {xs : List Definition} {e : EvalError} : Defines p ds xs →
      Session.eval ⟨p, Scope.root.bindAll xs⟩ text = .ok (.error e) →
      OneShot p ds text ⟨1, "", e.message ++ "\n" ++ "Error: evaluation failed\n"⟩
  | printed {xs : List Definition} {v : Value} : Defines p ds xs →
      Session.eval ⟨p, Scope.root.bindAll xs⟩ text = .ok v → v.isError = false →
      OneShot p ds text ⟨0, v.text ++ "\n", ""⟩

variable {p : SlashPolicy} {scope : Scope} {ds : List (List Char)} {d text : List Char}
  {xs : List Definition} {e : DefinitionError} {r : Outcome}

theorem defineAll_cons_of_ok {x : Definition} (h : Definition.parse p d = .ok x)
    (ds : List (List Char)) :
    defineAll ⟨p, scope⟩ (d :: ds) = defineAll ⟨p, scope.bind x.name x.value⟩ ds := by
  rw [defineAll, Session.define, h]
  rfl

theorem defineAll_cons_of_error (h : Definition.parse p d = .error e) (ds : List (List Char)) :
    defineAll ⟨p, scope⟩ (d :: ds) = .error e := by
  rw [defineAll, Session.define, h]
  rfl

theorem defineAll_append (h : Defines p ds xs) (rest : List (List Char)) :
    defineAll ⟨p, scope⟩ (ds ++ rest) = defineAll ⟨p, scope.bindAll xs⟩ rest := by
  induction h generalizing scope with
  | nil => rfl
  | cons hx _ ih =>
    rw [List.cons_append, defineAll_cons_of_ok hx, ih]
    rfl

theorem defineAll_of_defines (h : Defines p ds xs) :
    defineAll ⟨p, scope⟩ ds = .ok ⟨p, scope.bindAll xs⟩ := by
  rw [← List.append_nil ds, defineAll_append h]
  rfl

theorem Defines.exists_parse (h : Defines p ds xs) (hd : d ∈ ds) :
    ∃ x, Definition.parse p d = .ok x := by
  induction h with
  | nil => simp at hd
  | cons hx _ ih =>
    obtain rfl | hd := List.mem_cons.mp hd
    · exact ⟨_, hx⟩
    · exact ih hd

/-- Either all definitions are accepted or there is a first one that is not. -/
theorem defines_or_rejected (p : SlashPolicy) (ds : List (List Char)) :
    (∃ xs, Defines p ds xs) ∨
      ∃ before d after xs e, ds = before ++ d :: after ∧ Defines p before xs ∧
        Definition.parse p d = .error e := by
  induction ds with
  | nil => exact .inl ⟨[], .nil⟩
  | cons d ds ih =>
    cases hd : Definition.parse p d with
    | error e => exact .inr ⟨[], d, ds, [], e, rfl, .nil, hd⟩
    | ok x =>
      obtain ⟨xs, hxs⟩ | ⟨before, d', after, xs, e, rfl, hxs, he⟩ := ih
      · exact .inl ⟨x :: xs, .cons hd hxs⟩
      · exact .inr ⟨d :: before, d', after, x :: xs, e, rfl, .cons hd hxs, he⟩

theorem report_of_not_isError {v : Value} (h : v.isError = false) :
    report v = .toOut v.text := by
  cases v with
  | error => simp [Value.isError] at h
  | _ => rfl

theorem runOptions_of_defines (h : Defines p ds xs) (text input : List Char) :
    runOptions ⟨p, false, some text, ds⟩ input =
      evalOnce ⟨p, Scope.root.bindAll xs⟩ text := by
  have hall : defineAll (.start p) ds = .ok ⟨p, Scope.root.bindAll xs⟩ :=
    defineAll_of_defines h
  rw [runOptions, hall]

theorem OneShot.runOptions_eq (h : OneShot p ds text r) (input : List Char) :
    runOptions ⟨p, false, some text, ds⟩ input = r := by
  cases h with
  | @rejected before after d xs e hds hxs he =>
    have hall : defineAll (.start p) ds = .error e := by
      rw [hds, Session.start, defineAll_append hxs]
      exact defineAll_cons_of_error he after
    rw [runOptions, hall]
    rfl
  | unreadable hxs he =>
    rw [runOptions_of_defines hxs, evalOnce, Session.eval_eq, he]
    rfl
  | failed hxs he =>
    rw [runOptions_of_defines hxs, evalOnce, he]
    rfl
  | printed hxs hv hn =>
    rw [runOptions_of_defines hxs, evalOnce, hv]
    simp only [hn, report_of_not_isError hn]
    rfl

theorem exists_oneShot (p : SlashPolicy) (ds : List (List Char)) (text : List Char) :
    ∃ r, OneShot p ds text r := by
  obtain ⟨xs, hxs⟩ | ⟨before, d, after, xs, e, hds, hxs, he⟩ := defines_or_rejected p ds
  · cases hparse : Expr.parse p text with
    | error e => exact ⟨_, .unreadable hxs hparse⟩
    | ok e =>
      have heval : Session.eval ⟨p, Scope.root.bindAll xs⟩ text =
          .ok (e.evaluate .none (Scope.root.bindAll xs)) := by
        rw [Session.eval_eq, hparse]
        rfl
      cases hv : (e.evaluate .none (Scope.root.bindAll xs)).isError with
      | false => exact ⟨_, .printed hxs heval hv⟩
      | true =>
        generalize e.evaluate .none (Scope.root.bindAll xs) = v at heval hv
        cases v with
        | error e => exact ⟨_, .failed hxs heval⟩
        | _ => simp [Value.isError] at hv
  · exact ⟨_, .rejected hds hxs he⟩

namespace Options

/-- A command line with some definitions and a text, each attached to the option that it is for. -/
def commandLine (p : SlashPolicy) (ds : List (List Char)) (text : List Char) : List String :=
  (match p with
    | .joins => []
    | .separates => ["--slash-separator"]) ++
    (ds.map fun d => "--define=" ++ String.ofList d) ++ ["--eval=" ++ String.ofList text]

theorem read_define (o : Options) (d : List Char) (args : List (List Char)) :
    read o (("--define=" ++ String.ofList d).toList :: args) = read (o.addDefinition d) args := by
  have harg : ("--define=" ++ String.ofList d).toList = "--define=".toList ++ d := by simp
  rw [harg]
  rfl

theorem read_eval (o : Options) (text : List Char) (args : List (List Char)) :
    read o (("--eval=" ++ String.ofList text).toList :: args) =
      (o.setExpression text).bind fun o => read o args := by
  have harg : ("--eval=" ++ String.ofList text).toList = "--eval=".toList ++ text := by simp
  rw [harg]
  rfl

theorem read_separator (args : List (List Char)) :
    read initial ("--slash-separator".toList :: args) =
      read { initial with policy := .separates } args := by
  rw [read.eq_def]
  dsimp only
  rw [if_neg (by decide), if_neg (by decide), if_pos (by decide)]
  rfl

theorem read_defines (o : Options) (ds args : List (List Char)) :
    read o ((ds.map fun d => ("--define=" ++ String.ofList d).toList) ++ args) =
      read { o with definitions := o.definitions ++ ds } args := by
  induction ds generalizing o with
  | nil => simp
  | cons d ds ih =>
    rw [List.map_cons, List.cons_append, read_define, ih, addDefinition, List.append_assoc,
      List.singleton_append]

theorem ofArgs?_commandLine (p : SlashPolicy) (ds : List (List Char)) (text : List Char) :
    ofArgs? (commandLine p ds text) = some ⟨p, false, some text, ds⟩ := by
  have hrest (p : SlashPolicy) :
      read ⟨p, false, none, []⟩ ((ds.map fun d => ("--define=" ++ String.ofList d).toList) ++
        [("--eval=" ++ String.ofList text).toList]) = some ⟨p, false, some text, ds⟩ := by
    rw [read_defines, read_eval]
    rfl
  unfold ofArgs? commandLine
  rw [List.map_append, List.map_append, List.map_map, List.append_assoc]
  cases p with
  | joins => exact hrest .joins
  | separates => exact (read_separator _).trans (hrest .separates)

end Options

theorem OneShot.exit_cases (h : OneShot p ds text r) :
    r.exit = 0 ∧ r.output.err = "" ∨
      r.exit = 1 ∧ r.output.out = "" ∧ r.output.err ≠ "" := by
  cases h with
  | rejected | unreadable | failed => exact .inr ⟨rfl, rfl, by simp⟩
  | printed => exact .inl ⟨rfl, rfl⟩

theorem OneShot.of_rejected {text' : List Char} (h : OneShot p ds text r) (hd : d ∈ ds)
    (he : Definition.parse p d = .error e) : OneShot p ds text' r := by
  have hnone {xs : List Definition} (hxs : Defines p ds xs) : False := by
    obtain ⟨x, hx⟩ := hxs.exists_parse hd
    simp [he] at hx
  cases h with
  | rejected hds hxs he => exact .rejected hds hxs he
  | unreadable hxs | failed hxs | printed hxs => exact (hnone hxs).elim

/-- A command line with one text to evaluate ends in exactly one of four ways, and with nothing on
the standard output unless it succeeds. There is such a command line for all definitions and every
text. A definition that is rejected keeps the text from being evaluated. -/
theorem run_eq_iff_oneShot (p : SlashPolicy) (ds : List (List Char)) (text : List Char) :
    Options.ofArgs? (Options.commandLine p ds text) = some ⟨p, false, some text, ds⟩ ∧
    (∀ args input, Options.ofArgs? args = some ⟨p, false, some text, ds⟩ →
      ∀ r, run args input = r ↔ OneShot p ds text r) ∧
    (∀ r, OneShot p ds text r → r.exit = 0 ∧ r.output.err = "" ∨
      r.exit = 1 ∧ r.output.out = "" ∧ r.output.err ≠ "") ∧
    ∀ d ∈ ds, ∀ e, Definition.parse p d = .error e →
      ∀ text' args args' input input', Options.ofArgs? args = some ⟨p, false, some text, ds⟩ →
        Options.ofArgs? args' = some ⟨p, false, some text', ds⟩ →
        run args input = run args' input' := by
  have hrun (text : List Char) (args : List String) (input : String)
      (h : Options.ofArgs? args = some ⟨p, false, some text, ds⟩) (r : Outcome) :
      run args input = r ↔ OneShot p ds text r := by
    obtain ⟨r', hr'⟩ := exists_oneShot p ds text
    have heq (r : Outcome) (hr : OneShot p ds text r) : run args input = r := by
      simp only [run, h, hr.runOptions_eq]
    constructor
    · rintro rfl
      rwa [heq r' hr']
    · exact heq r
  refine ⟨Options.ofArgs?_commandLine p ds text, hrun text, fun r => OneShot.exit_cases, ?_⟩
  intro d hd e he text' args args' input input' h h'
  rw [hrun text args input h]
  exact ((hrun text' args' input' h' _).mp rfl).of_rejected hd he

/-- A value behind one definition, and the second of two definitions without an equals sign, which
keeps a text from being evaluated that would fail in another way. -/
theorem run_eq_iff_oneShot_secondRejected :
    run ["-e", "(* n 2)", "--define", "n=5"] "" = ⟨0, "10\n", ""⟩ ∧
      run ["--define=n=5", "--define", "m", "-e", "(* n 2)"] "" =
        ⟨1, "", "Error: definition \"m\" is not NAME=LITERAL\n"⟩ ∧
      run ["--define=n=5", "--define", "m", "-e", "(* n 2)"] "" =
        run ["--eval=(", "--define", "n=5", "--define=m"] "" := by
  have hn : Defines .joins ["n=5".toList] [⟨"n", .int 5⟩] := .cons (by cbv) .nil
  have hm : Definition.parse .joins "m".toList = .error (.noEquals "m".toList) := rfl
  have hmessage : "Error: " ++ (DefinitionError.noEquals "m".toList).message ++ "\n" =
      "Error: definition \"m\" is not NAME=LITERAL\n" := rfl
  have heval : Session.eval ⟨.joins, Scope.root.bindAll [⟨"n", .int 5⟩]⟩ "(* n 2)".toList =
      .ok (.int 10) := by
    cbv
  have htext : (Value.int 10).text ++ "\n" = "10\n" := by cbv
  have hprinted := OneShot.printed hn heval rfl
  have hrejected : OneShot .joins ["n=5".toList, "m".toList] "(* n 2)".toList
      ⟨1, "", "Error: " ++ (DefinitionError.noEquals "m".toList).message ++ "\n"⟩ :=
    .rejected (by rfl) hn hm
  rw [htext] at hprinted
  rw [hmessage] at hrejected
  have hfirst : Options.ofArgs? ["-e", "(* n 2)", "--define", "n=5"] =
      some ⟨.joins, false, some "(* n 2)".toList, ["n=5".toList]⟩ := rfl
  have hsecond : Options.ofArgs? ["--define=n=5", "--define", "m", "-e", "(* n 2)"] =
      some ⟨.joins, false, some "(* n 2)".toList, ["n=5".toList, "m".toList]⟩ := rfl
  have hthird : Options.ofArgs? ["--eval=(", "--define", "n=5", "--define=m"] =
      some ⟨.joins, false, some "(".toList, ["n=5".toList, "m".toList]⟩ := rfl
  obtain ⟨_, hone, _⟩ := run_eq_iff_oneShot .joins ["n=5".toList] "(* n 2)".toList
  obtain ⟨_, htwo, _, hsame⟩ :=
    run_eq_iff_oneShot .joins ["n=5".toList, "m".toList] "(* n 2)".toList
  refine ⟨?_, ?_, ?_⟩
  · exact (hone _ "" hfirst _).mpr hprinted
  · exact (htwo _ "" hsecond _).mpr hrejected
  · exact hsame "m".toList (by simp) _ hm "(".toList _ _ "" "" hsecond hthird

end LispCalc.Shell
