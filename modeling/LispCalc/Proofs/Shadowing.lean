import LispCalc.Proofs.Substitution

namespace LispCalc

namespace Scope

inductive Change where
  | bind (name : String) (v : Value)
  | unbind (name : String)
  | define (name : String) (b : Builtin)
  | register (l : Library)
  /-- Registers a library of the embedding program, known by the functions that it brings along. -/
  | registerHost (fs : List (String × Builtin))

namespace Change

def setsSymbol (name : String) : Change → Bool
  | bind n _ | unbind n => n == name
  | _ => false

def functions : Change → List (String × Builtin)
  | define name b => [(name, b)]
  | register l => l.functions
  | registerHost fs => fs
  | _ => []

end Change

inductive Move where
  /-- Enters a fresh scope that has some functions. -/
  | push (functions : Table Builtin)
  /-- Goes back to the scope around this one. The outermost scope stays. -/
  | pop
  | change (c : Change)

def change (s : Scope) : Change → Scope
  | .bind name v => s.bind name v
  | .unbind name => (s.unbind name).2
  | .define name b => s.define name b
  | .register l => s.register l
  | .registerHost fs =>
    { s with current := { s.current with
        functions := fs.foldl (fun t f => t.insert f.1 f.2) s.current.functions } }

def move (s : Scope) : Move → Scope
  | .push t => s.enter (.ofFunctions t)
  | .pop => s.leave?.getD s
  | .change c => s.change c

def after (s : Scope) (ms : List Move) : Scope := ms.foldl move s

theorem functions_change (s : Scope) (c : Change) : (s.change c).current.functions =
    c.functions.foldl (fun t f => t.insert f.1 f.2) s.current.functions := by
  cases c <;> rfl

theorem outer_change (s : Scope) (c : Change) : (s.change c).outer = s.outer := by
  cases c <;> rfl

/-- What has happened to a scope since it was entered. -/
structure Level where
  functions : Table Builtin
  /-- The changes that were made while it was the current scope, the first one first. -/
  changes : List Change

namespace Level

def add (l : Level) (c : Change) : Level := { l with changes := l.changes ++ [c] }

/-- The value that a name was bound to last, unless it was unbound since. -/
def symbol? (l : Level) (name : String) : Option Value :=
  match (l.changes.filter (Change.setsSymbol name)).getLast? with
  | some (.bind _ v) => some v
  | _ => none

/-- The function that a name was given last, at the latest when the scope was entered. -/
def function? (l : Level) (name : String) : Option Builtin :=
  ((l.changes.flatMap Change.functions).reverse.lookup name).or (l.functions.get? name)

def answer? (l : Level) (name : String) : Option Value :=
  (l.symbol? name).or ((l.function? name).map fun b => .function ⟨name, b⟩)

def move : List Level → Move → List Level
  | ls, .push t => ⟨t, []⟩ :: ls
  | _ :: l :: ls, .pop => l :: ls
  | l :: ls, .change c => l.add c :: ls
  | ls, _ => ls

/-- The scopes that a history has entered and not left, the nearest one first. -/
def live (functions : Table Builtin) (ms : List Move) : List Level :=
  ms.foldl move [⟨functions, []⟩]

structure Describes (l : Level) (f : Frame) : Prop where
  symbols : ∀ name, f.symbols.get? name = l.symbol? name
  functions : ∀ name, f.functions.get? name = l.function? name

variable {l : Level} {ls : List Level} {s : Scope} {f : Frame} {c : Change} {name : String}
  {v : Value}

theorem symbol?_add (l : Level) (c : Change) (name : String) :
    (l.add c).symbol? name =
      match c with
      | .bind n v => if n = name then some v else l.symbol? name
      | .unbind n => if n = name then none else l.symbol? name
      | _ => l.symbol? name := by
  rw [symbol?, symbol?, add, List.filter_append, List.getLast?_append]
  cases c with
  | bind n _ | unbind n => by_cases hn : n = name <;> simp [Change.setsSymbol, hn]
  | define | register | registerHost => simp [Change.setsSymbol]

theorem function?_add (l : Level) (c : Change) (name : String) :
    (l.add c).function? name = (c.functions.reverse.lookup name).or (l.function? name) := by
  rw [function?, function?, add, List.flatMap_append, List.flatMap_singleton, List.reverse_append,
    List.lookup_append, Option.or_assoc]

theorem describes_ofFunctions (t : Table Builtin) : Describes ⟨t, []⟩ (.ofFunctions t) :=
  ⟨fun _ => rfl, fun _ => rfl⟩

theorem Describes.lookup?_eq (h : l.Describes f) (name : String) :
    f.lookup? name = l.answer? name := by
  rw [Frame.lookup?, answer?, h.symbols, h.functions]
  cases l.symbol? name <;> rfl

theorem Describes.change (h : l.Describes s.current) (c : Change) :
    (l.add c).Describes (s.change c).current := by
  constructor
  · intro name
    rw [symbol?_add, ← h.symbols]
    cases c with
    | bind n v => simp only [Scope.change, bind, Table.get?_insert, eq_comm]
    | unbind n => simp only [Scope.change, unbind, Table.get?_erase, eq_comm]
    | define | register | registerHost => rfl
  · intro name
    rw [function?_add, ← h.functions, functions_change, Table.get?_foldl_insert]

/-- The levels of a history go on to describe the chain of frames when a move is made. -/
theorem describes_move (h : List.Forall₂ Describes ls (s.current :: s.outer)) (m : Move) :
    List.Forall₂ Describes (move ls m) ((s.move m).current :: (s.move m).outer) := by
  obtain ⟨current, outer⟩ := s
  cases h with
  | cons hcurrent houter =>
    cases m with
    | push t => exact .cons (describes_ofFunctions t) (.cons hcurrent houter)
    | pop =>
      cases houter with
      | nil => exact .cons hcurrent .nil
      | cons hf hfs => exact .cons hf hfs
    | change c =>
      refine .cons (hcurrent.change (s := ⟨current, outer⟩) c) ?_
      rw [Scope.move, outer_change]
      exact houter

theorem describes_after (t : Table Builtin) (ms : List Move) :
    List.Forall₂ Describes (live t ms)
      (((ofFunctions t).after ms).current :: ((ofFunctions t).after ms).outer) := by
  induction ms using List.reverseRecOn with
  | nil => exact .cons (describes_ofFunctions t) .nil
  | append_singleton ms m ih =>
    rw [live, after, List.foldl_append, List.foldl_append]
    exact describes_move ih m

theorem lookup?_eq_findSome? (h : List.Forall₂ Describes ls (s.current :: s.outer))
    (name : String) : s.lookup? name = ls.findSome? (·.answer? name) := by
  rw [lookup?]
  generalize s.current :: s.outer = fs at h
  induction h with
  | nil => rfl
  | cons hf _ ih => rw [List.findSome?_cons, List.findSome?_cons, hf.lookup?_eq, ih]

theorem answer?_eq_some_iff : l.answer? name = some v ↔
    l.symbol? name = some v ∨
      l.symbol? name = none ∧ ∃ b, l.function? name = some b ∧ v = .function ⟨name, b⟩ := by
  rw [answer?, Option.or_eq_some_iff, Option.map_eq_some_iff]
  simp only [eq_comm]

theorem answer?_eq_none_iff : l.answer? name = none ↔
    l.symbol? name = none ∧ l.function? name = none := by
  rw [answer?, Option.or_eq_none_iff, Option.map_eq_none_iff]

end Level

def Change.Mentions (name : String) : Change → Prop
  | bind n _ | unbind n | define n _ => n = name
  | register l => ∃ f ∈ l.functions, f.1 = name
  | registerHost fs => ∃ f ∈ fs, f.1 = name

/-- The names that a move is about: to enter a scope those of its functions, to leave it those that
it knows. -/
def Move.Mentions (s : Scope) (name : String) : Move → Prop
  | push t => t.get? name ≠ none
  | pop => s.current.lookup? name ≠ none
  | change c => c.Mentions name

/-- What a name stands for in the scope of the chain that has `depth` scopes around it. -/
def seenFrom? (s : Scope) (depth : Nat) (name : String) : Option Value :=
  ((s.current :: s.outer).drop (s.depth - depth)).findSome? (·.lookup? name)

variable {s : Scope} {name : String} {c : Change} {m : Move} {d : Nat} {v : Value}

theorem Change.Mentions.of_mem {f : String × Builtin} (h : f ∈ c.functions) : c.Mentions f.1 := by
  cases c with
  | bind | unbind => cases h
  | define => rw [List.mem_singleton.mp h, Mentions]
  | register | registerHost => exact ⟨f, h, rfl⟩

theorem lookup?_current_change (h : ¬ c.Mentions name) :
    (s.change c).current.lookup? name = s.current.lookup? name := by
  have hnone : c.functions.reverse.lookup name = none := by
    refine List.lookup_eq_none_iff.mpr fun f hf => bne_iff_ne.mpr fun hname => h ?_
    exact hname ▸ .of_mem (List.mem_reverse.mp hf)
  have hsymbols : (s.change c).current.symbols.get? name = s.current.symbols.get? name := by
    cases c with
    | bind n v => rw [change, bind, Table.get?_insert, if_neg (Ne.symm h)]
    | unbind n => rw [change, unbind, Table.get?_erase, if_neg (Ne.symm h)]
    | define | register | registerHost => rfl
  rw [Frame.lookup?, Frame.lookup?, hsymbols, functions_change,
    Table.get?_foldl_insert, hnone, Option.none_or]

theorem lookup?_move (h : ¬ m.Mentions s name) : (s.move m).lookup? name = s.lookup? name := by
  obtain ⟨current, outer⟩ := s
  cases m with
  | push t =>
    have ht : t.get? name = none := not_not.mp h
    have hf : (Frame.ofFunctions t).lookup? name = none := by
      simp [Frame.lookup?, Frame.ofFunctions, ht]
    simp only [lookup?, move, enter, List.findSome?_cons, hf]
  | pop =>
    have hf : current.lookup? name = none := not_not.mp h
    cases outer with
    | nil => rfl
    | cons f fs => simp only [lookup?, move, leave?, Option.getD_some, List.findSome?_cons, hf]
  | change c =>
    rw [move, lookup?, outer_change]
    exact lookup?_congr_current (lookup?_current_change h) outer

theorem seenFrom?_move (h : d < max s.depth (s.move m).depth) (name : String) :
    (s.move m).seenFrom? d name = s.seenFrom? d name := by
  obtain ⟨current, outer⟩ := s
  cases m with
  | push t =>
    have hd : d ≤ outer.length := by simpa [depth, move, enter, Nat.lt_succ_iff] using h
    have hdrop : outer.length + 1 - d = outer.length - d + 1 := Nat.succ_sub hd
    simp only [seenFrom?, depth, move, enter, List.length_cons, hdrop, List.drop_succ_cons]
  | pop =>
    cases outer with
    | nil => rfl
    | cons f fs =>
      have hd : d ≤ fs.length := by simpa [depth, move, leave?, Nat.lt_succ_iff] using h
      have hdrop : fs.length + 1 - d = fs.length - d + 1 := Nat.succ_sub hd
      simp only [seenFrom?, depth, move, leave?, Option.getD_some, List.length_cons, hdrop,
        List.drop_succ_cons]
  | change c =>
    have hd : d < outer.length := by simpa [depth, move, outer_change] using h
    obtain ⟨k, hk⟩ : ∃ k, outer.length - d = k + 1 := ⟨outer.length - d - 1, by omega⟩
    simp only [seenFrom?, depth, move, outer_change, hk, List.drop_succ_cons]

theorem unbind_bind (h : s.current.symbols.get? name = none) (v : Value) :
    (s.bind name v).unbind name = (some v, s) := by
  simp only [unbind, bind, Table.get?_insert, if_true, Table.erase_insert h]

/-- The history of a chain of scopes settles every lookup. The nearest scope that has a symbol or a
function for a name decides: the value that the name was bound to last there, if it was not unbound
since, and else the function that it was given last. No move touches names that it is not about, nor
what any scope around the one it changes sees. To bind a name without a symbol and to unbind it
again gives the value back and leaves all as it was. -/
theorem lookup?_after_history (name : String) :
    (∀ t ms v, ((ofFunctions t).after ms).lookup? name = some v ↔
      ∃ inner l outer, Level.live t ms = inner ++ l :: outer ∧
        (∀ k ∈ inner, k.symbol? name = none ∧ k.function? name = none) ∧
        (l.symbol? name = some v ∨
          l.symbol? name = none ∧ ∃ b, l.function? name = some b ∧ v = .function ⟨name, b⟩)) ∧
    (∀ (s : Scope) (m : Move), ¬ m.Mentions s name →
      (s.move m).lookup? name = s.lookup? name) ∧
    (∀ (s : Scope) (m : Move) (d : Nat), d < max s.depth (s.move m).depth →
      (s.move m).seenFrom? d name = s.seenFrom? d name) ∧
    ∀ (s : Scope) (v : Value), s.current.symbols.get? name = none →
      (s.bind name v).unbind name = (some v, s) := by
  refine ⟨fun t ms v => ?_, fun s m => lookup?_move, fun s m d h => seenFrom?_move h name,
    fun s v h => unbind_bind h v⟩
  rw [Level.lookup?_eq_findSome? (Level.describes_after t ms), List.findSome?_eq_some_iff]
  simp only [Level.answer?_eq_some_iff, Level.answer?_eq_none_iff]
  constructor
  · rintro ⟨inner, l, outer, hlive, hl, hinner⟩
    exact ⟨inner, l, outer, hlive, hinner, hl⟩
  · rintro ⟨inner, l, outer, hlive, hinner, hl⟩
    exact ⟨inner, l, outer, hlive, hl, hinner⟩

def unboundInside : List Move :=
  [.change (.bind "x" (.int 1)), .push (Library.string.inject .empty),
    .change (.bind "x" (.int 2)), .change (.define "x" .or),
    .change (.registerHost [("y", .host "y"), ("x", .not)]), .change (.unbind "x")]

/-- The function wins over the binding around it. A scope with the default functions does not hide
it, and neither does the scope around lose its binding. -/
theorem lookup?_after_history_unboundInside :
    ((ofFunctions .empty).after unboundInside).lookup? "x" = some (.function ⟨"x", .not⟩) ∧
      (((ofFunctions .empty).after unboundInside).move (.push Library.defaultTable)).lookup? "x" =
        some (.function ⟨"x", .not⟩) ∧
      (((ofFunctions .empty).after unboundInside).move .pop).seenFrom? 0 "x" = some (.int 1) ∧
      (((ofFunctions .empty).after unboundInside).bind "x" .null).unbind "x" =
        (some .null, (ofFunctions .empty).after unboundInside) := by
  obtain ⟨hlookup, hmentions, hseen, hunbind⟩ := lookup?_after_history "x"
  have hx : ((ofFunctions .empty).after unboundInside).lookup? "x" =
      some (.function ⟨"x", .not⟩) := by
    refine (hlookup .empty unboundInside _).mpr ⟨[], _, _, rfl, by simp, .inr ⟨rfl, .not, ?_, rfl⟩⟩
    rfl
  refine ⟨hx, ?_, ?_, ?_⟩
  · rw [hmentions _ _ (by simp only [Move.Mentions]; decide), hx]
  · rw [hseen _ _ 0 (by decide)]
    rfl
  · exact hunbind _ .null rfl

end Scope

end LispCalc
