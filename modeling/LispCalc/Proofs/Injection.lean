import Mathlib.Data.List.Induction
import Mathlib.Data.List.Nodup
import Mathlib.Tactic.Push
import LispCalc.Builtin.Library

namespace LispCalc

namespace Table

variable {α : Type} {t u : Table α} {name : String} {a : α}

/-- Whatever is looked up in one table is found in the other. -/
def Same (t u : Table α) : Prop := ∀ name, t.get? name = u.get? name

/-- No name has a second entry, which could not be looked up. -/
def IsUnique (t : Table α) : Prop := (t.entries.map (·.1)).Nodup

theorem IsUnique.insert (h : t.IsUnique) (name : String) (a : α) : (t.insert name a).IsUnique := by
  have herase : (t.erase name).IsUnique := h.sublist (List.filter_sublist.map _)
  refine List.nodup_cons.mpr ⟨?_, herase⟩
  simp [erase]

theorem lookup_eq_some_iff {fs : List (String × α)} (h : (fs.map (·.1)).Nodup) :
    fs.lookup name = some a ↔ (name, a) ∈ fs := by
  refine ⟨mem_of_get?_eq_some (t := ⟨fs⟩), fun hm => List.lookup_eq_some_iff.mpr ?_⟩
  obtain ⟨before, after, rfl⟩ := List.append_of_mem hm
  refine ⟨before, after, rfl, fun f hf => bne_iff_ne.mpr ?_⟩
  rw [List.map_append, List.nodup_append] at h
  exact (h.2.2 f.1 (List.mem_map_of_mem hf) name (by simp)).symm

theorem lookup_reverse {fs : List (String × α)} (h : (fs.map (·.1)).Nodup) (name : String) :
    fs.reverse.lookup name = fs.lookup name := by
  have hreverse : (fs.reverse.map (·.1)).Nodup := by
    rwa [List.map_reverse, List.nodup_reverse]
  ext a
  rw [lookup_eq_some_iff hreverse, lookup_eq_some_iff h, List.mem_reverse]

theorem IsUnique.get?_eq_some_iff (h : t.IsUnique) :
    t.get? name = some a ↔ (name, a) ∈ t.entries := lookup_eq_some_iff h

theorem Same.perm (h : t.Same u) (ht : t.IsUnique) (hu : u.IsUnique) :
    t.entries.Perm u.entries := by
  rw [List.perm_ext_iff_of_nodup (.of_map _ ht) (.of_map _ hu)]
  rintro ⟨name, a⟩
  rw [← ht.get?_eq_some_iff, ← hu.get?_eq_some_iff, h name]

end Table

namespace Library

variable {l : Library} {ls ls' : List Library} {t : Table Builtin} {name : String} {b : Builtin}

theorem nodup_names (l : Library) : (l.functions.map (·.1)).Nodup := by
  cases l <;> decide

theorem lookup_functions_eq_some_iff :
    l.functions.lookup name = some b ↔ (name, b) ∈ l.functions :=
  Table.lookup_eq_some_iff (nodup_names l)

theorem lookup_functions_eq_none_iff :
    l.functions.lookup name = none ↔ ∀ f ∈ l.functions, f.1 ≠ name := by
  simp only [List.lookup_eq_none_iff, bne_iff_ne, ne_comm]

theorem get?_inject (l : Library) (t : Table Builtin) (name : String) :
    (l.inject t).get? name = (l.functions.lookup name).or (t.get? name) := by
  rw [inject, Table.get?_foldl_insert, Table.lookup_reverse (nodup_names l)]

theorem injectAll_concat (t : Table Builtin) (ls : List Library) (l : Library) :
    injectAll t (ls ++ [l]) = l.inject (injectAll t ls) := by
  rw [injectAll, List.foldl_append]
  rfl

theorem get?_injectAll (t : Table Builtin) (ls : List Library) (name : String) :
    (injectAll t ls).get? name =
      (ls.filterMap (·.functions.lookup name)).getLast?.or (t.get? name) := by
  induction ls using List.reverseRecOn with
  | nil => rfl
  | append_singleton ls l ih =>
    rw [injectAll_concat, get?_inject, ih, List.filterMap_append, List.getLast?_append]
    cases h : l.functions.lookup name <;> simp [h]

theorem isUnique_inject (h : t.IsUnique) (l : Library) : (l.inject t).IsUnique := by
  rw [inject]
  generalize l.functions = fs
  induction fs generalizing t with
  | nil => exact h
  | cons f fs ih => exact ih (h.insert f.1 f.2)

theorem isUnique_injectAll (h : t.IsUnique) (ls : List Library) : (injectAll t ls).IsUnique := by
  induction ls generalizing t with
  | nil => exact h
  | cons l ls ih => exact ih (isUnique_inject h l)

def definesPlus : Library → Bool
  | addition | arithmetic => true
  | logical | string => false

theorem eq_of_shared_name {l l' : Library} :
    ∀ f ∈ l.functions, ∀ f' ∈ l'.functions, f.1 = f'.1 → f.1 ≠ "+" → l = l' := by
  cases l <;> cases l' <;> decide

theorem get?_injectAll_plus (t : Table Builtin) (ls : List Library) :
    (injectAll t ls).get? "+" =
      ((ls.filter definesPlus).getLast?.bind (·.functions.lookup "+")).or (t.get? "+") := by
  induction ls using List.reverseRecOn with
  | nil => rfl
  | append_singleton ls l ih =>
    rw [injectAll_concat, get?_inject, ih, List.filter_append, List.getLast?_append]
    cases l <;> rfl

/-- Every other name belongs to one library, whenever that was injected. -/
theorem get?_injectAll_of_mem (hl : l ∈ ls) (hb : (name, b) ∈ l.functions) (hn : name ≠ "+") :
    (injectAll t ls).get? name = some b := by
  have hlookup : l.functions.lookup name = some b := lookup_functions_eq_some_iff.mpr hb
  have hall : ∀ c ∈ ls.filterMap (·.functions.lookup name), c = b := by
    intro c hc
    obtain ⟨l', _, hc⟩ := List.mem_filterMap.mp hc
    have hshared := eq_of_shared_name _ hb _ (lookup_functions_eq_some_iff.mp hc) rfl hn
    rw [← hshared, hlookup] at hc
    exact (Option.some.inj hc).symm
  have hne : ls.filterMap (·.functions.lookup name) ≠ [] :=
    List.ne_nil_of_mem (List.mem_filterMap.mpr ⟨l, hl, hlookup⟩)
  rw [get?_injectAll, List.getLast?_eq_some_getLast hne, hall _ (List.getLast_mem hne),
    Option.some_or]

theorem get?_injectAll_of_ne (h : ∀ l ∈ ls, ∀ f ∈ l.functions, f.1 ≠ name) :
    (injectAll t ls).get? name = t.get? name := by
  have hnone : ls.filterMap (·.functions.lookup name) = [] :=
    List.filterMap_eq_nil_iff.mpr fun l hl => lookup_functions_eq_none_iff.mpr (h l hl)
  rw [get?_injectAll, hnone, List.getLast?_nil, Option.none_or]

theorem same_injectAll (hmem : ∀ l, l ∈ ls ↔ l ∈ ls')
    (hlast : (ls.filter definesPlus).getLast? = (ls'.filter definesPlus).getLast?)
    (t : Table Builtin) : (injectAll t ls).Same (injectAll t ls') := by
  intro name
  by_cases hn : name = "+"
  · rw [hn, get?_injectAll_plus, get?_injectAll_plus, hlast]
  by_cases h : ∃ l ∈ ls, ∃ f ∈ l.functions, f.1 = name
  · obtain ⟨l, hl, f, hf, rfl⟩ := h
    rw [get?_injectAll_of_mem hl hf hn, get?_injectAll_of_mem ((hmem l).mp hl) hf hn]
  · push Not at h
    rw [get?_injectAll_of_ne h, get?_injectAll_of_ne fun l hl => h l ((hmem l).mpr hl)]

/-- The order in which libraries are injected, and how often, makes no difference except for `+`:
that is what the last of addition and arithmetic makes it. Names of no such library keep what they
stood for. So the default functions add numbers with `+`, whatever table they are loaded into. -/
theorem injectAll_settles (t : Table Builtin) (ls : List Library) :
    (∀ l ∈ ls, ∀ f ∈ l.functions, f.1 ≠ "+" → (injectAll t ls).get? f.1 = some f.2) ∧
    (∀ l b, (ls.filter definesPlus).getLast? = some l → ("+", b) ∈ l.functions →
      (injectAll t ls).get? "+" = some b) ∧
    (∀ name, (∀ l ∈ ls, ∀ f ∈ l.functions, f.1 ≠ name) →
      (injectAll t ls).get? name = t.get? name) ∧
    (∀ ls', (∀ l, l ∈ ls ↔ l ∈ ls') →
      (ls.filter definesPlus).getLast? = (ls'.filter definesPlus).getLast? →
      (injectAll t ls).Same (injectAll t ls') ∧
      (t.IsUnique → (injectAll t ls).entries.Perm (injectAll t ls').entries)) ∧
    (injectAll (injectAll t ls) ls).Same (injectAll t ls) ∧
    (injectAll t all).get? "+" = some .add ∧ defaultTable.get? "+" = some .add := by
  refine ⟨fun l hl f hf hn => get?_injectAll_of_mem hl hf hn, fun l b hlast hb => ?_,
    fun name => get?_injectAll_of_ne, fun ls' hmem hlast => ?_, ?_, ?_, ?_⟩
  · rw [get?_injectAll_plus, hlast, Option.bind_some, lookup_functions_eq_some_iff.mpr hb,
      Option.some_or]
  · have hsame := same_injectAll hmem hlast t
    exact ⟨hsame, fun ht => hsame.perm (isUnique_injectAll ht ls) (isUnique_injectAll ht ls')⟩
  · have htwice : injectAll (injectAll t ls) ls = injectAll t (ls ++ ls) := by
      rw [injectAll, injectAll, injectAll, List.foldl_append]
    rw [htwice]
    apply same_injectAll
    · simp
    · rw [List.filter_append, List.getLast?_append, Option.or_self]
  · exact get?_injectAll_plus t all
  · exact get?_injectAll_plus .empty all

def hostTable : Table Builtin := ⟨[("+", .host "sum"), ("&&", .host "both")]⟩

/-- Addition comes behind arithmetic, and the name of a library that does not occur is left alone.
-/
theorem injectAll_settles_additionLast :
    (injectAll hostTable [string, arithmetic, addition]).get? "*" = some .mul ∧
      (injectAll hostTable [string, arithmetic, addition]).get? "+" = some .plus ∧
      (injectAll hostTable [string, arithmetic, addition]).get? "&&" = some (.host "both") ∧
      (injectAll hostTable [string, arithmetic, addition]).entries.Perm
        (injectAll hostTable [addition, arithmetic, arithmetic, string, addition]).entries := by
  obtain ⟨hnames, hplus, hothers, hsame, _⟩ :=
    injectAll_settles hostTable [string, arithmetic, addition]
  have hmem (l : Library) : l ∈ [string, arithmetic, addition] ↔
      l ∈ [addition, arithmetic, arithmetic, string, addition] := by
    cases l <;> decide
  refine ⟨?_, ?_, ?_, ?_⟩
  · exact hnames arithmetic (by decide) ("*", .mul) (by decide) (by decide)
  · exact hplus addition .plus rfl (by decide)
  · exact hothers "&&" (by decide)
  · exact (hsame _ hmem rfl).2 (by unfold Table.IsUnique; decide)

end Library

end LispCalc
