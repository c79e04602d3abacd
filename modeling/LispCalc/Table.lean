namespace LispCalc

/-- Entries kept under names, each name at most once. -/
structure Table (α : Type) where
  entries : List (String × α)

namespace Table

variable {α : Type}

def empty : Table α := ⟨[]⟩

def get? (t : Table α) (name : String) : Option α := t.entries.lookup name

def erase (t : Table α) (name : String) : Table α := ⟨t.entries.filter (·.1 != name)⟩

def insert (t : Table α) (name : String) (a : α) : Table α := ⟨(name, a) :: (t.erase name).entries⟩

def names (t : Table α) : List String := (t.entries.map (·.1)).mergeSort (fun a b => !(b < a))

@[simp] theorem get?_empty (name : String) : (empty : Table α).get? name = none := rfl

theorem get?_erase (t : Table α) (name n : String) :
    (t.erase name).get? n = if n = name then none else t.get? n := by
  obtain ⟨entries⟩ := t
  simp only [get?, erase]
  induction entries with
  | nil => simp
  | cons e entries ih =>
    obtain ⟨k, a⟩ := e
    by_cases hk : k = name
    · subst hk
      by_cases hn : n = k
      · simpa [hn] using ih
      · have hb : (n == k) = false := by simpa using hn
        simpa [hn, hb, List.lookup_cons] using ih
    · by_cases hnk : n = k
      · subst hnk
        simp [hk]
      · have hb : (n == k) = false := by simpa using hnk
        simpa [hk, hb, List.lookup_cons] using ih

theorem get?_insert (t : Table α) (name n : String) (a : α) :
    (t.insert name a).get? n = if n = name then some a else t.get? n := by
  by_cases h : n = name
  · subst h
    simp [get?, insert]
  · have hb : (n == name) = false := by simpa using h
    have he := get?_erase t name n
    simp only [get?, h, if_false] at he
    simp [get?, insert, List.lookup_cons, hb, h, he]

theorem mem_of_get?_eq_some {t : Table α} {name : String} {a : α} (h : t.get? name = some a) :
    (name, a) ∈ t.entries := by
  obtain ⟨before, after, he, _⟩ := List.lookup_eq_some_iff.mp h
  simp [he]

theorem erase_insert {t : Table α} {name : String} (h : t.get? name = none) (a : α) :
    (t.insert name a).erase name = t := by
  have hne : ∀ f ∈ t.entries, (f.1 != name) = true := by
    intro f hf
    rw [bne_comm]
    exact List.lookup_eq_none_iff.mp h f hf
  have hall : t.entries.filter (·.1 != name) = t.entries := List.filter_eq_self.mpr hne
  simp [insert, erase, hall]

/-- Of several entries for a name the last one that is put in stays. -/
theorem get?_foldl_insert (fs : List (String × α)) (t : Table α) (name : String) :
    (fs.foldl (fun t f => t.insert f.1 f.2) t).get? name =
      (fs.reverse.lookup name).or (t.get? name) := by
  induction fs generalizing t with
  | nil => rfl
  | cons f fs ih =>
    rw [List.foldl_cons, ih, get?_insert, List.reverse_cons, List.lookup_append, Option.or_assoc,
      List.lookup_cons]
    by_cases hf : name = f.1
    · simp [hf]
    · have hb : (name == f.1) = false := by simpa using hf
      simp [hf, hb]

end Table

end LispCalc
