/-!
A table of values under distinct names. The laws say what a look-up finds after each change:
`find?_set`, `find?_erase`.
-/

namespace AsmLens

/-- Values under names, no name twice. -/
structure Table (α : Type) where
  entries : List (String × α)
  nodup : (entries.map Prod.fst).Nodup

namespace Table

variable {α : Type}

/-- The value under a name in a list of entries. -/
def findIn : List (String × α) → String → Option α
  | [], _ => none
  | (name, value) :: rest, key => if name = key then some value else findIn rest key

/-- The entries with the value under a name replaced, or added behind the others. -/
def setIn : List (String × α) → String → α → List (String × α)
  | [], key, value => [(key, value)]
  | (name, old) :: rest, key, value =>
      if name = key then (key, value) :: rest else (name, old) :: setIn rest key value

/-- The entries without the one under a name. -/
def eraseIn (entries : List (String × α)) (key : String) : List (String × α) :=
  entries.filter (·.1 ≠ key)

theorem mem_names_setIn {entries : List (String × α)} {key name : String} {value : α}
    (h : name ∈ (setIn entries key value).map Prod.fst) :
    name = key ∨ name ∈ entries.map Prod.fst := by
  induction entries with
  | nil => simpa [setIn] using h
  | cons entry rest ih =>
      obtain ⟨other, old⟩ := entry
      by_cases hk : other = key
      · subst hk
        simpa [setIn] using h
      · simp only [setIn, if_neg hk, List.map_cons, List.mem_cons] at h ⊢
        rcases h with h | h
        · exact .inr (.inl h)
        · rcases ih h with h | h
          · exact .inl h
          · exact .inr (.inr h)

theorem nodup_setIn {entries : List (String × α)} (key : String) (value : α)
    (h : (entries.map Prod.fst).Nodup) : ((setIn entries key value).map Prod.fst).Nodup := by
  induction entries with
  | nil => simp [setIn]
  | cons entry rest ih =>
      obtain ⟨other, old⟩ := entry
      simp only [List.map_cons, List.nodup_cons] at h
      by_cases hk : other = key
      · subst hk
        simpa [setIn] using h
      · simp only [setIn, if_neg hk, List.map_cons, List.nodup_cons]
        refine ⟨?_, ih h.2⟩
        intro hmem
        rcases mem_names_setIn hmem with hmem | hmem
        · exact hk hmem
        · exact h.1 hmem

/-- The table without entries. -/
def empty : Table α := ⟨[], by simp⟩

instance : Inhabited (Table α) := ⟨empty⟩

/-- The value under a name. -/
def find? (t : Table α) (key : String) : Option α := findIn t.entries key

/-- Whether there is a value under a name. -/
def contains (t : Table α) (key : String) : Bool := (t.find? key).isSome

/-- Puts a value under a name, in place of any that is there. -/
def set (t : Table α) (key : String) (value : α) : Table α :=
  ⟨setIn t.entries key value, nodup_setIn key value t.nodup⟩

/-- Takes the value away that is under a name. -/
def erase (t : Table α) (key : String) : Table α :=
  ⟨eraseIn t.entries key, t.nodup.sublist (List.filter_sublist.map _)⟩

/-- The number of names. -/
def size (t : Table α) : Nat := t.entries.length

/-- Whether there is no name. -/
def isEmpty (t : Table α) : Bool := t.entries.isEmpty

@[simp] theorem find?_empty (key : String) : (empty : Table α).find? key = none := rfl

theorem find?_set (t : Table α) (key : String) (value : α) (name : String) :
    (t.set key value).find? name = if key = name then some value else t.find? name := by
  obtain ⟨entries, nodup⟩ := t
  show findIn (setIn entries key value) name =
    if key = name then some value else findIn entries name
  clear nodup
  induction entries with
  | nil => simp [setIn, findIn]
  | cons entry rest ih =>
      obtain ⟨other, old⟩ := entry
      by_cases hk : other = key
      · subst hk
        by_cases hn : other = name <;> simp [setIn, findIn, hn]
      · by_cases hn : other = name
        · subst hn
          simp [setIn, findIn, hk, Ne.symm hk]
        · simp [setIn, findIn, hk, hn, ih]

theorem find?_erase (t : Table α) (key name : String) :
    (t.erase key).find? name = if key = name then none else t.find? name := by
  obtain ⟨entries, nodup⟩ := t
  show findIn (eraseIn entries key) name = if key = name then none else findIn entries name
  clear nodup
  induction entries with
  | nil => simp [eraseIn, findIn]
  | cons entry rest ih =>
      obtain ⟨other, old⟩ := entry
      simp only [eraseIn] at ih
      by_cases hk : other = key
      · subst hk
        by_cases hn : other = name
        · simpa [eraseIn, findIn, hn] using ih
        · simpa [eraseIn, findIn, hn] using ih
      · by_cases hn : other = name
        · subst hn
          simp [eraseIn, findIn, hk, Ne.symm hk]
        · simpa [eraseIn, findIn, hk, hn] using ih

theorem contains_set (t : Table α) (key : String) (value : α) (name : String) :
    (t.set key value).contains name = (key = name || t.contains name) := by
  by_cases h : key = name <;> simp [contains, find?_set, h]

theorem contains_erase (t : Table α) (key name : String) :
    (t.erase key).contains name = (key ≠ name && t.contains name) := by
  by_cases h : key = name <;> simp [contains, find?_erase, h]

end Table

end AsmLens
