/-!
# Tables

A table from names to values that keeps the order in which names first came. Setting a name that
is present replaces its value in place; a new name goes to the end.
-/
namespace Rulebook

/-- Names with their values, in order of first insertion. -/
abbrev Table (Item : Type) := List (String × Item)

namespace Table

variable {Item : Type}

/-- The value of a name. -/
def find? (name : String) : Table Item → Option Item
  | [] => none
  | (key, value) :: rest => if key = name then some value else find? name rest

/-- Sets a name: in place when it is present, at the end when it is new. -/
def set (name : String) (item : Item) : Table Item → Table Item
  | [] => [(name, item)]
  | (key, value) :: rest =>
    if key = name then (key, item) :: rest else (key, value) :: set name item rest

/-- The names in order. -/
def names (table : Table Item) : List String :=
  table.map (·.1)

/-- Sets pairs one after another. -/
def ofPairs (pairs : List (String × Item)) : Table Item :=
  pairs.foldl (fun table (name, item) => set name item table) []

/-- What was set is found. -/
theorem find?_set_self (name : String) (item : Item) (table : Table Item) :
    find? name (set name item table) = some item := by
  induction table with
  | nil => simp [set, find?]
  | cons entry rest ih =>
    simp only [set]
    split <;> simp_all [find?]

/-- Other names find what they found. -/
theorem find?_set_other {name other : String} (distinct : other ≠ name) (item : Item)
    (table : Table Item) : find? other (set name item table) = find? other table := by
  induction table with
  | nil => simp [set, find?, Ne.symm distinct]
  | cons entry rest ih =>
    simp only [set]
    split
    · next equal => simp [find?, equal, Ne.symm distinct]
    · simp [find?, ih]

theorem find?_eq_none_iff (name : String) (table : Table Item) :
    find? name table = none ↔ name ∉ names table := by
  induction table with
  | nil => simp [find?, names]
  | cons entry rest ih =>
    simp only [find?, names, List.map_cons, List.mem_cons, not_or] at *
    split
    next equal => simp [equal]
    next different => simp [ih, Ne.symm different]

theorem isSome_find?_iff (name : String) (table : Table Item) :
    (find? name table).isSome ↔ name ∈ names table := by
  rw [Option.isSome_iff_ne_none, Ne, find?_eq_none_iff, Classical.not_not]

theorem mem_of_find? {name : String} {item : Item} {table : Table Item}
    (found : Table.find? name table = some item) : (name, item) ∈ table := by
  induction table with
  | nil => cases found
  | cons entry rest ih =>
    rw [Table.find?] at found
    split at found
    next equal =>
      cases found
      exact equal ▸ List.mem_cons_self
    next => exact List.mem_cons_of_mem _ (ih found)

/-- Where no name occurs twice, the entry of a name is the one that is found. -/
theorem find?_of_mem {table : Table Item} (distinct : (names table).Nodup) {name : String}
    {item : Item} (member : (name, item) ∈ table) : find? name table = some item := by
  induction table with
  | nil => cases member
  | cons entry rest ih =>
    obtain ⟨new, distinctRest⟩ := List.nodup_cons.mp distinct
    obtain ⟨key, value⟩ := entry
    rw [find?]
    cases member with
    | head => exact if_pos rfl
    | tail _ later =>
      have present : name ∈ names rest := List.mem_map_of_mem later
      -- The name occurs behind this entry, so it is not the name of this one.
      have other : key ≠ name := fun same => new (same ▸ present)
      rw [if_neg other, ih distinctRest later]

/-- The first of two tables comes first. -/
theorem find?_append (name : String) (first second : Table Item) :
    find? name (first ++ second) = (find? name first).or (find? name second) := by
  induction first with
  | nil => rfl
  | cons entry rest ih =>
    obtain ⟨key, value⟩ := entry
    simp only [List.cons_append, find?]
    split
    next => rfl
    next => exact ih

/-- The names after setting one: the same if it was there, and with it at the end if not. -/
theorem names_set (name : String) (item : Item) (table : Table Item) :
    names (set name item table) =
      if name ∈ names table then names table else names table ++ [name] := by
  induction table with
  | nil => simp [set, names]
  | cons entry rest ih =>
    simp only [set, names] at *
    split
    · next equal => simp [equal]
    · next different =>
      simp only [List.map_cons, ih, List.mem_cons, Ne.symm different, false_or]
      split <;> simp_all

theorem not_mem_names_cons {name key : String} {item : Item} {rest : Table Item} :
    name ∉ names ((key, item) :: rest) ↔ name ≠ key ∧ name ∉ names rest := by
  simp [names]

/-- A name that is set for the first time goes to the end. -/
theorem set_of_not_mem {name : String} (item : Item) {table : Table Item}
    (new : name ∉ names table) : set name item table = table ++ [(name, item)] := by
  induction table with
  | nil => rfl
  | cons entry rest ih =>
    obtain ⟨other, newInRest⟩ := not_mem_names_cons.mp new
    rw [set, if_neg (Ne.symm other), ih newInRest, List.cons_append]

/-- A name is found at the first entry that has it. -/
theorem find?_append_cons {name : String} {front : Table Item} (new : name ∉ names front)
    (item : Item) (back : Table Item) :
    find? name (front ++ (name, item) :: back) = some item := by
  rw [find?_append, (find?_eq_none_iff name front).mpr new, Option.none_or, find?, if_pos rfl]

/-- What is found stands behind entries of other names. -/
theorem exists_append_cons_of_find? {name : String} {item : Item} {table : Table Item}
    (found : find? name table = some item) :
    ∃ front back, table = front ++ (name, item) :: back ∧ name ∉ names front := by
  induction table with
  | nil => cases found
  | cons entry rest ih =>
    obtain ⟨key, value⟩ := entry
    rw [find?] at found
    split at found
    next same =>
      cases found
      exact ⟨[], rest, by rw [same, List.nil_append], List.not_mem_nil⟩
    next different =>
      obtain ⟨front, back, split, new⟩ := ih found
      exact ⟨(key, value) :: front, back, by rw [split, List.cons_append],
        not_mem_names_cons.mpr ⟨Ne.symm different, new⟩⟩

/-- A name that is present is set in place. -/
theorem set_append_cons {name : String} {front : Table Item} (new : name ∉ names front)
    (old item : Item) (back : Table Item) :
    set name item (front ++ (name, old) :: back) = front ++ (name, item) :: back := by
  induction front with
  | nil => rw [List.nil_append, set, if_pos rfl, List.nil_append]
  | cons entry rest ih =>
    obtain ⟨other, newInRest⟩ := not_mem_names_cons.mp new
    rw [List.cons_append, set, if_neg (Ne.symm other), ih newInRest, List.cons_append]

/-- Setting two names in either order comes to the same, unless both are new. -/
theorem set_comm {name other : String} (distinct : name ≠ other) (item otherItem : Item)
    {table : Table Item} (present : name ∈ names table ∨ other ∈ names table) :
    set name item (set other otherItem table) = set other otherItem (set name item table) := by
  induction table with
  | nil => simp [names] at present
  | cons entry rest ih =>
    obtain ⟨key, value⟩ := entry
    by_cases isName : key = name
    · subst isName
      simp [set, distinct]
    · by_cases isOther : key = other
      · subst isOther
        simp [set, distinct.symm]
      · have presentInRest : name ∈ names rest ∨ other ∈ names rest := by
          simpa [names, Ne.symm isName, Ne.symm isOther] using present
        simp only [set, if_neg isName, if_neg isOther, ih presentInRest]

/-- Two new names come in the order in which they are set. -/
theorem set_perm_comm {name other : String} (distinct : name ≠ other) (item otherItem : Item)
    (table : Table Item) :
    (set name item (set other otherItem table)).Perm
      (set other otherItem (set name item table)) := by
  -- If one of the names is there already, only the other can come last.
  by_cases present : name ∈ names table ∨ other ∈ names table
  · rw [set_comm distinct item otherItem present]
  · obtain ⟨new, otherNew⟩ := not_or.mp present
    have newBehind : name ∉ names (table ++ [(other, otherItem)]) := by
      simpa [names, distinct] using new
    have otherNewBehind : other ∉ names (table ++ [(name, item)]) := by
      simpa [names, distinct.symm] using otherNew
    rw [set_of_not_mem otherItem otherNew, set_of_not_mem item new,
      set_of_not_mem item newBehind, set_of_not_mem otherItem otherNewBehind,
      List.append_assoc, List.append_assoc]
    exact (List.Perm.swap _ _ []).append_left table

theorem find?_set_comm {name other : String} (distinct : name ≠ other) (item otherItem : Item)
    (table : Table Item) (wanted : String) :
    find? wanted (set name item (set other otherItem table)) =
      find? wanted (set other otherItem (set name item table)) := by
  by_cases isName : wanted = name
  · subst isName
    rw [find?_set_self, find?_set_other distinct, find?_set_self]
  · by_cases isOther : wanted = other
    · subst isOther
      rw [find?_set_other isName, find?_set_self, find?_set_self]
    · rw [find?_set_other isName, find?_set_other isOther, find?_set_other isOther,
        find?_set_other isName]

end Table

end Rulebook
