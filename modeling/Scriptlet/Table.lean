/-!
# Scriptlet — tables in insertion order

A `Table` maps names to entries and remembers in which order the names came. Inserting under a name
that is already there replaces the entry and keeps its place; a new name goes last. `find?` and
`names` are the two views, and the lemmas say what `insert` does to each.
-/

namespace Scriptlet

/-- Entries under names, in the order in which the names were first inserted. -/
structure Table (α : Type u) where
  /-- The names with their entries, oldest first. -/
  entries : List (String × α)
deriving Repr

namespace Table

variable {α : Type u}

/-- The table without entries. -/
def empty : Table α := ⟨[]⟩

instance : Inhabited (Table α) := ⟨empty⟩

/-- The entry under a name. -/
def find? (table : Table α) (name : String) : Option α :=
  table.entries.lookup name

/-- Whether there is an entry under the name. -/
def contains (table : Table α) (name : String) : Bool :=
  (table.find? name).isSome

/-- The names in the order in which they were first inserted. -/
def names (table : Table α) : List String :=
  table.entries.map (·.1)

/-- The number of entries. -/
def size (table : Table α) : Nat :=
  table.entries.length

/-- Replaces the entry under `name` in a list of entries, or appends it. -/
def insertEntry (name : String) (entry : α) : List (String × α) → List (String × α)
  | [] => [(name, entry)]
  | (other, old) :: rest =>
    if name == other then (name, entry) :: rest else (other, old) :: insertEntry name entry rest

/-- Puts an entry under a name: in the name's old place if it has one, else last. -/
def insert (table : Table α) (name : String) (entry : α) : Table α :=
  ⟨insertEntry name entry table.entries⟩

@[simp] theorem find?_empty (name : String) : (empty : Table α).find? name = none := rfl

private theorem lookup_insertEntry (name other : String) (entry : α) (entries : List (String × α)) :
    (insertEntry name entry entries).lookup other =
      if other == name then some entry else entries.lookup other := by
  -- induction on the entries: an insertion passes those under other names
  induction entries with
  | nil => cases h : other == name <;> simp [insertEntry, List.lookup_cons, h]
  | cons head rest ih =>
    obtain ⟨key, old⟩ := head
    by_cases hk : name = key
    · subst hk
      cases h : other == name <;> simp [insertEntry, List.lookup_cons, h]
    · rw [insertEntry, if_neg (by simpa using hk)]
      cases h : other == key
      · simp [List.lookup_cons, h, ih]
      -- the entry found is under another name, so it is not the one that was replaced
      · have hne : (other == name) = false := by
          rw [beq_eq_false_iff_ne]
          rintro rfl
          exact hk (by simpa using h)
        simp [List.lookup_cons, h, hne]

/-- After an insertion the name has the new entry and every other name its old one. -/
theorem find?_insert (table : Table α) (name other : String) (entry : α) :
    (table.insert name entry).find? other =
      if other == name then some entry else table.find? other :=
  lookup_insertEntry name other entry table.entries

/-- What was inserted last under a name is found there. -/
@[simp] theorem find?_insert_self (table : Table α) (name : String) (entry : α) :
    (table.insert name entry).find? name = some entry := by
  simp [find?_insert]

/-- After an insertion there is an entry under the name, and under those that
had one. -/
@[simp] theorem contains_insert (table : Table α) (name other : String) (entry : α) :
    (table.insert name entry).contains other = (other == name || table.contains other) := by
  rw [contains, contains, find?_insert]
  cases other == name <;> rfl

private theorem names_insertEntry (name : String) (entry : α) (entries : List (String × α)) :
    (insertEntry name entry entries).map (·.1) =
      if (entries.lookup name).isSome then entries.map (·.1) else entries.map (·.1) ++ [name] := by
  -- induction on the entries, which the insertion passes until it finds the name
  induction entries with
  | nil => rfl
  | cons head rest ih =>
    obtain ⟨key, old⟩ := head
    by_cases hk : name = key
    · subst hk
      simp [insertEntry]
    · have hk' : (name == key) = false := by simpa using hk
      rw [insertEntry, hk']
      simp only [Bool.false_eq_true, if_false, List.map_cons, ih, List.lookup_cons, hk']
      split <;> simp

/-- An insertion keeps the order of the names and adds a new name last. -/
theorem names_insert (table : Table α) (name : String) (entry : α) :
    (table.insert name entry).names =
      if table.contains name then table.names else table.names ++ [name] :=
  names_insertEntry name entry table.entries

end Table

end Scriptlet
