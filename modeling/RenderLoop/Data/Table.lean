/-!
# Tables

A `Table` maps names to values and remembers the order in which the names
first came. Setting a name again keeps its place and takes the new value.
-/

namespace RenderLoop

/-- Entries by name, in the order the names first came. -/
abbrev Table (α : Type) := List (String × α)

namespace Table

variable {α β : Type}

/-- The value under a name. -/
def get? (t : Table α) (name : String) : Option α :=
  (t.find? (·.1 == name)).map (·.2)

def contains (t : Table α) (name : String) : Bool := t.any (·.1 == name)

/-- Sets a name, in its old place if it has one and at the end otherwise. -/
def insert : Table α → String → α → Table α
  | [], name, v => [(name, v)]
  | (k, w) :: rest, name, v =>
    if k == name then (k, v) :: rest else (k, w) :: insert rest name v

/-- Changes the value under a name, which starts from `start` if the name is
new. -/
def modify (t : Table α) (name : String) (start : α) (f : α → α) : Table α :=
  t.insert name (f ((t.get? name).getD start))

def names (t : Table α) : List String := t.map (·.1)

/-- The table that comes from setting the entries one after another. -/
def ofEntries (entries : List (String × α)) : Table α :=
  entries.foldl (fun t e => insert t e.1 e.2) []

/-- An entry that is inserted is found, and all others are as before. -/
theorem get?_insert (t : Table α) (name other : String) (v : α) :
    get? (insert t name v) other = if other = name then some v
      else get? t other := by
  induction t with
  | nil =>
    by_cases h : other = name
    · subst h; simp [insert, get?]
    · have : ¬ name = other := fun e => h e.symm
      simp [insert, get?, h, this]
  | cons e rest ih =>
    obtain ⟨k, w⟩ := e
    simp only [get?] at ih
    by_cases hk : k = name
    · subst hk
      by_cases h : other = k
      · subst h; simp [insert, get?]
      · have : ¬ k = other := fun e => h e.symm
        simp [insert, get?, h, this]
    · by_cases h : k = other
      · subst h; simp [insert, get?, hk]
      · simp [insert, get?, hk, h, ih]

end Table

/-- The elements of a list in code-point order, each once. -/
def sortedUnique (names : List String) : List String :=
  names.eraseDups.mergeSort fun a b => decide (a ≤ b)

end RenderLoop
