/-! # Tables in order of insertion

A table binds names to entries.  It keeps the order in which names were first bound: binding a name
again replaces its entry in place. -/

namespace Tremolo

/-- Entries by name, in the order in which the names were first bound. -/
structure Table (α : Type) where
  entries : List (String × α)
deriving Inhabited

namespace Table

variable {α : Type}

def empty : Table α :=
  ⟨[]⟩

/-- Binds a name in a list of entries: in place if it is bound there, else at the end. -/
def bind (name : String) (a : α) : List (String × α) → List (String × α)
  | [] => [(name, a)]
  | (key, b) :: rest => if key = name then (key, a) :: rest else (key, b) :: bind name a rest

def insert (table : Table α) (name : String) (a : α) : Table α :=
  ⟨bind name a table.entries⟩

def get? (table : Table α) (name : String) : Option α :=
  table.entries.lookup name

def contains (table : Table α) (name : String) : Bool :=
  (table.get? name).isSome

def names (table : Table α) : List String :=
  table.entries.map (·.1)

def values (table : Table α) : List α :=
  table.entries.map (·.2)

/-- The names in increasing order of their characters. -/
def sortedNames (table : Table α) : List String :=
  table.names.mergeSort fun a b => a ≤ b

end Table

end Tremolo
