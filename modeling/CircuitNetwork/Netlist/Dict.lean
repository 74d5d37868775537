namespace CircuitNetwork

/-!
# Named values

A dictionary lists each name once, in the order in which the names were first
given a value.
-/

/-- Values by name. -/
structure Dict (α : Type) where
  entries : List (String × α)
  distinct : (entries.map (·.1)).Nodup

namespace Dict

variable {α : Type}

/-- The dictionary without names. -/
def empty : Dict α := ⟨[], List.nodup_nil⟩

instance : Inhabited (Dict α) := ⟨empty⟩

/-- The value of a name, if it has one. -/
def find? (dict : Dict α) (name : String) : Option α :=
  dict.entries.lookup name

/-- Put a value in the place of the one that a name has in a list of entries. -/
def replaceEntry (name : String) (value : α) (entry : String × α) : String × α :=
  if entry.1 = name then (name, value) else entry

theorem map_replaceEntry_fst
    (name : String)
    (value : α)
    (entries : List (String × α)) :
    (entries.map (replaceEntry name value)).map (·.1) = entries.map (·.1) := by
  rw [List.map_map]
  apply List.map_congr_left
  intro entry _
  by_cases same : entry.1 = name <;> simp [replaceEntry, same]

/-- Give a name a value. A new name comes last. -/
def set (dict : Dict α) (name : String) (value : α) : Dict α :=
  if known : name ∈ dict.entries.map (·.1) then
    { entries := dict.entries.map (replaceEntry name value)
      distinct := by
        rw [map_replaceEntry_fst]
        exact dict.distinct }
  else
    { entries := dict.entries ++ [(name, value)]
      distinct := by
        rw [List.map_append, List.nodup_append]
        refine ⟨dict.distinct, by simp, ?_⟩
        intro first firstMember second secondMember same
        simp only [List.map_cons, List.map_nil, List.mem_singleton] at secondMember
        exact known (secondMember ▸ same ▸ firstMember) }

/-- Take a name away. -/
def erase (dict : Dict α) (name : String) : Dict α :=
  { entries := dict.entries.filter (·.1 ≠ name)
    distinct := List.Nodup.sublist (List.filter_sublist.map _) dict.distinct }

/-- The dictionary of a list of names and values; the last value of a name counts. -/
def ofList (entries : List (String × α)) : Dict α :=
  entries.foldl (fun dict entry => dict.set entry.1 entry.2) empty

end Dict

end CircuitNetwork
