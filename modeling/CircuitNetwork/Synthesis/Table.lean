import CircuitNetwork.Netlist.Bit

namespace CircuitNetwork

/-!
# Tables of producers

A table says which node produces a bit vector. Vectors are told apart by their
written form. An entry may hold no node.
-/

/-- The producers of bit vectors, in the order in which the vectors were first registered. -/
structure Table where
  entries : List (String × Option Nat) := []
  deriving Repr, DecidableEq, Inhabited

namespace Table

/-- The entry of a bit vector. -/
def find? (table : Table) (bits : List Bit) : Option (Option Nat) :=
  table.entries.lookup (Bit.vectorText bits)

/-- Register the producer of a bit vector. An earlier one for the same vector gives up its place. -/
def add (table : Table) (bits : List Bit) (node : Option Nat) : Table :=
  let key := Bit.vectorText bits
  if table.entries.any (·.1 = key) then
    ⟨table.entries.map fun entry => if entry.1 = key then (key, node) else entry⟩
  else
    ⟨table.entries ++ [(key, node)]⟩

/-- The registered nodes. -/
def nodes (table : Table) : List (Option Nat) :=
  table.entries.map (·.2)

end Table

end CircuitNetwork
