import CircuitNetwork.Proofs.Netlist.Vector
import CircuitNetwork.Proofs.Wire.Networks
import CircuitNetwork.Synthesis.Wiring
import Mathlib.Data.Bool.Basic

namespace CircuitNetwork

/-!
# Growing designs

A table is a map on bit vectors. The operations that build and wire a design only
let it grow: entities, the kinds of nodes and registered producers stay, and a
node keeps its place.
-/

/-- A new entity has the body that it is made of. -/
theorem Entity.body_ofBody
    (body : Body) :
    (Entity.ofBody body).body = body := by
  unfold Entity.ofBody
  split <;> rfl

namespace Table

/-- Replacing the value of a key leaves the other keys. -/
theorem lookup_map_replace
    (entries : List (String × Option Nat))
    (key : String)
    (node : Option Nat)
    (asked : String) :
    (entries.map fun entry => if entry.1 = key then (key, node) else entry).lookup asked =
      if asked = key ∧ (entries.any (·.1 = key)) then some node else entries.lookup asked := by
  induction entries with
  | nil =>
      simp
  | cons entry rest inductionHypothesis =>
      obtain ⟨name, value⟩ := entry
      grind

/-- A vector has no producer if no entry has its text. -/
theorem find?_eq_none_iff
    {table : Table}
    {bits : List Bit} :
    table.find? bits = none ↔ ¬table.entries.any (·.1 = Bit.vectorText bits) := by
  rw [find?, List.lookup_eq_none_iff]
  grind

/-- The producer registered last is the one that is found. -/
theorem find?_add
    (table : Table)
    (bits : List Bit)
    (node : Option Nat)
    (asked : List Bit) :
    (table.add bits node).find? asked =
      if asked = bits then some node else table.find? asked := by
  have sameKey : Bit.vectorText asked = Bit.vectorText bits ↔ asked = bits :=
    ⟨Bit.vectorText_injective, congrArg Bit.vectorText⟩
  simp only [add, find?]
  split
  · rename_i known
    rw [lookup_map_replace, known]
    simp [sameKey]
  · rename_i unknown
    have missing := find?_eq_none_iff.mpr unknown
    rw [find?] at missing
    rw [List.lookup_append]
    by_cases same : asked = bits
    · simp [same, missing]
    · have differentKey : (Bit.vectorText asked == Bit.vectorText bits) = false := by
        simpa [sameKey] using same
      simp [List.lookup_cons, same, differentKey]

/-- A vector without producer is added at the end. -/
theorem entries_add
    {table : Table}
    {bits : List Bit}
    (missing : table.find? bits = none)
    (node : Option Nat) :
    (table.add bits node).entries = table.entries ++ [(Bit.vectorText bits, node)] := by
  simp only [add, find?_eq_none_iff.mp missing]
  rfl

/-- A vector has one producer at most. -/
theorem producer_unique
    {table : Table}
    {bits : List Bit}
    {id other : Nat}
    (found : table.find? bits = some (some id))
    (foundOther : table.find? bits = some (some other)) :
    id = other :=
  Option.some.inj (Option.some.inj (found.symm.trans foundOther))

/-- Registering brings one node into a table at most. -/
theorem mem_nodes_add
    {table : Table}
    {bits : List Bit}
    {node other : Option Nat}
    (member : other ∈ (table.add bits node).nodes) :
    other ∈ table.nodes ∨ other = node := by
  simp only [nodes, add, List.mem_map] at member ⊢
  split at member <;> grind

/-- A producer is one of the nodes of a table. -/
theorem mem_nodes_of_find?
    {table : Table}
    {bits : List Bit}
    {node : Option Nat}
    (found : table.find? bits = some node) :
    node ∈ table.nodes := by
  obtain ⟨before, rest, shape, -⟩ := List.lookup_eq_some_iff.mp found
  simp [nodes, shape]

end Table

namespace Board

/-- New entities come behind the others, in order. -/
theorem entities_addAll
    (board : Board)
    (bodies : List Body) :
    (board.addAll bodies).entities = board.entities ++ (bodies.map Entity.ofBody).toArray := by
  induction bodies generalizing board with
  | nil =>
      simp [addAll]
  | cons body rest inductionHypothesis =>
      have unfolded : board.addAll (body :: rest) = (board.add body).addAll rest := rfl
      rw [unfolded, inductionHypothesis]
      simp [add]

/-- Installing a part adds its entities, and its wires change none. -/
theorem entities_install
    (board : Board)
    (part : Part) :
    (board.install part).entities =
      board.entities ++ (part.bodies.map Entity.ofBody).toArray := by
  have wires (step : Board → Color × List Endpoint → Board)
      (keeps : ∀ wired wire, (step wired wire).entities = wired.entities)
      (wired : Board) (laid : List (Color × List Endpoint)) :
      (laid.foldl step wired).entities = wired.entities := by
    induction laid generalizing wired with
    | nil =>
        rfl
    | cons wire rest inductionHypothesis =>
        rw [List.foldl_cons, inductionHypothesis, keeps]
  rw [install, wires, entities_addAll]
  exact fun wired wire => wired.entities_wire wire.1 _

end Board

namespace Design

variable {design grown : Design}

/-- Everything that a design has is kept, apart from the state of wirings. -/
structure Grows (design grown : Design) : Prop where
  size_le : design.nodes.size ≤ grown.nodes.size
  kind_eq : ∀ {id}, id < design.nodes.size → (grown.node id).kind = (design.node id).kind
  entities_le : design.board.size ≤ grown.board.size
  entity_eq : ∀ {id}, id < design.board.size → grown.board.entity id = design.board.entity id
  find?_eq :
    ∀ {bits node}, design.table.find? bits = some node → grown.table.find? bits = some node

theorem Grows.refl (design : Design) : Grows design design :=
  ⟨Nat.le_refl _, fun _ => rfl, Nat.le_refl _, fun _ => rfl, id⟩

theorem Grows.trans
    {further : Design}
    (first : Grows design grown)
    (second : Grows grown further) :
    Grows design further where
  size_le := Nat.le_trans first.size_le second.size_le
  kind_eq inRange :=
    (second.kind_eq (Nat.lt_of_lt_of_le inRange first.size_le)).trans (first.kind_eq inRange)
  entities_le := Nat.le_trans first.entities_le second.entities_le
  entity_eq inRange :=
    (second.entity_eq (Nat.lt_of_lt_of_le inRange first.entities_le)).trans
      (first.entity_eq inRange)
  find?_eq found := second.find?_eq (first.find?_eq found)

/-- A design whose node is in another state of wiring. -/
def mark (design : Design) (id : Nat) (wiring : Wiring) : Design :=
  { design with nodes := design.nodes.modify id ({ · with wiring := wiring }) }

@[simp] theorem size_mark
    (design : Design)
    (id : Nat)
    (wiring : Wiring) :
    (design.mark id wiring).nodes.size = design.nodes.size := by
  simp [mark]

/-- Only the marked node is in another state. -/
theorem node_mark
    (design : Design)
    {id : Nat}
    (inRange : id < design.nodes.size)
    (wiring : Wiring)
    (other : Nat) :
    (design.mark id wiring).node other =
      if other = id then { design.node id with wiring := wiring } else design.node other := by
  simp only [node, mark, Array.getD_eq_getD_getElem?, Array.getElem?_modify]
  by_cases same : id = other
  · subst same
    simp [inRange]
  · simp [same, Ne.symm same]

theorem node_mark_of_ne
    (design : Design)
    {id other : Nat}
    (different : other ≠ id)
    (wiring : Wiring) :
    (design.mark id wiring).node other = design.node other := by
  simp [node, mark, Array.getElem?_modify, Ne.symm different]

/-- A mark changes no kind. -/
@[simp] theorem kind_mark
    (design : Design)
    (id : Nat)
    (wiring : Wiring)
    (other : Nat) :
    ((design.mark id wiring).node other).kind = (design.node other).kind := by
  simp only [node, mark, Array.getD_eq_getD_getElem?, Array.getElem?_modify]
  split
  · cases design.nodes[other]? <;> rfl
  · rfl

/-- A mark loses nothing. -/
theorem grows_mark
    (design : Design)
    (id : Nat)
    (wiring : Wiring) :
    Grows design (design.mark id wiring) :=
  ⟨by simp, fun _ => by simp, Nat.le_refl _, fun _ => rfl, fun found => found⟩

/-- A design with a part more and the node that it belongs to. -/
def push (design : Design) (part : Part) (kind : NodeKind) : Design :=
  { design with
    board := design.board.install part
    nodes := design.nodes.push { kind := kind } }

theorem installNode_run
    (design : Design)
    (part : Part)
    (kind : Nat → NodeKind) :
    installNode part kind design =
      .ok design.nodes.size (design.push part (kind design.board.size)) :=
  rfl

theorem addNode_run
    (design : Design)
    (kind : NodeKind) :
    addNode kind design = .ok design.nodes.size (design.push ⟨[], []⟩ kind) :=
  rfl

@[simp] theorem size_push
    (design : Design)
    (part : Part)
    (kind : NodeKind) :
    (design.push part kind).nodes.size = design.nodes.size + 1 := by
  simp [push]

/-- A new node takes the place behind the others. -/
theorem node_push
    (design : Design)
    (part : Part)
    (kind : NodeKind)
    (id : Nat) :
    (design.push part kind).node id =
      if id = design.nodes.size then { kind := kind } else design.node id := by
  simp only [node, push, Array.getD_eq_getD_getElem?, Array.getElem?_push]
  split <;> rfl

/-- A new node leaves what is there. -/
theorem grows_push
    (design : Design)
    (part : Part)
    (kind : NodeKind) :
    Grows design (design.push part kind) where
  size_le := by simp
  kind_eq inRange := by rw [node_push, if_neg (Nat.ne_of_lt inRange)]
  entities_le := by simp [push, Board.size, Board.entities_install]
  entity_eq {id} inRange := by
    simp only [Board.size] at inRange
    simp [push, Board.entity, Board.entities_install, Array.getD_eq_getD_getElem?,
      Array.getElem?_append_left inRange]
  find?_eq found := found

/-- A design with a producer registered. -/
def enter (design : Design) (bits : List Bit) (node : Option Nat) : Design :=
  { design with table := design.table.add bits node }

theorem register_run
    (design : Design)
    (bits : List Bit)
    (node : Option Nat) :
    register bits node design = .ok () (design.enter bits node) :=
  rfl

/-- Registering a producer for a vector without one loses nothing. -/
theorem grows_enter
    {bits : List Bit}
    (missing : design.table.find? bits = none)
    (node : Option Nat) :
    Grows design (design.enter bits node) where
  size_le := Nat.le_refl _
  kind_eq _ := rfl
  entities_le := Nat.le_refl _
  entity_eq _ := rfl
  find?_eq {asked _} found := by
    have different : asked ≠ bits := by
      intro same
      rw [same, missing] at found
      cases found
    rw [enter, Table.find?_add, if_neg different, found]

/-- A wire changes neither nodes nor entities. -/
theorem grows_wire
    (design : Design)
    (color : Color)
    (points : List Endpoint) :
    Grows design { design with board := design.board.wire color points } where
  size_le := Nat.le_refl _
  kind_eq _ := rfl
  entities_le := by simp [Board.size]
  entity_eq _ := by simp [Board.entity]
  find?_eq found := found

end Design

end CircuitNetwork
