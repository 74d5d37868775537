import CircuitNetwork.Arena
import CircuitNetwork.Groups.Extraction
import CircuitNetwork.Json.Writer
import CircuitNetwork.Synthesis.Wiring

namespace CircuitNetwork

/-!
# Memory blueprints

A blueprint is a memory with a primary input at each of its inputs and an output
at each of its read ports, wired, numbered and placed. A port asks for its
inputs when its output is wired; the memory is wired last in case it has none.
-/

/-- A design and the arena with its entities. -/
structure Blueprint where
  design : Design
  arena : Arena
  deriving Inhabited

namespace Blueprint

/-- The bits of a connection; none if it is missing. -/
def connection (cell : Cell) (name : String) : List Bit :=
  (cell.bits? name).getD []

/-- The address bits of a read port. -/
def readAddress (spec : MemorySpec) (cell : Cell) (port : Nat) : List Bit :=
  let width := spec.addressBits.toNatClampNeg
  ((connection cell "RD_ADDR").drop (port * width)).take width

/-- The bit vectors that primary inputs are made for. -/
def inputVectors (spec : MemorySpec) (cell : Cell) : List (List Bit) :=
  [connection cell "WR_CLK", connection cell "WR_ADDR", connection cell "WR_DATA",
    (connection cell "WR_EN").take 1] ++
  (List.range spec.readPorts.toNatClampNeg).map (readAddress spec cell)

/-- Register a read port and wire an output to it. -/
def addPortOutput (port : Nat) : Synthesis Nat := do
  let bits := ((← get).node port).kind.bits
  Design.register bits (some port)
  let output ← Design.addOutput bits
  let _ ← Design.connect Design.resolve output
  return output

/-- Turn a memory cell into a wired memory, and return it with its outputs. -/
def wire (spec : MemorySpec) (cell : Cell) : Synthesis (Nat × List Nat) := do
  let (memory, ports) ← Design.addMemory cell
  (inputVectors spec cell).forM fun bits => do
    let _ ← Design.registerInput bits
  let outputs ← ports.mapM addPortOutput
  let _ ← Design.connect Design.resolve memory
  return (memory, outputs)

/-- Add the entities of nodes to an arena. -/
def addNodes (design : Design) (nodes : List (Option Nat)) : EStateM Failure (Board × Arena) Unit :=
  nodes.forM fun
    | some id => Arena.add (design.node id).kind.entities
    | none => throw (.ofCrash .nullNode)

/-- Number the entities of a wired memory and place them. -/
def arrange (columns : Int) (design : Design) (memory : Nat) (outputs : List Nat) :
    Except Failure Blueprint :=
  let nodes := design.table.nodes ++ some memory :: outputs.map some
  match (addNodes design nodes).run (design.board, {}) with
  | .error failure _ => .error failure
  | .ok _ (board, arena) =>
      .ok { design := { design with board := arena.layout columns board }, arena := arena }

/-- The blueprint of a memory. -/
def ofSpec (spec : MemorySpec) (columns : Int) : Except Failure Blueprint :=
  match spec.cell.run {} with
  | .error failure _ => .error failure
  | .ok cell _ =>
      match (wire spec cell).run {} with
      | .error failure _ => .error failure
      | .ok (memory, outputs) design => arrange columns design memory outputs

/-- The signal groups of a blueprint. -/
def groups (blueprint : Blueprint) : Except Failure SignalGroups :=
  (SignalGroups.extract blueprint.design.board blueprint.arena.members).mapError
    (·.within "signal analysis")

/-- The records of a blueprint. -/
def records (blueprint : Blueprint) : Except Failure (List (Option Record)) :=
  blueprint.arena.records blueprint.design.board

/-- The text of records, one item a line. -/
def render (records : List (Option Record)) : String :=
  (Json.ofList (.ofOption Record.toJson) records).indented ++ "\n"

end Blueprint

end CircuitNetwork
