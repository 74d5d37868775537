import CircuitNetwork.Netlist.Literal
import CircuitNetwork.Synthesis.Node
import CircuitNetwork.Synthesis.Table

namespace CircuitNetwork

/-!
# Designs

A design grows as cells are turned into nodes: it has a board, the nodes made so
far, and the table through which nodes find the producers of their inputs. An
operation that fails keeps what it did before.
-/

/-- A board with the nodes on it and a table of producers. -/
structure Design where
  board : Board := {}
  nodes : Array Node := #[]
  table : Table := {}
  deriving Repr, DecidableEq, Inhabited

/-- An operation on a design. -/
abbrev Synthesis := EStateM Failure Design

namespace Design

/-- The node with an identity. -/
def node (design : Design) (id : Nat) : Node :=
  design.nodes.getD id default

/-- Add a node that needs no new entities. -/
def addNode (kind : NodeKind) : Synthesis Nat :=
  modifyGet fun design =>
    (design.nodes.size, { design with nodes := design.nodes.push { kind := kind } })

/-- Install a part and add the node that it belongs to, given the identity of the first entity. -/
def installNode (part : Part) (kind : Nat → NodeKind) : Synthesis Nat := do
  let first := (← get).board.size
  modify fun design => { design with board := design.board.install part }
  addNode (kind first)

/-- Add a primary input. Its constant puts out zero until it is driven. -/
def addInput (bits : List Bit) : Synthesis Nat :=
  installNode ⟨[.ofCount 0], []⟩ (.input bits)

/-- The value of a literal, which has at most 32 bits. -/
def literalCount (bits : List Bit) : Except Failure Int32 :=
  let refuse (message : String) : Failure :=
    .ofFault ⟨.unsupported, "literal " ++ Bit.vectorText bits, message⟩
  if bits.length > 32 then
    .error (refuse "literals wider than 32 bits")
  else
    match Bit.literalValue bits with
    | .ok value => .ok (Int32.ofNat value)
    | .error reason => .error (refuse reason.text)

/-- Add a literal. -/
def addLiteral (bits : List Bit) : Synthesis Nat :=
  match literalCount bits with
  | .ok count => installNode ⟨[.ofCount count], []⟩ .literal
  | .error failure => throw failure

/-- Add an output. Its constant puts nothing out and only ends a wire. -/
def addOutput (bits : List Bit) : Synthesis Nat :=
  installNode ⟨[.ofFilters []], []⟩ (.output bits)

/-- Add a comparison of two bit vectors. -/
def addComparison (comparator : Comparator) (a b : List Bit) : Synthesis Nat :=
  installNode (gatePart (comparison comparator))
    (.gate ("compare " ++ comparator.symbol) a b)

/-- Add an operation on two bit vectors. -/
def addOperation (operator : Operator) (a b : List Bit) : Synthesis Nat :=
  installNode (gatePart (operation operator))
    (.gate ("binary " ++ operator.symbol) a b)

/-- Add a multiplexer. -/
def addMux (a b select : List Bit) : Synthesis Nat :=
  installNode muxPart (.mux a b select)

/-- The comparison that a cell type stands for. -/
def comparatorOfCell? : String → Option Comparator
  | "$lt" => some .less
  | "$le" => some .lessEqual
  | "$gt" => some .greater
  | "$ge" => some .greaterEqual
  | "$eq" => some .equal
  | "$ne" => some .notEqual
  | _ => none

/-- The operation that a cell type stands for. -/
def operatorOfCell? : String → Option Operator
  | "$add" => some .add
  | "$sub" => some .sub
  | "$mul" => some .mul
  | "$div" => some .div
  | "$mod" => some .mod
  | "$pow" => some .pow
  | "$shl" => some .shiftLeft
  | "$shr" => some .shiftRight
  | "$and" => some .and
  | "$or" => some .or
  | "$xor" => some .xor
  | _ => none

/-- The cell type of multiplexers. -/
def muxType : String := "$mux"

/-- What a cell computes from its connections. -/
inductive Rule where
  | comparison (comparator : Comparator) (a b : List Bit)
  | operation (operator : Operator) (a b : List Bit)
  | mux (a b select : List Bit)
  deriving Repr, DecidableEq, Inhabited

/-- Check that a port is at most 32 bits wide. -/
def checkPort (cell : Cell) (port : String × List Bit) : Except Failure Unit :=
  if port.2.length > 32 then
    .error (.ofFault ⟨.unsupported, "port width",
      "cell " ++ cell.type ++ " port " ++ port.1 ++ " is " ++ toString port.2.length ++
        " bits wide"⟩)
  else
    .ok ()

/-- The select bit of a multiplexer. -/
def selectBits (cell : Cell) : Except Failure (List Bit) := do
  let select ← cell.bits "S"
  if select.length = 1 then
    .ok select
  else
    .error (.ofFault ⟨.unsupported, "select width",
      "cell " ++ cell.type ++ " select is " ++ toString select.length ++ " bits wide"⟩)

/-- The rule for a cell. Results are not cut to the width of the output port. -/
def ruleOfCell (cell : Cell) : Except Failure Rule := do
  let a ← cell.bits "A"
  let b ← cell.bits "B"
  let y ← cell.bits "Y"
  [("A", a), ("B", b), ("Y", y)].forM (checkPort cell)
  if cell.type = muxType then
    return .mux a b (← selectBits cell)
  match comparatorOfCell? cell.type, operatorOfCell? cell.type with
  | some comparator, _ => return .comparison comparator a b
  | none, some operator => return .operation operator a b
  | none, none =>
      .error (.ofFault ⟨.unsupported, "cell type", "no synthesis rule for " ++ cell.type⟩)

/-- Add the node for a comparison, operation or multiplexer cell. -/
def addCell (cell : Cell) : Synthesis Nat :=
  match ruleOfCell cell with
  | .ok (.comparison comparator a b) => addComparison comparator a b
  | .ok (.operation operator a b) => addOperation operator a b
  | .ok (.mux a b select) => addMux a b select
  | .error failure => throw failure

/-- Add a read port of a memory. Its data is put out by the decider of the last row. -/
def addPort (bank : Bank) (memory port : Nat) : Synthesis Nat :=
  match bank.portOutput? port with
  | some output => addNode (.readPort memory port (bank.portBits port) output)
  | none => throw (.ofCrash .nullEntity)

/-- Add a memory and then its read ports. -/
def addMemory (cell : Cell) : Synthesis (Nat × List Nat) := do
  match Bank.ofCell cell (← get).board.size with
  | .error failure => throw failure
  | .ok bank =>
      let memory ← installNode (Bank.part bank.geometry) fun _ => .memory bank
      let ports ← (List.range bank.geometry.readPorts).mapM (addPort bank memory)
      return (memory, ports)

/-- Register a node as the producer of a bit vector. -/
def register (bits : List Bit) (node : Option Nat) : Synthesis Unit :=
  modify fun design => { design with table := design.table.add bits node }

/-- Add a primary input and register it. -/
def registerInput (bits : List Bit) : Synthesis Nat := do
  let node ← addInput bits
  register bits (some node)
  return node

/-- The producer of a bit vector: the registered one, or else a new literal. -/
def resolve (bits : List Bit) : Synthesis (Option Nat) := do
  match (← get).table.find? bits with
  | some node => return node
  | none =>
      if bits.all (·.isConst) then
        let node ← addLiteral bits
        register bits (some node)
        return some node
      else
        throw (.ofReason (.noProducer bits))

end Design

end CircuitNetwork
