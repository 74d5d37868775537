import CircuitNetwork.Arena
import CircuitNetwork.Circuit
import CircuitNetwork.Synthesis.Design

namespace CircuitNetwork

/-!
# Benches

A bench simulates the entities of a table's nodes and of further nodes, and sets
the values of the table's primary inputs. The nodes must be wired already.
-/

/-- A simulation whose inputs can be set. Each input is listed with the index of its driver. -/
structure Bench where
  circuit : Circuit
  inputs : List (Nat × Nat) := []
  deriving Inhabited

namespace Bench

/-- Add the entities of a node to the arena of a bench, except those that are there already. -/
def addNode (design : Design) (node : Option Nat) : EStateM Failure (Board × Arena) Unit :=
  match node with
  | none => throw (.ofCrash .nullNode)
  | some id => (design.node id).kind.entities.forM fun entity => do
      if !(← get).2.members.contains entity then
        Arena.addOne entity

/-- Drive a primary input. Its value is zero until it is set. -/
def driveInput (design : Design) (bench : Bench) (node : Option Nat) : Bench :=
  match node with
  | none => bench
  | some id =>
      match (design.node id).kind with
      | .input _ constant =>
          { circuit := bench.circuit.drive design.board constant .value fun _ => 0
            inputs := (id, bench.circuit.drivers.size) :: bench.inputs }
      | _ => bench

/-- Build a bench in an arena of its own. -/
def build (design : Design) (extra : List (Option Nat)) : EStateM Failure (Board × Arena) Bench := do
  let nodes := design.table.nodes
  (nodes ++ extra).forM (addNode design)
  let (board, arena) ← get
  match Circuit.ofEntities board 0 arena.members with
  | .error failure => throw failure
  | .ok circuit => return nodes.foldl (driveInput { design with board := board }) { circuit := circuit }

/-- Set the value of an input from the next step on. -/
def set (bench : Bench) (node : Nat) (value : Int32) : Except Misuse Bench :=
  match bench.inputs.lookup node with
  | none => .error .unknownInput
  | some index =>
      let drivers := bench.circuit.drivers.modify index fun driver =>
        { driver with source := fun _ => value }
      .ok { bench with circuit := { bench.circuit with drivers := drivers } }

/-- The value that an endpoint shows: on its red network, else on its green one, else the output of
its entity. -/
def read (circuit : Circuit) (board : Board) (point : Endpoint) : Int32 :=
  match Color.all.find? fun color => (board.network? color point).isSome with
  | some color => circuit.value board point color .value
  | none => (circuit.output point.entity).count .value

end Bench

end CircuitNetwork
