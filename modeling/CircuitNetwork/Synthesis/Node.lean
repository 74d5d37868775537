import CircuitNetwork.Synthesis.Bank

namespace CircuitNetwork

/-!
# Nodes

A node stands for the entities that were made for one netlist cell, or for a
primary input, output or literal. It has an endpoint that carries its value,
and a plan of how its inputs are wired: in each stage it first asks for the
producers of some bit vectors and then lays wires from their endpoints.
-/

/-- Ask for the producer of a bit vector. Failures are labelled. -/
structure Request where
  label : String
  bits : List Bit
  fromInput : Bool := false
  deriving Repr, DecidableEq, Inhabited

/-- A wire from the answer to one of the requests of a stage. -/
structure Tie where
  color : Color
  source : Nat
  sink : Endpoint
  deriving Repr, DecidableEq, Inhabited

/-- Requests, and the wires that are laid once all of them are answered. -/
structure Stage where
  requests : List Request
  ties : List Tie
  deriving Repr, DecidableEq, Inhabited

/-- What a node is made of. Entities are given by the identity of the first one. -/
inductive NodeKind where
  | input (bits : List Bit) (constant : Nat)
  | literal (constant : Nat)
  | tap (point : Option Endpoint)
  | output (bits : List Bit) (terminal : Nat)
  | gate (label : String) (a b : List Bit) (first : Nat)
  | mux (a b select : List Bit) (first : Nat)
  | memory (bank : Bank)
  | readPort (memory : Nat) (index : Nat) (bits : List Bit) (point : Endpoint)
  deriving Repr, DecidableEq, Inhabited

/-- How far the wiring of a node has come. -/
inductive Wiring where
  | idle
  | busy
  | done (failure : Option Failure)
  deriving Repr, DecidableEq, Inhabited

/-- A node and the state of its wiring. -/
structure Node where
  kind : NodeKind
  wiring : Wiring := .idle
  deriving Repr, DecidableEq, Inhabited

/-- The requests and wires of a memory: the write port first, then the address of each read port. -/
def Bank.stages (bank : Bank) : List Stage :=
  let at_ (place : Nat) : Endpoint := ⟨bank.first + place, .one⟩
  let write : Stage := {
    requests := [
      { label := "memory write clock", bits := bank.writeClock, fromInput := true },
      { label := "memory write enable", bits := bank.writeEnable },
      { label := "memory write address", bits := bank.writeAddress },
      { label := "memory write data", bits := bank.writeData }]
    ties :=
      ⟨.red, 0, at_ 0⟩ :: ⟨.green, 1, at_ 0⟩ ::
        (List.range bank.geometry.size).flatMap fun row =>
          [⟨.red, 2, at_ (Bank.selectAt row)⟩, ⟨.red, 3, at_ (Bank.latchAt row)⟩] }
  write :: (List.range bank.geometry.readPorts).map fun port => {
    requests := [{
      label := "memory read address " ++ toString port
      bits := bank.portAddress port }]
    ties := [⟨.red, 0, at_ (Bank.addressAt bank.geometry port)⟩] }

namespace NodeKind

/-- The entities of a node, in order. -/
def entities : NodeKind → List Nat
  | input _ constant => [constant]
  | literal constant => [constant]
  | tap _ => []
  | output _ terminal => [terminal]
  | gate _ _ _ first => [first, first + 1]
  | mux _ _ _ first => [first, first + 1, first + 2]
  | memory bank => (List.range (Bank.entityCount bank.geometry)).map (bank.first + ·)
  | readPort .. => []

/-- The endpoint that carries the value of a node. A memory has none of its own. -/
def outlet : NodeKind → Option Endpoint
  | input _ constant => some ⟨constant, .one⟩
  | literal constant => some ⟨constant, .one⟩
  | tap point => point
  | output _ terminal => some ⟨terminal, .one⟩
  | gate _ _ _ first => some ⟨first + 1, .two⟩
  | mux _ _ _ first => some ⟨first + 1, .two⟩
  | memory _ => none
  | readPort _ _ _ point => some point

/-- The plan of how the inputs of a node are wired. -/
def stages : NodeKind → List Stage
  | input .. | literal _ | tap _ | readPort .. => []
  | output bits terminal => [{
      requests := [{ label := "output " ++ Bit.vectorText bits, bits := bits }]
      ties := [⟨.red, 0, ⟨terminal, .one⟩⟩] }]
  | gate label a b first => [{
      requests := [
        { label := label ++ " input A", bits := a },
        { label := label ++ " input B", bits := b }]
      ties := [⟨.red, 0, ⟨first + 1, .one⟩⟩, ⟨.red, 1, ⟨first, .one⟩⟩] }]
  | mux a b select first => [{
      requests := [
        { label := "mux select", bits := select },
        { label := "mux input A", bits := a },
        { label := "mux input B", bits := b }]
      ties := [
        ⟨.red, 0, ⟨first, .one⟩⟩,
        ⟨.red, 1, ⟨first + 1, .one⟩⟩,
        ⟨.red, 2, ⟨first + 2, .one⟩⟩] }]
  | memory bank => bank.stages

/-- The bit vector that an input, an output or a read port is made for. Other nodes have none. -/
def bits : NodeKind → List Bit
  | input bits _ | output bits _ | readPort _ _ bits _ => bits
  | literal _ | tap _ | gate .. | mux .. | memory _ => []

/-- Whether a node has inputs of its own to wire. -/
def isWired : NodeKind → Bool
  | input .. | literal _ | tap _ | readPort .. => false
  | output .. | gate .. | mux .. | memory _ => true

/-- Whether a node is a primary input. -/
def isInput : NodeKind → Bool
  | input .. => true
  | _ => false

end NodeKind

end CircuitNetwork
