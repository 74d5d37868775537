import CircuitNetwork.Signal.Frame
import CircuitNetwork.Wire.Board

namespace CircuitNetwork

/-!
# Simulation

A circuit runs a set of combinators in steps. In every step a network carries the
sum of the outputs that its endpoints had after the previous step, and every
combinator computes its next output from the sum of its red and green networks.
A combinator thus answers one step after its input.

Constants can be driven: a driver replaces the count of one signal by a value
that may differ from step to step. A driver of a signal that one of the slots has
follows that slot when its signal is renamed.
-/

/-- A source of values for a signal of a constant combinator. It is asked once in every step in which
the constant is on. -/
structure Driver where
  entity : Nat
  slot : Option Nat
  signal : Signal
  source : Nat → Int32
  calls : Nat := 0

instance : Inhabited Driver := ⟨⟨0, none, default, fun _ => 0, 0⟩⟩

namespace Driver

/-- The source that gives the values of a list one after another, and then the last one forever. -/
def ofList (values : List Int32) (call : Nat) : Int32 :=
  (values[call]?).getD (values.getLastD 0)

/-- The signal that a driver drives. -/
def target (driver : Driver) (filters : List Filter) : Signal :=
  match driver.slot.bind (filters[·]?) with
  | some filter => filter.signal
  | none => driver.signal

/-- Put the driven value into the output of a constant. -/
def drive (filters : List Filter) (frame : Frame) (driver : Driver) : Frame :=
  frame.assign (driver.target filters) (driver.source driver.calls)

end Driver

/-- A running simulation. -/
structure Circuit where
  members : List Nat
  frames : Array Frame
  drivers : Array Driver := #[]
  workers : Int := 0
  steps : Nat := 0
  deriving Inhabited

namespace Circuit

/-- The first wildcard among the signals that an entity reads and puts out. -/
def wildcard? (body : Body) : Option Signal :=
  (body.operands ++ body.outputs).find? (·.isWildcard)

/-- Check that an entity can join the entities before it in a simulation. -/
def checkMember (board : Board) (earlier : List Nat) (id : Nat) : Except Failure Unit :=
  let entity := board.entity id
  if earlier.contains id then
    .error (.ofReason (.duplicateEntity entity.label))
  else if !entity.body.isCombinator then
    .error (.ofFault ⟨.unsupported, entity.label, "entity cannot be simulated"⟩)
  else
    match wildcard? entity.body with
    | some signal =>
        .error (.ofFault ⟨.unsupported, entity.label,
          "wildcard signal " ++ signal.text ++ " cannot be simulated"⟩)
    | none => .ok ()

/-- Check the entities of a simulation in order, after those in front of them. -/
def checkMembers (board : Board) : List Nat → List Nat → Except Failure Unit
  | _, [] => .ok ()
  | earlier, id :: rest => do
      checkMember board earlier id
      checkMembers board (id :: earlier) rest

/-- A circuit of distinct combinators without wildcards. All outputs are empty at first. -/
def ofEntities (board : Board) (workers : Int) (ids : List Nat) : Except Failure Circuit := do
  if ids.isEmpty then
    .error (.ofReason .noEntities)
  checkMembers board [] ids
  return {
    members := ids
    frames := (ids.map fun _ => SignalMap.empty).toArray
    workers := workers }

/-- The slot of a constant that has a signal. -/
def slot? (body : Body) (signal : Signal) : Option Nat :=
  match body with
  | .constant _ filters => filters.findIdx? (·.signal = signal)
  | _ => none

/-- Drive a signal of a constant. -/
def drive
    (circuit : Circuit)
    (board : Board)
    (entity : Nat)
    (signal : Signal)
    (source : Nat → Int32) :
    Circuit :=
  { circuit with drivers := circuit.drivers.push {
      entity := entity
      slot := slot? (board.entity entity).body signal
      signal := signal
      source := source } }

/-- The current output of an entity. Outside the circuit every entity is silent. -/
def output (circuit : Circuit) (id : Nat) : Frame :=
  match circuit.members.findIdx? (· = id) with
  | some index => circuit.frames.getD index SignalMap.empty
  | none => SignalMap.empty

/-- What an endpoint contributes to a network: only an output port contributes. -/
def contribution (circuit : Circuit) (board : Board) (point : Endpoint) : Frame :=
  if board.output point.entity = point then circuit.output point.entity else SignalMap.empty

/-- Add the outputs on a network to a frame. -/
def addNetwork (circuit : Circuit) (board : Board) (frame : Frame) (network : Option Nat) : Frame :=
  match network with
  | some network =>
      (board.points network).foldl (fun total point =>
        Frame.add total (circuit.contribution board point)) frame
  | none => frame

/-- The sum of the red and the green network of an endpoint. -/
def input (circuit : Circuit) (board : Board) (point : Endpoint) : Frame :=
  Color.all.foldl (fun total color =>
    circuit.addNetwork board total (board.network? color point)) SignalMap.empty

/-- The value of an operand on an input. -/
def operandValue (input : Frame) : Operand → Int32
  | .signal read => input.count read
  | .constant value => value

/-- The next output of a constant. -/
def constantOutput (drivers : List Driver) (isOn : Bool) (filters : List Filter) : Frame :=
  if isOn then
    drivers.foldl (Driver.drive filters)
      (filters.foldl (fun frame filter => Frame.offer frame filter.signal filter.count)
        SignalMap.empty)
  else
    SignalMap.empty

/-- The next output of a decider. -/
def deciderOutput (condition : Decider) (input : Frame) : Frame :=
  if condition.comparator.holds (input.count condition.first)
      (operandValue input condition.second) then
    Frame.single condition.output
      (if condition.copyCount then input.count condition.output else 1)
  else
    SignalMap.empty

/-- The next output of an arithmetic combinator. -/
def arithmeticOutput (condition : Arithmetic) (input : Frame) : Frame :=
  Frame.single condition.output
    (condition.operator.apply (input.count condition.first)
      (operandValue input condition.second))

/-- The next output of an entity. -/
def nextOutput (circuit : Circuit) (board : Board) (id : Nat) : Frame :=
  match (board.entity id).body with
  | .constant isOn filters =>
      constantOutput (circuit.drivers.toList.filter (·.entity = id)) isOn filters
  | .decider condition => deciderOutput condition (circuit.input board (board.input id))
  | .arithmetic condition => arithmeticOutput condition (circuit.input board (board.input id))
  | .fixture _ => SignalMap.empty

/-- The number of indices that each worker updates, the last one perhaps fewer. -/
def share (count workers : Nat) : Nat :=
  if count / workers * workers < count then count / workers + 1 else count / workers

/-- The ranges of indices that the workers update, each up to its end. -/
def ranges (count workers : Nat) : List (Nat × Nat) :=
  let share := share count workers
  (List.range ((count + share - 1) / share)).map fun worker =>
    (worker * share, min ((worker + 1) * share) count)

/-- The indices in the order in which a step updates them. -/
def schedule (count : Nat) (workers : Int) : List Nat :=
  if workers ≤ 1 then
    List.range count
  else
    (ranges count workers.toNat).flatMap fun range =>
      (List.range (range.2 - range.1)).map (range.1 + ·)

/-- Write the next output of the member with a given index. -/
def update (circuit : Circuit) (board : Board) (frames : Array Frame) (index : Nat) : Array Frame :=
  match circuit.members[index]? with
  | some id => frames.setIfInBounds index (circuit.nextOutput board id)
  | none => frames

/-- Whether a driver is asked for a value in a step. -/
def isAsked (circuit : Circuit) (board : Board) (driver : Driver) : Bool :=
  circuit.members.contains driver.entity &&
    match (board.entity driver.entity).body with
    | .constant isOn _ => isOn
    | _ => false

/-- One step of the simulation. -/
def step (circuit : Circuit) (board : Board) : Circuit :=
  { circuit with
    frames := (schedule circuit.members.length circuit.workers).foldl
      (circuit.update board) circuit.frames
    drivers := circuit.drivers.map fun driver =>
      if circuit.isAsked board driver then { driver with calls := driver.calls + 1 } else driver
    steps := circuit.steps + 1 }

/-- Some steps of the simulation. -/
def run (circuit : Circuit) (board : Board) : Nat → Circuit
  | 0 => circuit
  | count + 1 => (circuit.step board).run board count

/-- The value of a signal on the network of an endpoint. -/
def value
    (circuit : Circuit)
    (board : Board)
    (point : Endpoint)
    (color : Color)
    (signal : Signal) :
    Int32 :=
  (circuit.addNetwork board SignalMap.empty (board.network? color point)).count signal

end Circuit

end CircuitNetwork
