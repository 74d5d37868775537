import CircuitNetwork.Bench
import CircuitNetwork.Groups.Renaming
import CircuitNetwork.Synthesis.Wiring

namespace CircuitNetwork

/-!
# Workbenches

A workbench holds one growing design together with any number of tables, arenas,
simulations and groupings over it. Its objects are referred to by number, in the
order in which they were made. An operation that fails keeps what it did before.

The collections of a grouping and those made on their own are kept in one store,
so a collection can be reached, and changed, in several ways.
-/

/-- A circuit on a workbench. Only one made as a bench has inputs to set. -/
structure Simulation where
  bench : Bench
  isBench : Bool
  deriving Inhabited

/-- A design and the objects around it. -/
structure Workbench where
  design : Design := {}
  nets : Nets := {}
  tables : Array Table := #[]
  arenas : Array Arena := #[]
  simulations : Array Simulation := #[]
  store : Array Collection := #[]
  groupings : Array (SignalMap Nat) := #[]
  listed : Array Nat := #[]
  deriving Inhabited

/-- An operation on a workbench. -/
abbrev Session := EStateM Failure Workbench

namespace Session

/-- Lift the outcome of a check. -/
def ofExcept {α : Type} : Except Failure α → Session α
  | .ok value => pure value
  | .error failure => throw failure

/-- Lift the outcome of an operation with rules. -/
def ofMisuse {α : Type} : Except Misuse α → Session α
  | .ok value => pure value
  | .error misuse => throw (.ofMisuse misuse)

/-- Run an operation on a piece of the workbench and put the piece back, also if it fails. -/
def zoom
    {σ α : Type}
    (piece : Workbench → σ)
    (put : σ → Workbench → Workbench)
    (operation : EStateM Failure σ α) :
    Session α := do
  let bench ← get
  match operation.run (piece bench) with
  | .ok value changed => set (put changed bench); return value
  | .error failure changed => set (put changed bench); throw failure

/-- The index that a number stands for in a list of objects. -/
def index (size : Nat) (number : Int) : Session Nat :=
  if 0 ≤ number ∧ number < size then return number.toNat
  else throw (.ofCrash .unknownObject)

/-- The board. -/
def board : Session Board := return (← get).design.board

/-- Put another board in the place of the present one. -/
def setBoard (board : Board) : Session Unit :=
  modify fun bench => { bench with design := { bench.design with board := board } }

/-- An entity by number. -/
def entity (number : Int) : Session Nat := do
  index (← board).size number

/-- A node by number. -/
def node (number : Int) : Session Nat := do
  index (← get).design.nodes.size number

/-- An endpoint or a node that is needed at once. -/
def given {α : Type} (crash : Crash) : Option α → Session α
  | some value => pure value
  | none => throw (.ofCrash crash)

/-- Add an entity. -/
def addEntity (body : Body) : Session Nat := do
  let current ← board
  setBoard (current.add body)
  return current.size

/-- Change what an entity is. -/
def changeBody (id : Nat) (change : Body → Body) : Session Unit := do
  setBoard ((← board).modifyEntity id fun entity => { entity with body := change entity.body })

/-- Add an arithmetic combinator that moves the value at an endpoint to the control signal. -/
def addTransformer (source : Option Endpoint) : Session Nat := do
  let current ← board
  let id := current.size
  setBoard (← ofMisuse
    ((current.add transformer).connect .red [source, some (current.input id)]))
  return id

/-- Connect endpoints with wires. -/
def connect (color : ColorCode) (points : List (Option Endpoint)) : Session Unit := do
  setBoard (← ofMisuse ((← board).connect color points))

/-- The color that a code stands for. -/
def color (code : ColorCode) : Session Color :=
  match code.single? with
  | some color => pure color
  | none => throw (.ofMisuse (.wireColor code))

/-- The network of an endpoint. The color is looked at before the endpoint. -/
def network (code : ColorCode) (point : Option Endpoint) : Session (Option Nat) := do
  let color ← color code
  return (← board).network? color (← given .nullEndpoint point)

/-- Allocate nets. -/
def onNets {α : Type} (operation : EStateM Failure Nets α) : Session α :=
  zoom (·.nets) (fun nets bench => { bench with nets := nets }) operation

/-- Run an operation on the design. -/
def onDesign {α : Type} (operation : Synthesis α) : Session α :=
  zoom (·.design) (fun design bench => { bench with design := design }) operation

/-- Make a table. -/
def newTable : Session Nat :=
  modifyGet fun bench => (bench.tables.size, { bench with tables := bench.tables.push {} })

/-- A table by number. -/
def table (number : Int) : Session Nat := do
  index (← get).tables.size number

/-- Run an operation on the design with one of the tables. -/
def onTable {α : Type} (table : Nat) (operation : Synthesis α) : Session α :=
  zoom (fun bench => { bench.design with table := bench.tables.getD table {} })
    (fun design bench =>
      { bench with design := design, tables := bench.tables.setIfInBounds table design.table })
    operation

/-- Make an arena. -/
def newArena : Session Nat :=
  modifyGet fun bench => (bench.arenas.size, { bench with arenas := bench.arenas.push {} })

/-- An arena by number. -/
def arena (number : Int) : Session Nat := do
  index (← get).arenas.size number

/-- Run an operation on the board and one of the arenas. -/
def onArena {α : Type} (arena : Nat) (operation : EStateM Failure (Board × Arena) α) : Session α :=
  zoom (fun bench => (bench.design.board, bench.arenas.getD arena {}))
    (fun (board, changed) bench =>
      { bench with
        design := { bench.design with board := board }
        arenas := bench.arenas.setIfInBounds arena changed })
    operation

/-- Add the entities of nodes to an arena. -/
def addNodes (arena : Nat) (nodes : List (Option Nat)) : Session Unit :=
  nodes.forM fun node => do
    let id ← given .nullNode node
    onArena arena (Arena.add ((← get).design.node id).kind.entities)

/-- Place the entities of an arena. -/
def layout (arena : Nat) (columns : Int) : Session Unit := do
  let members := (← get).arenas.getD arena {}
  setBoard (members.layout columns (← board))

/-- List a simulation. -/
def addSimulation (simulation : Simulation) : Session Nat :=
  modifyGet fun bench =>
    (bench.simulations.size, { bench with simulations := bench.simulations.push simulation })

/-- A simulation by number. -/
def simulation (number : Int) : Session (Nat × Simulation) := do
  let bench ← get
  let place ← index bench.simulations.size number
  return (place, bench.simulations.getD place default)

/-- Make a circuit of entities. -/
def newCircuit (workers : Int) (ids : List Nat) : Session Nat := do
  let circuit ← ofExcept (Circuit.ofEntities (← board) workers ids)
  addSimulation { bench := { circuit := circuit }, isBench := false }

/-- Put another state of a circuit in the place of the present one. -/
def setCircuit (place : Nat) (circuit : Circuit) : Session Unit :=
  modify fun bench =>
    { bench with simulations := bench.simulations.modify place fun simulation =>
      { simulation with bench := { simulation.bench with circuit := circuit } } }

/-- Make a bench for a table and further nodes. Its circuit and its arena are listed if it succeeds. -/
def newBench (table : Nat) (extra : List (Option Nat)) : Session (Nat × Nat) := do
  let bench ← get
  let design := { bench.design with table := bench.tables.getD table {} }
  let operation := do
    let built ← Bench.build design extra
    return (built, (← get).2)
  let (built, arena) ← zoom (fun bench => (bench.design.board, ({} : Arena)))
    (fun (board, _) bench => { bench with design := { bench.design with board := board } }) operation
  let place ← addSimulation { bench := built, isBench := true }
  modifyGet fun bench =>
    ((place, bench.arenas.size), { bench with arenas := bench.arenas.push arena })

/-- A simulation that was made as a bench. -/
def settable (number : Int) : Session (Nat × Bench) := do
  let (place, simulation) ← simulation number
  if simulation.isBench then return (place, simulation.bench)
  else throw (.ofCrash .unknownObject)

/-- Set an input of a bench. -/
def setInput (number : Int) (node : Nat) (value : Int32) : Session Unit := do
  let (place, bench) ← settable number
  if ((← get).design.node node).kind.isInput then
    setCircuit place (← ofMisuse (bench.set node value)).circuit
  else
    throw (.ofCrash .unknownObject)

/-- The collections of a grouping, as they are now. -/
def groups (grouping : SignalMap Nat) : Session SignalGroups := do
  let bench ← get
  return ⟨grouping.entries.map fun entry => (entry.1, bench.store.getD entry.2 default)⟩

/-- A grouping by number. -/
def grouping (number : Int) : Session (SignalMap Nat) := do
  let bench ← get
  let place ← index bench.groupings.size number
  return bench.groupings.getD place SignalMap.empty

/-- Extract the signal groups of entities. -/
def extract (ids : List Nat) : Session Nat := do
  let groups ← ofExcept (SignalGroups.extract (← board) ids)
  modifyGet fun bench =>
    let grouping : SignalMap Nat :=
      ⟨groups.entries.zipIdx.map fun (entry, offset) => (entry.1, bench.store.size + offset)⟩
    (bench.groupings.size, { bench with
      store := bench.store ++ (groups.entries.map (·.2)).toArray
      groupings := bench.groupings.push grouping })

/-- Make a collection of its own. -/
def newCollection (signal : Signal) : Session Nat :=
  modifyGet fun bench =>
    (bench.store.size, { bench with store := bench.store.push { signal := signal } })

/-- List a collection of the store. -/
def listCollection (place : Nat) : Session Nat :=
  modifyGet fun bench => (bench.listed.size, { bench with listed := bench.listed.push place })

/-- The place of a listed collection in the store. -/
def listed (number : Int) : Session Nat := do
  let bench ← get
  let place ← index bench.listed.size number
  return bench.listed.getD place 0

/-- A collection of the store. -/
def collection (place : Nat) : Session Collection := do
  return (← get).store.getD place default

/-- Change a collection of the store. -/
def onCollection {α : Type} (place : Nat) (change : Collection → α × Collection) : Session α := do
  let (value, changed) := change (← collection place)
  modify fun bench => { bench with store := bench.store.setIfInBounds place changed }
  return value

/-- The identity that a number stands for in a collection. -/
def groupId (place : Nat) (number : Int) : Session Nat := do
  given .unknownGroup ((← collection place).id? number)

/-- Rename a group of a collection. -/
def renameIn (place : Nat) (number : Int) (new : Signal) : Session Unit :=
  zoom (fun bench => (bench.design.board, bench.store.getD place default))
    (fun (board, changed) bench =>
      { bench with
        design := { bench.design with board := board }
        store := bench.store.setIfInBounds place changed })
    (Collection.renameNumber number new)

/-- Rename a group of one of the signals of a grouping. -/
def rename (grouping : SignalMap Nat) (number : Int) (old new : Signal) : Session Unit :=
  match grouping.find? old with
  | none => throw (.ofFault (SignalGroups.unknownSignal old))
  | some place => renameIn place number new

end Session

end CircuitNetwork
